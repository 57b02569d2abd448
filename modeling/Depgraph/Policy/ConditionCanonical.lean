import Depgraph.Library.Kleene
import Depgraph.Policy.ConditionStack
import Depgraph.Protocol.ExactForm

/-!
# Canonical conditions of a policy

`Condition::canonicalized` on conditions over plain values, which `==` tells apart whenever their texts
differ: `Plain.canonicalized_eq` says what it does. Its steps preserve the three-valued result.
-/

namespace Policy

open Json Protocol Protocol.Condition Charged Drain SortDedup

/-! ### Plain values -/

/-- Integers, strings, Booleans and `null`. -/
def isPlain : Value → Bool
  | .null | .bool _ | .number (.int _) | .string _ => true
  | _ => false

/-- A condition over integers, strings, Booleans and `null`. -/
abbrev Plain (condition : PolicyCondition) : Prop := Over (isPlain · = true) condition

theorem isPrimitive_of_isPlain {v : Value} (h : isPlain v = true) : v.isPrimitive = true := by
  cases v <;> first | rfl | cases h

/-- Plain values that `==` calls equal are equal. -/
theorem eq_of_beq_of_isPlain {v w : Value} (hv : isPlain v = true) (hw : isPlain w = true)
    (h : (v == w) = true) : v = w := by
  rw [beq_eq] at h
  cases v with
  | null => cases w <;> first | rfl | cases h
  | bool b => cases w <;> simp_all [Value.beq]
  | string s => cases w <;> simp_all [Value.beq]
  | number m =>
    cases w with
    | number n => cases m <;> cases n <;> simp_all [Value.beq, Number.numEq, isPlain]
    | _ => cases h
  | array _ => cases hv
  | object _ => cases hv

theorem eq_of_beqItems {vs ws : List Value} (hv : ∀ v ∈ vs, isPlain v = true)
    (hw : ∀ w ∈ ws, isPlain w = true) (h : beqItems vs ws = true) : vs = ws := by
  induction vs generalizing ws with
  | nil => cases ws <;> first | rfl | cases h
  | cons v vs ih =>
    cases ws with
    | nil => cases h
    | cons w ws =>
      rw [beqItems, Bool.and_eq_true] at h
      rw [eq_of_beq_of_isPlain (hv v List.mem_cons_self) (hw w List.mem_cons_self) h.1,
        ih (fun v h => hv v (List.mem_cons_of_mem _ h)) (fun w h => hw w (List.mem_cons_of_mem _ h))
          h.2]

theorem Plain.primitive {c : PolicyCondition} (h : Plain c) : Primitive c :=
  primitive_iff_over.2 (h.mono fun _ => isPrimitive_of_isPlain)

theorem eq_of_beqEach {cs ds : List PolicyCondition}
    (ih : ∀ c ∈ cs, ∀ d, Plain d → c.beq d = true → c = d) (hd : ∀ d ∈ ds, Plain d)
    (h : beqEach cs ds = true) : cs = ds := by
  induction cs generalizing ds with
  | nil => cases ds <;> first | rfl | cases h
  | cons c cs ihcs =>
    cases ds with
    | nil => cases h
    | cons d ds =>
      rw [beqEach, Bool.and_eq_true] at h
      rw [ih c List.mem_cons_self d (hd d List.mem_cons_self) h.1,
        ihcs (fun c hc => ih c (List.mem_cons_of_mem _ hc))
          (fun d h => hd d (List.mem_cons_of_mem _ h)) h.2]

/-- Plain conditions that `==` calls equal are equal. -/
theorem Plain.eq_of_beq {c d : PolicyCondition} (hc : Plain c) (hd : Plain d)
    (h : c.beq d = true) : c = d := by
  induction hc generalizing d with
  | all _ ih =>
    cases hd with
    | all hds => rw [eq_of_beqEach (fun c hc d hd h => ih c hc hd h) hds h]
    | _ => cases h
  | any _ ih =>
    cases hd with
    | any hds => rw [eq_of_beqEach (fun c hc d hd h => ih c hc hd h) hds h]
    | _ => cases h
  | not _ ih =>
    cases hd with
    | not hd => rw [ih hd h]
    | _ => cases h
  | eq hv =>
    cases hd with
    | eq hw =>
      rw [Condition.beq, Bool.and_eq_true, beq_iff_eq] at h
      rw [h.1, eq_of_beq_of_isPlain hv hw h.2]
    | _ => cases h
  | isIn hvs =>
    cases hd with
    | isIn hws =>
      rw [Condition.beq, Bool.and_eq_true, beq_iff_eq] at h
      rw [h.1, eq_of_beqItems hvs hws h.2]
    | _ => cases h
  | defined k =>
    cases hd with
    | defined l =>
      rw [Condition.beq, beq_iff_eq] at h
      rw [h]
    | _ => cases h

section Canonical

variable (F : FloatText)

theorem sortDedup_values {vs : List Value} (h : ∀ v ∈ vs, isPlain v = true) :
    sortDedup (Value.text F) (· == ·) vs = exact (Value.text F) vs :=
  sortDedup_eq_exact (text_injective F)
    (fun v hv => beq_refl_of_primitive (isPrimitive_of_isPlain (h v hv)))
    fun v hv w hw heq => eq_of_beq_of_isPlain (h v hv) (h w hw) heq

theorem sortAndDedup_eq_exact {cs : List PolicyCondition} (h : ∀ c ∈ cs, Plain c) :
    sortAndDedup F cs = exact (sortKey F) cs :=
  sortDedup_eq_exact (sortKey_injective F) (fun c hc => (h c hc).primitive.beq_refl)
    fun c hc d hd heq => (h c hc).eq_of_beq (h d hd) heq

theorem exact_subset (cs : List PolicyCondition) : exact (sortKey F) cs ⊆ cs :=
  fun _ h => mem_of_mem_sortDedup h

/-- Plain conditions are canonicalized to their exact form. -/
theorem Plain.canonicalized_eq {c : PolicyCondition} (h : Plain c) :
    canonicalized F c = exactForm F c := by
  have hplain {cs : List PolicyCondition} (hcs : ∀ c ∈ cs, Plain c) :
      ∀ x ∈ cs.map (exactForm F), Plain x :=
    List.forall_mem_map.2 fun c hc => (hcs c hc).canonicalizedWith (exact_subset F)
  have heach {cs : List PolicyCondition} (ih : ∀ c ∈ cs, canonicalized F c = exactForm F c) :
      canonicalizedEach F (sortAndDedup F) cs = cs.map (exactForm F) := by
    rw [canonicalizedEach_eq]
    exact List.map_congr_left ih
  induction h with
  | @all cs hcs ih =>
    rw [canonicalized, canonicalizedWith, heach ih, exactForm_all, canonicalizeAll,
      sortAndDedup_eq_exact F (Over.flattenAll (hplain hcs))]
  | @any cs hcs ih =>
    rw [canonicalized, canonicalizedWith, heach ih, exactForm_any, canonicalizeAny, canonicalizeAny]
    cases hl : flattenAny (cs.map (exactForm F)) with
    | none => rfl
    | some l =>
      exact congrArg collapseAny (sortAndDedup_eq_exact F (Over.flattenAny (hplain hcs) hl))
  | not _ ih => exact congrArg canonicalizeNot ih
  | eq _ => rfl
  | isIn _ => rfl
  | defined _ => rfl

/-! ### The result in a context -/

section Result

variable (edgeSemantics : Bool) (context : Context)

theorem combineAll_eq (values : List (Option Bool)) : combineAll values = Kleene.all values := by
  unfold combineAll
  split_ifs with hfalse htrue
  · exact (Kleene.all_eq_false_iff.2 (List.contains_iff_mem.1 hfalse)).symm
  · exact (Kleene.all_eq_true_iff.2 (by simpa using htrue)).symm
  · refine Kleene.ext ⟨fun h => (by cases h), fun h => ?_⟩ ⟨fun h => (by cases h), fun h => ?_⟩
    · exact absurd (by simpa using Kleene.all_eq_true_iff.1 h) htrue
    · exact absurd (List.contains_iff_mem.2 (Kleene.all_eq_false_iff.1 h)) hfalse

theorem combineAny_eq (values : List (Option Bool)) : combineAny values = Kleene.any values := by
  unfold combineAny
  split_ifs with htrue hfalse
  · exact (Kleene.any_eq_true_iff.2 (List.contains_iff_mem.1 htrue)).symm
  · exact (Kleene.any_eq_false_iff.2 (by simpa using hfalse)).symm
  · refine Kleene.ext ⟨fun h => (by cases h), fun h => ?_⟩ ⟨fun h => (by cases h), fun h => ?_⟩
    · exact absurd (List.contains_iff_mem.2 (Kleene.any_eq_true_iff.1 h)) htrue
    · exact absurd (by simpa using Kleene.any_eq_false_iff.1 h) hfalse

theorem evaluateBy_all (cs : List PolicyCondition) :
    evaluateBy edgeSemantics context (.all cs) =
      Kleene.all (cs.map (evaluateBy edgeSemantics context)) := by
  rw [evaluateBy, combineAll_eq, evaluateEach_eq]

theorem evaluateBy_any (cs : List PolicyCondition) :
    evaluateBy edgeSemantics context (.any cs) =
      Kleene.any (cs.map (evaluateBy edgeSemantics context)) := by
  rw [evaluateBy, combineAny_eq, evaluateEach_eq]

theorem evaluateBy_flattenAll (cs : List PolicyCondition) :
    Kleene.all ((flattenAll cs).map (evaluateBy edgeSemantics context)) =
      Kleene.all (cs.map (evaluateBy edgeSemantics context)) := by
  induction cs using flattenAll.induct with
  | case1 => rfl
  | case2 ds rest ih =>
    rw [flattenAll, List.map_append, Kleene.all_append, ih, List.map_cons, Kleene.all,
      evaluateBy_all]
  | case3 c rest hc ih =>
    rw [flattenAll]
    · rw [List.map_cons, List.map_cons, Kleene.all, Kleene.all, ih]
    · exact hc

theorem evaluateBy_flattenAny (cs : List PolicyCondition) :
    Kleene.any (cs.map (evaluateBy edgeSemantics context)) =
      ((flattenAny cs).map fun l => Kleene.any (l.map (evaluateBy edgeSemantics context))).getD
        (some true) := by
  induction cs using flattenAny.induct with
  | case1 => rfl
  | case2 rest =>
    rw [List.map_cons, Kleene.any, evaluateBy_all]
    exact Kleene.true_or _
  | case3 ds rest ih =>
    rw [List.map_cons, Kleene.any, ih, flattenAny, evaluateBy_any]
    cases flattenAny rest with
    | none => exact Kleene.or_true _
    | some l =>
      simp only [Option.map_some, Option.getD_some, List.map_append, Kleene.any_append]
  | case4 c rest hc hany ih =>
    rw [List.map_cons, Kleene.any, ih, flattenAny]
    · cases flattenAny rest with
      | none => exact Kleene.or_true _
      | some l => rfl
    · exact hc
    · exact hany

theorem evaluateBy_collapseAll (cs : List PolicyCondition) :
    evaluateBy edgeSemantics context (collapseAll cs) =
      Kleene.all (cs.map (evaluateBy edgeSemantics context)) := by
  unfold collapseAll
  split
  · exact (Kleene.all_singleton _).symm
  · exact evaluateBy_all edgeSemantics context _

theorem evaluateBy_collapseAny (cs : List PolicyCondition) :
    evaluateBy edgeSemantics context (collapseAny cs) =
      Kleene.any (cs.map (evaluateBy edgeSemantics context)) := by
  unfold collapseAny
  split
  · exact (Kleene.any_singleton _).symm
  · exact evaluateBy_any edgeSemantics context _

theorem evaluateBy_canonicalizeNot (c : PolicyCondition) :
    evaluateBy edgeSemantics context (canonicalizeNot c) =
      (evaluateBy edgeSemantics context c).map (! ·) := by
  unfold canonicalizeNot
  split
  · rw [evaluateBy, Kleene.not_not]
  · rw [evaluateBy]

/-- The results of operands do not depend on their order and number. -/
theorem mem_map_exact (cs : List PolicyCondition) (v : Option Bool) :
    v ∈ (exact (sortKey F) cs).map (evaluateBy edgeSemantics context) ↔
      v ∈ cs.map (evaluateBy edgeSemantics context) := by
  simp only [List.mem_map, mem_exact (sortKey_injective F)]

end Result

end Canonical

end Policy
