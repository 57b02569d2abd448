import Depgraph.Json.Proper
import Depgraph.Library.LeastRepeat
import Depgraph.Protocol.ExactForm

/-!
# Rearranged conditions

`Rearranged`: permuting, repeating and regrouping the operands of nested `all` and `any`, and the
values of `isIn`, anywhere in a condition.

* `leastForm` is the canonical form in which of all operands that `==` calls equal only the one with
  the least text stays. It is the same for rearranged conditions (`Rearranged.alike`).
* `Settled`: on no level of nested `all` or of nested `any` is an operand sorted between two that
  `==` calls equal, as `-1` is between `-0.0` and `0.0`. A level of `any` with an operand that is
  true has no say.
* Settled conditions are canonicalized to their least form (`canonicalized_eq_leastForm`), and
  rearranging keeps a condition settled. `canonicalized_rearranged` puts this together, and adds
  that a condition whose outermost level only is not settled has two canonical forms.

Where a third operand is sorted between two equal ones, whether the second one is dropped depends on
how the operands are grouped: `canonicalized_regrouped`.
-/

namespace Protocol

open Json SortDedup

namespace Condition

/-! ### Equality is an equivalence on primitive values -/

theorem beq_symm_of_primitive {v w : Value} (hv : v.isPrimitive = true)
    (h : (v == w) = true) : (w == v) = true := by
  rw [beq_congr_of_primitive hv h w]
  cases v <;> cases w <;> simp_all [beq_eq, Value.beq, Value.isPrimitive, numEq_refl]

theorem beqItems_symm_of_primitive {vs ws : List Value} (hvs : ∀ v ∈ vs, v.isPrimitive = true)
    (h : beqItems vs ws = true) : beqItems ws vs = true := by
  induction vs generalizing ws with
  | nil => cases ws <;> [rfl; cases h]
  | cons v vs ih =>
    cases ws with
    | nil => cases h
    | cons w ws =>
      obtain ⟨hhead, hrest⟩ := Bool.and_eq_true_iff.1 h
      obtain ⟨hv, hvs⟩ := List.forall_mem_cons.1 hvs
      exact Bool.and_eq_true_iff.2 ⟨beq_symm_of_primitive hv hhead, ih hvs hrest⟩

mutual

theorem beq_symm (c d : Condition) (hc : Primitive c) (h : c.beq d = true) : d.beq c = true := by
  match c, d, hc with
  | .all cs, .all ds, .all hcs => exact beqEach_symm cs ds hcs h
  | .any cs, .any ds, .any hcs => exact beqEach_symm cs ds hcs h
  | .not c, .not d, .not hc => exact beq_symm c d hc h
  | .eq k v, .eq l w, .eq hv =>
    obtain ⟨hk, hvw⟩ := Bool.and_eq_true_iff.1 h
    exact Bool.and_eq_true_iff.2 ⟨beq_iff_eq.2 (beq_iff_eq.1 hk).symm, beq_symm_of_primitive hv hvw⟩
  | .isIn k vs, .isIn l ws, .isIn hvs =>
    obtain ⟨hk, hvw⟩ := Bool.and_eq_true_iff.1 h
    exact Bool.and_eq_true_iff.2
      ⟨beq_iff_eq.2 (beq_iff_eq.1 hk).symm, beqItems_symm_of_primitive hvs hvw⟩
  | .defined k, .defined l, _ => exact beq_iff_eq.2 (beq_iff_eq.1 h).symm

theorem beqEach_symm (cs ds : List Condition) (hcs : ∀ c ∈ cs, Primitive c)
    (h : beqEach cs ds = true) : beqEach ds cs = true := by
  match cs, ds with
  | [], [] => rfl
  | c :: cs, d :: ds =>
    obtain ⟨hcd, hrest⟩ := Bool.and_eq_true_iff.1 h
    obtain ⟨hc, hcs⟩ := List.forall_mem_cons.1 hcs
    exact Bool.and_eq_true_iff.2 ⟨beq_symm c d hc hcd, beqEach_symm cs ds hcs hrest⟩

end

mutual

theorem beq_trans (c d e : Condition) (h : c.beq d = true) (h' : d.beq e = true) :
    c.beq e = true := by
  match c, d, e with
  | .all cs, .all ds, .all es => exact beqEach_trans cs ds es h h'
  | .any cs, .any ds, .any es => exact beqEach_trans cs ds es h h'
  | .not c, .not d, .not e => exact beq_trans c d e h h'
  | .eq k v, .eq l w, .eq m u =>
    obtain ⟨hk, hvw⟩ := Bool.and_eq_true_iff.1 h
    obtain ⟨hl, hwu⟩ := Bool.and_eq_true_iff.1 h'
    exact Bool.and_eq_true_iff.2
      ⟨beq_iff_eq.2 ((beq_iff_eq.1 hk).trans (beq_iff_eq.1 hl)), Value.beq_trans v w u hvw hwu⟩
  | .isIn k vs, .isIn l ws, .isIn m us =>
    obtain ⟨hk, hvw⟩ := Bool.and_eq_true_iff.1 h
    obtain ⟨hl, hwu⟩ := Bool.and_eq_true_iff.1 h'
    exact Bool.and_eq_true_iff.2
      ⟨beq_iff_eq.2 ((beq_iff_eq.1 hk).trans (beq_iff_eq.1 hl)), beqItems_trans vs ws us hvw hwu⟩
  | .defined k, .defined l, .defined m =>
    exact beq_iff_eq.2 ((beq_iff_eq.1 h).trans (beq_iff_eq.1 h'))

theorem beqEach_trans (cs ds es : List Condition) (h : beqEach cs ds = true)
    (h' : beqEach ds es = true) : beqEach cs es = true := by
  match cs, ds, es with
  | [], [], [] => rfl
  | c :: cs, d :: ds, e :: es =>
    obtain ⟨hcd, hrest⟩ := Bool.and_eq_true_iff.1 h
    obtain ⟨hde, hrest'⟩ := Bool.and_eq_true_iff.1 h'
    exact Bool.and_eq_true_iff.2 ⟨beq_trans c d e hcd hde, beqEach_trans cs ds es hrest hrest'⟩

end

theorem sameOn_of_primitive {l : List Condition} (h : ∀ c ∈ l, Primitive c) : SameOn beq l where
  refl c hc := (h c hc).beq_refl
  symm c hc d _ := beq_symm c d (h c hc)
  trans c _ d _ e _ := beq_trans c d e

section Least

variable (F : FloatText)

/-! ### The least form -/

/-- The canonical form in which of operands that `==` calls equal the one with the least text
stays. -/
def leastForm : Condition → Condition := canonicalizedWith F (least (sortKey F) beq)

/-- The operands that a canonical condition puts into a surrounding `all`. -/
def allParts : Condition → List Condition
  | .all cs => cs
  | c => [c]

/-- The operands that a canonical condition puts into a surrounding `any`. -/
def anyParts : Condition → List Condition
  | .any cs => cs
  | c => [c]

theorem mem_allParts {c x : Condition} :
    x ∈ allParts c ↔ (∃ ds, c = .all ds ∧ x ∈ ds) ∨ (x = c ∧ ∀ ds, c ≠ .all ds) := by
  cases c <;> simp [allParts]

theorem mem_anyParts {c x : Condition} :
    x ∈ anyParts c ↔ (∃ ds, c = .any ds ∧ x ∈ ds) ∨ (x = c ∧ ∀ ds, c ≠ .any ds) := by
  cases c <;> simp [anyParts]

mutual

/-- The operands that a condition puts into a surrounding `all`, in least form. They are read off
the nested `all` as written. -/
def allLeaves : Condition → List Condition
  | .all cs => allOperands cs
  | c => allParts (leastForm F c)

/-- The operands of an `all` over `cs`, in least form. -/
def allOperands : List Condition → List Condition
  | [] => []
  | c :: cs => allLeaves c ++ allOperands cs

end

mutual

/-- The operands that a condition puts into a surrounding `any`, in least form. -/
def anyLeaves : Condition → List Condition
  | .any cs => anyOperands cs
  | c => anyParts (leastForm F c)

/-- The operands of an `any` over `cs`, in least form. -/
def anyOperands : List Condition → List Condition
  | [] => []
  | c :: cs => anyLeaves c ++ anyOperands cs

end

/-! ### Settled conditions -/

mutual

/-- On no level is an operand sorted between two that `==` calls equal. A level of `any` with an
operand that is true is not looked at. -/
def Settled : Condition → Prop
  | .all cs => SettledEach cs ∧ Contiguous (sortKey F) beq (allOperands F cs)
  | .any cs => SettledTrue cs ∨ SettledEach cs ∧ Contiguous (sortKey F) beq (anyOperands F cs)
  | .not c => c.Settled
  | _ => True

def SettledEach : List Condition → Prop
  | [] => True
  | c :: cs => c.Settled ∧ SettledEach cs

/-- One of the operands is settled and true. -/
def SettledTrue : List Condition → Prop
  | [] => False
  | c :: cs => c.Settled ∧ leastForm F c = .all [] ∨ SettledTrue cs

end

theorem settledEach_iff {cs : List Condition} : SettledEach F cs ↔ ∀ c ∈ cs, Settled F c := by
  induction cs with
  | nil => simp [SettledEach]
  | cons c cs ih => simp [SettledEach, ih]

theorem settledTrue_iff {cs : List Condition} :
    SettledTrue F cs ↔ ∃ c ∈ cs, Settled F c ∧ leastForm F c = .all [] := by
  induction cs with
  | nil => simp [SettledTrue]
  | cons c cs ih => simp [SettledTrue, ih]

variable {F}

theorem settled_all {cs : List Condition} : Settled F (.all cs) ↔
    (∀ c ∈ cs, Settled F c) ∧ Contiguous (sortKey F) beq (allOperands F cs) := by
  rw [Settled, settledEach_iff]

theorem settled_any {cs : List Condition} : Settled F (.any cs) ↔
    (∃ c ∈ cs, Settled F c ∧ leastForm F c = .all []) ∨
      (∀ c ∈ cs, Settled F c) ∧ Contiguous (sortKey F) beq (anyOperands F cs) := by
  rw [Settled, settledTrue_iff, settledEach_iff]

/-! ### Rearranged conditions -/

/-- Permuting, repeating and regrouping operands and values, anywhere in a condition. -/
inductive Rearranged : Condition → Condition → Prop
  | refl (c : Condition) : Rearranged c c
  | symm {c d : Condition} : Rearranged c d → Rearranged d c
  | trans {c d e : Condition} : Rearranged c d → Rearranged d e → Rearranged c e
  | not {c d : Condition} : Rearranged c d → Rearranged (.not c) (.not d)
  | allOperand (xs ys : List Condition) {c d : Condition} : Rearranged c d →
      Rearranged (.all (xs ++ c :: ys)) (.all (xs ++ d :: ys))
  | anyOperand (xs ys : List Condition) {c d : Condition} : Rearranged c d →
      Rearranged (.any (xs ++ c :: ys)) (.any (xs ++ d :: ys))
  | allPerm {cs ds : List Condition} : cs.Perm ds → Rearranged (.all cs) (.all ds)
  | anyPerm {cs ds : List Condition} : cs.Perm ds → Rearranged (.any cs) (.any ds)
  | inPerm (k : String) {vs ws : List Value} : vs.Perm ws → Rearranged (.isIn k vs) (.isIn k ws)
  | allRepeat {c : Condition} {cs : List Condition} : c ∈ cs →
      Rearranged (.all cs) (.all (c :: cs))
  | anyRepeat {c : Condition} {cs : List Condition} : c ∈ cs →
      Rearranged (.any cs) (.any (c :: cs))
  | inRepeat (k : String) {v : Value} {vs : List Value} : v ∈ vs →
      Rearranged (.isIn k vs) (.isIn k (v :: vs))
  | allGroup (cs ds : List Condition) : Rearranged (.all (.all cs :: ds)) (.all (cs ++ ds))
  | anyGroup (cs ds : List Condition) : Rearranged (.any (.any cs :: ds)) (.any (cs ++ ds))

/-! ### Operands of a level -/

theorem allOperands_eq (cs : List Condition) : allOperands F cs = cs.flatMap (allLeaves F) := by
  induction cs with
  | nil => rfl
  | cons c cs ih => rw [allOperands, ih, List.flatMap_cons]

theorem anyOperands_eq (cs : List Condition) : anyOperands F cs = cs.flatMap (anyLeaves F) := by
  induction cs with
  | nil => rfl
  | cons c cs ih => rw [anyOperands, ih, List.flatMap_cons]

theorem flattenAll_eq (cs : List Condition) : flattenAll cs = cs.flatMap allParts := by
  induction cs using flattenAll.induct with
  | case1 => rfl
  | case2 ds rest ih => rw [flattenAll, ih, List.flatMap_cons, allParts]
  | case3 c rest hc ih =>
    rw [flattenAll, ih, List.flatMap_cons, allParts]
    · rfl
    · exact hc
    · exact hc

theorem flattenAny_eq {cs : List Condition} (h : .all [] ∉ cs) :
    flattenAny cs = some (cs.flatMap anyParts) := by
  induction cs using flattenAny.induct with
  | case1 => rfl
  | case2 => exact absurd List.mem_cons_self h
  | case3 ds rest ih =>
    rw [flattenAny, ih fun hmem => h (List.mem_cons_of_mem _ hmem), List.flatMap_cons, anyParts]
    rfl
  | case4 c rest hc hany ih =>
    rw [flattenAny, ih fun hmem => h (List.mem_cons_of_mem _ hmem), List.flatMap_cons, anyParts]
    · rfl
    · exact hany
    · exact hc
    · exact hany

theorem allParts_collapseAll {l : List Condition} (h : ∀ x ∈ l, ∀ ds, x ≠ .all ds) :
    allParts (collapseAll l) = l := by
  unfold collapseAll
  split
  · rename_i c
    have hc := h c List.mem_cons_self
    rw [allParts]
    exact hc
  · rfl

theorem anyParts_collapseAny {l : List Condition} (h : ∀ x ∈ l, ∀ ds, x ≠ .any ds) :
    anyParts (collapseAny l) = l := by
  unfold collapseAny
  split
  · rename_i c
    have hc := h c List.mem_cons_self
    rw [anyParts]
    exact hc
  · rfl

theorem collapseAny_ne_true {l : List Condition} (h : ∀ x ∈ l, x ≠ .all []) :
    collapseAny l ≠ .all [] := by
  unfold collapseAny
  split
  · rename_i c
    exact h c List.mem_cons_self
  · simp

theorem primitive_all {cs : List Condition} : Primitive (.all cs) ↔ ∀ c ∈ cs, Primitive c :=
  ⟨fun h => by cases h with | all h => exact h, .all⟩

theorem primitive_any {cs : List Condition} : Primitive (.any cs) ↔ ∀ c ∈ cs, Primitive c :=
  ⟨fun h => by cases h with | any h => exact h, .any⟩

theorem primitive_in {k : String} {vs : List Value} :
    Primitive (.isIn k vs) ↔ ∀ v ∈ vs, isConditionPrimitive v = true :=
  ⟨fun h => by cases h with | isIn h => exact h, .isIn⟩

theorem primitive_not {c : Condition} : Primitive (.not c) ↔ Primitive c :=
  ⟨fun h => by cases h with | not h => exact h, .not⟩

theorem Rearranged.primitive {c d : Condition} (h : Rearranged c d) :
    Primitive c ↔ Primitive d := by
  induction h with
  | refl c => exact Iff.rfl
  | symm _ ih => exact ih.symm
  | trans _ _ ih ih' => exact ih.trans ih'
  | not _ ih => rw [primitive_not, primitive_not, ih]
  | allOperand xs ys _ ih =>
    simp only [primitive_all, List.forall_mem_append, List.forall_mem_cons, ih]
  | anyOperand xs ys _ ih =>
    simp only [primitive_any, List.forall_mem_append, List.forall_mem_cons, ih]
  | allPerm h => simp only [primitive_all, h.mem_iff]
  | anyPerm h => simp only [primitive_any, h.mem_iff]
  | inPerm k h => simp only [primitive_in, h.mem_iff]
  | allRepeat h =>
    simp only [primitive_all, List.forall_mem_cons]
    exact ⟨fun hc => ⟨hc _ h, hc⟩, And.right⟩
  | anyRepeat h =>
    simp only [primitive_any, List.forall_mem_cons]
    exact ⟨fun hc => ⟨hc _ h, hc⟩, And.right⟩
  | inRepeat k h =>
    simp only [primitive_in, List.forall_mem_cons]
    exact ⟨fun hv => ⟨hv _ h, hv⟩, And.right⟩
  | allGroup cs ds => simp only [primitive_all, List.forall_mem_cons, List.forall_mem_append]
  | anyGroup cs ds => simp only [primitive_any, List.forall_mem_cons, List.forall_mem_append]

/-! ### Least forms and operands -/

theorem least_subset_sortKey (l : List Condition) : least (sortKey F) beq l ⊆ l :=
  least_subset (sortKey_injective F) l

theorem Primitive.leastForm {c : Condition} (h : Primitive c) : Primitive (leastForm F c) :=
  h.canonicalizedWith least_subset_sortKey

theorem leastForm_shape (c : Condition) :
    CanonicalWith (fun _ => True) (fun _ => True) (leastForm F c) :=
  canonicalizedWith_shape (fun _ => trivial) least_subset_sortKey (fun _ => trivial) c

theorem Primitive.allParts {c : Condition} (h : Primitive c) : ∀ x ∈ allParts c, Primitive x := by
  intro x hx
  rcases mem_allParts.1 hx with ⟨ds, rfl, hxds⟩ | ⟨rfl, -⟩
  · exact primitive_all.1 h x hxds
  · exact h

theorem Primitive.anyParts {c : Condition} (h : Primitive c) : ∀ x ∈ anyParts c, Primitive x := by
  intro x hx
  rcases mem_anyParts.1 hx with ⟨ds, rfl, hxds⟩ | ⟨rfl, -⟩
  · exact primitive_any.1 h x hxds
  · exact h

theorem primitive_allLeaves {c : Condition} (h : Primitive c) :
    ∀ x ∈ allLeaves F c, Primitive x := by
  induction h with
  | @all cs _ ih =>
    rw [allLeaves, allOperands_eq]
    exact fun x hx => (List.mem_flatMap.1 hx).elim fun c hc => ih c hc.1 x hc.2
  | any h => exact (Primitive.any h).leastForm.allParts
  | not h => exact (Primitive.not h).leastForm.allParts
  | eq h => exact (Primitive.eq h).leastForm.allParts
  | isIn h => exact (Primitive.isIn h).leastForm.allParts
  | defined k => exact (Primitive.defined k).leastForm.allParts

theorem primitive_anyLeaves {c : Condition} (h : Primitive c) :
    ∀ x ∈ anyLeaves F c, Primitive x := by
  induction h with
  | @any cs _ ih =>
    rw [anyLeaves, anyOperands_eq]
    exact fun x hx => (List.mem_flatMap.1 hx).elim fun c hc => ih c hc.1 x hc.2
  | all h => exact (Primitive.all h).leastForm.anyParts
  | not h => exact (Primitive.not h).leastForm.anyParts
  | eq h => exact (Primitive.eq h).leastForm.anyParts
  | isIn h => exact (Primitive.isIn h).leastForm.anyParts
  | defined k => exact (Primitive.defined k).leastForm.anyParts

theorem sameOn_allOperands {cs : List Condition} (h : ∀ c ∈ cs, Primitive c) :
    SameOn beq (allOperands F cs) :=
  sameOn_of_primitive (primitive_allLeaves (.all h))

theorem sameOn_anyOperands {cs : List Condition} (h : ∀ c ∈ cs, Primitive c) :
    SameOn beq (anyOperands F cs) :=
  sameOn_of_primitive (primitive_anyLeaves (.any h))

/-- The operands that an `all` flattens to. -/
def allForms (F : FloatText) (cs : List Condition) : List Condition :=
  cs.flatMap fun c => allParts (leastForm F c)

/-- The operands that an `any` flattens to if none of them is true. -/
def anyForms (F : FloatText) (cs : List Condition) : List Condition :=
  cs.flatMap fun c => anyParts (leastForm F c)

theorem flattenAll_map_leastForm (cs : List Condition) :
    flattenAll (cs.map (leastForm F)) = allForms F cs := by
  rw [flattenAll_eq, List.flatMap_map]
  rfl

theorem allForms_flat {cs : List Condition} {x : Condition} (hx : x ∈ allForms F cs)
    (ds : List Condition) : x ≠ .all ds := by
  rw [← flattenAll_map_leastForm] at hx
  exact (flattenAll_shape (List.forall_mem_map.2 fun c _ => leastForm_shape c) x hx).2 ds

theorem anyForms_flat {cs : List Condition} (htrue : .all [] ∉ cs.map (leastForm F))
    {x : Condition} (hx : x ∈ anyForms F cs) : x ≠ .all [] ∧ ∀ ds, x ≠ .any ds := by
  have hflat : flattenAny (cs.map (leastForm F)) = some (anyForms F cs) := by
    rw [flattenAny_eq htrue, List.flatMap_map]
    rfl
  exact (flattenAny_shape (List.forall_mem_map.2 fun c _ => leastForm_shape c) hflat x hx).2

theorem leastForm_all_forms (cs : List Condition) :
    leastForm F (.all cs) = collapseAll (least (sortKey F) beq (allForms F cs)) := by
  rw [leastForm, canonicalizedWith, canonicalizeAll, canonicalizedEach_eq]
  exact congrArg (fun l => collapseAll (least (sortKey F) beq l)) (flattenAll_map_leastForm cs)

theorem leastForm_any_of_true {cs : List Condition} (h : .all [] ∈ cs.map (leastForm F)) :
    leastForm F (.any cs) = .all [] := by
  rw [leastForm, canonicalizedWith, canonicalizedEach_eq, ← leastForm, canonicalizeAny,
    flattenAny_eq_none.2 h]

theorem leastForm_any_forms {cs : List Condition} (h : .all [] ∉ cs.map (leastForm F)) :
    leastForm F (.any cs) = collapseAny (least (sortKey F) beq (anyForms F cs)) := by
  rw [leastForm, canonicalizedWith, canonicalizedEach_eq, ← leastForm, canonicalizeAny,
    flattenAny_eq h, List.flatMap_map]
  rfl

/-- An `any` is true just when an operand is. -/
theorem leastForm_any_eq_true {cs : List Condition} :
    leastForm F (.any cs) = .all [] ↔ ∃ c ∈ cs, leastForm F c = .all [] := by
  rw [← List.mem_map]
  refine ⟨fun h => by_contra fun htrue => ?_, leastForm_any_of_true⟩
  rw [leastForm_any_forms htrue] at h
  refine collapseAny_ne_true (fun x hx => ?_) h
  exact (anyForms_flat htrue (least_subset_sortKey _ hx)).1

/-- What a condition is flattened to stands for its operands as written. -/
theorem represents_allLeaves {c : Condition} (h : Primitive c) :
    Represents (sortKey F) beq (allParts (leastForm F c)) (allLeaves F c) := by
  have hself {c : Condition} (hc : Primitive c) :
      Represents (sortKey F) beq (allParts (leastForm F c)) (allParts (leastForm F c)) :=
    .refl fun x hx => (hc.leastForm.allParts x hx).beq_refl
  induction h with
  | @all cs h ih =>
    have hforms : Represents (sortKey F) beq (allForms F cs) (allOperands F cs) := by
      rw [allOperands_eq]
      exact .flatMap ih
    rw [leastForm_all_forms, allParts_collapseAll fun x hx =>
      allForms_flat (least_subset_sortKey _ hx), allLeaves]
    exact hforms.least (sortKey_injective F) (sameOn_allOperands h)
  | any h => exact hself (.any h)
  | not h => exact hself (.not h)
  | eq h => exact hself (.eq h)
  | isIn h => exact hself (.isIn h)
  | defined k => exact hself (.defined k)

theorem represents_anyLeaves {c : Condition} (h : Primitive c) (htrue : leastForm F c ≠ .all []) :
    Represents (sortKey F) beq (anyParts (leastForm F c)) (anyLeaves F c) := by
  have hself {c : Condition} (hc : Primitive c) :
      Represents (sortKey F) beq (anyParts (leastForm F c)) (anyParts (leastForm F c)) :=
    .refl fun x hx => (hc.leastForm.anyParts x hx).beq_refl
  induction h with
  | @any cs h ih =>
    have htrue' : .all [] ∉ cs.map (leastForm F) := fun hmem => htrue (leastForm_any_of_true hmem)
    have hforms : Represents (sortKey F) beq (anyForms F cs) (anyOperands F cs) := by
      rw [anyOperands_eq]
      exact .flatMap fun c hc => ih c hc fun hc' => htrue' (hc' ▸ List.mem_map_of_mem hc)
    rw [leastForm_any_forms htrue', anyParts_collapseAny fun x hx =>
      (anyForms_flat htrue' (least_subset_sortKey _ hx)).2, anyLeaves]
    exact hforms.least (sortKey_injective F) (sameOn_anyOperands h)
  | all h => exact hself (.all h)
  | not h => exact hself (.not h)
  | eq h => exact hself (.eq h)
  | isIn h => exact hself (.isIn h)
  | defined k => exact hself (.defined k)

theorem represents_allForms {cs : List Condition} (h : ∀ c ∈ cs, Primitive c) :
    Represents (sortKey F) beq (allForms F cs) (allOperands F cs) := by
  rw [allOperands_eq]
  exact .flatMap fun c hc => represents_allLeaves (h c hc)

theorem represents_anyForms {cs : List Condition} (h : ∀ c ∈ cs, Primitive c)
    (htrue : .all [] ∉ cs.map (leastForm F)) :
    Represents (sortKey F) beq (anyForms F cs) (anyOperands F cs) := by
  rw [anyOperands_eq]
  exact .flatMap fun c hc =>
    represents_anyLeaves (h c hc) fun hc' => htrue (hc' ▸ List.mem_map_of_mem hc)

/-- **The least form of an `all`** is made of its operands as written. -/
theorem leastForm_all {cs : List Condition} (h : ∀ c ∈ cs, Primitive c) :
    leastForm F (.all cs) = collapseAll (least (sortKey F) beq (allOperands F cs)) := by
  rw [leastForm_all_forms,
    (represents_allForms h).least_eq (sortKey_injective F) (sameOn_allOperands h)]

/-- **The least form of an `any`** without a true operand is made of its operands as written. -/
theorem leastForm_any {cs : List Condition} (h : ∀ c ∈ cs, Primitive c)
    (htrue : .all [] ∉ cs.map (leastForm F)) :
    leastForm F (.any cs) = collapseAny (least (sortKey F) beq (anyOperands F cs)) := by
  rw [leastForm_any_forms htrue,
    (represents_anyForms h htrue).least_eq (sortKey_injective F) (sameOn_anyOperands h)]

/-! ### What rearranging keeps -/

variable (F) in
/-- What rearranged conditions have in common. -/
structure Alike (c d : Condition) : Prop where
  leastForm : leastForm F c = leastForm F d
  allLeaves : ∀ x, x ∈ allLeaves F c ↔ x ∈ allLeaves F d
  anyLeaves : ∀ x, x ∈ anyLeaves F c ↔ x ∈ anyLeaves F d
  settled : Settled F c ↔ Settled F d

theorem Alike.refl (c : Condition) : Alike F c c :=
  ⟨rfl, fun _ => Iff.rfl, fun _ => Iff.rfl, Iff.rfl⟩

theorem Alike.symm {c d : Condition} (h : Alike F c d) : Alike F d c :=
  ⟨h.leastForm.symm, fun x => (h.allLeaves x).symm, fun x => (h.anyLeaves x).symm,
    h.settled.symm⟩

theorem Alike.trans {c d e : Condition} (h : Alike F c d) (h' : Alike F d e) : Alike F c e :=
  ⟨h.leastForm.trans h'.leastForm, fun x => (h.allLeaves x).trans (h'.allLeaves x),
    fun x => (h.anyLeaves x).trans (h'.anyLeaves x), h.settled.trans h'.settled⟩

/-- Every operand of each list has an alike operand in the other. -/
def Covers (cs ds : List Condition) : Prop :=
  (∀ c ∈ cs, ∃ d ∈ ds, Alike F c d) ∧ ∀ d ∈ ds, ∃ c ∈ cs, Alike F c d

theorem Covers.forall {cs ds : List Condition} (h : Covers (F := F) cs ds) {P : Condition → Prop}
    (hP : ∀ c d, Alike F c d → (P c ↔ P d)) : (∀ c ∈ cs, P c) ↔ ∀ d ∈ ds, P d := by
  refine ⟨fun hcs d hd => ?_, fun hds c hc => ?_⟩
  · obtain ⟨c, hc, hcd⟩ := h.2 d hd
    exact (hP c d hcd).1 (hcs c hc)
  · obtain ⟨d, hd, hcd⟩ := h.1 c hc
    exact (hP c d hcd).2 (hds d hd)

theorem Covers.exists {cs ds : List Condition} (h : Covers (F := F) cs ds) {P : Condition → Prop}
    (hP : ∀ c d, Alike F c d → (P c ↔ P d)) : (∃ c ∈ cs, P c) ↔ ∃ d ∈ ds, P d := by
  refine ⟨fun ⟨c, hc, hPc⟩ => ?_, fun ⟨d, hd, hPd⟩ => ?_⟩
  · obtain ⟨d, hd, hcd⟩ := h.1 c hc
    exact ⟨d, hd, (hP c d hcd).1 hPc⟩
  · obtain ⟨c, hc, hcd⟩ := h.2 d hd
    exact ⟨c, hc, (hP c d hcd).2 hPd⟩

theorem Covers.allOperands {cs ds : List Condition} (h : Covers (F := F) cs ds) (x : Condition) :
    x ∈ allOperands F cs ↔ x ∈ allOperands F ds := by
  rw [allOperands_eq, allOperands_eq, List.mem_flatMap, List.mem_flatMap]
  exact h.exists fun c d hcd => hcd.allLeaves x

theorem Covers.anyOperands {cs ds : List Condition} (h : Covers (F := F) cs ds) (x : Condition) :
    x ∈ anyOperands F cs ↔ x ∈ anyOperands F ds := by
  rw [anyOperands_eq, anyOperands_eq, List.mem_flatMap, List.mem_flatMap]
  exact h.exists fun c d hcd => hcd.anyLeaves x

/-- Levels with the same operands. -/
theorem alike_all {cs ds : List Condition} (hcs : ∀ c ∈ cs, Primitive c)
    (hds : ∀ d ∈ ds, Primitive d) (hops : ∀ x, x ∈ allOperands F cs ↔ x ∈ allOperands F ds)
    (hsettled : Settled F (.all cs) ↔ Settled F (.all ds)) :
    Alike F (.all cs) (.all ds) := by
  have hleast : leastForm F (.all cs) = leastForm F (.all ds) := by
    rw [leastForm_all hcs, leastForm_all hds, least_congr (sortKey_injective F) hops]
  exact ⟨hleast, hops, fun x => by rw [Condition.anyLeaves, Condition.anyLeaves, hleast] <;> simp,
    hsettled⟩

theorem alike_any {cs ds : List Condition} (hcs : ∀ c ∈ cs, Primitive c)
    (hds : ∀ d ∈ ds, Primitive d) (hops : ∀ x, x ∈ anyOperands F cs ↔ x ∈ anyOperands F ds)
    (htrue : .all [] ∈ cs.map (leastForm F) ↔ .all [] ∈ ds.map (leastForm F))
    (hsettled : Settled F (.any cs) ↔ Settled F (.any ds)) :
    Alike F (.any cs) (.any ds) := by
  have hleast : leastForm F (.any cs) = leastForm F (.any ds) := by
    by_cases h : .all [] ∈ cs.map (leastForm F)
    · rw [leastForm_any_of_true h, leastForm_any_of_true (htrue.1 h)]
    · rw [leastForm_any hcs h, leastForm_any hds (mt htrue.2 h),
        least_congr (sortKey_injective F) hops]
  exact ⟨hleast, fun x => by rw [Condition.allLeaves, Condition.allLeaves, hleast] <;> simp, hops,
    hsettled⟩

theorem Covers.all {cs ds : List Condition} (h : Covers (F := F) cs ds)
    (hcs : ∀ c ∈ cs, Primitive c) (hds : ∀ d ∈ ds, Primitive d) :
    Alike F (.all cs) (.all ds) := by
  refine alike_all hcs hds h.allOperands ?_
  rw [settled_all, settled_all, Contiguous.congr h.allOperands]
  exact and_congr_left' (h.forall fun c d hcd => hcd.settled)

theorem Covers.any {cs ds : List Condition} (h : Covers (F := F) cs ds)
    (hcs : ∀ c ∈ cs, Primitive c) (hds : ∀ d ∈ ds, Primitive d) :
    Alike F (.any cs) (.any ds) := by
  refine alike_any hcs hds h.anyOperands ?_ ?_
  · rw [List.mem_map, List.mem_map]
    exact h.exists fun c d hcd => by rw [hcd.leastForm]
  · rw [settled_any, settled_any, Contiguous.congr h.anyOperands]
    refine or_congr (h.exists fun c d hcd => ?_)
      (and_congr_left' (h.forall fun c d hcd => hcd.settled))
    rw [hcd.leastForm, hcd.settled]

theorem Covers.of_mem_iff {cs ds : List Condition} (h : ∀ x, x ∈ cs ↔ x ∈ ds) :
    Covers (F := F) cs ds :=
  ⟨fun c hc => ⟨c, (h c).1 hc, .refl c⟩, fun d hd => ⟨d, (h d).2 hd, .refl d⟩⟩

theorem Covers.operand (xs ys : List Condition) {c d : Condition} (h : Alike F c d) :
    Covers (F := F) (xs ++ c :: ys) (xs ++ d :: ys) := by
  refine ⟨fun x hx => ?_, fun x hx => ?_⟩ <;>
    simp only [List.mem_append, List.mem_cons] at hx ⊢ <;> rcases hx with hx | rfl | hx
  · exact ⟨x, Or.inl hx, .refl x⟩
  · exact ⟨d, Or.inr (Or.inl rfl), h⟩
  · exact ⟨x, Or.inr (Or.inr hx), .refl x⟩
  · exact ⟨x, Or.inl hx, .refl x⟩
  · exact ⟨c, Or.inr (Or.inl rfl), h⟩
  · exact ⟨x, Or.inr (Or.inr hx), .refl x⟩

/-- Dissolving a group of operands of `all`. -/
theorem alike_allGroup {cs ds : List Condition} (hcs : ∀ c ∈ cs, Primitive c)
    (hds : ∀ d ∈ ds, Primitive d) : Alike F (.all (.all cs :: ds)) (.all (cs ++ ds)) := by
  have hops : allOperands F (.all cs :: ds) = allOperands F (cs ++ ds) := by
    rw [allOperands, allLeaves, allOperands_eq, allOperands_eq, allOperands_eq,
      List.flatMap_append]
  refine alike_all (List.forall_mem_cons.2 ⟨.all hcs, hds⟩) (List.forall_mem_append.2 ⟨hcs, hds⟩)
    (fun x => by rw [hops]) ?_
  simp only [settled_all, List.forall_mem_cons, List.forall_mem_append, hops]
  -- the group is a part of the level it is dissolved into
  have hsub : allOperands F cs ⊆ allOperands F (cs ++ ds) := by
    rw [allOperands_eq, allOperands_eq, List.flatMap_append]
    exact List.subset_append_left _ _
  exact ⟨fun h => ⟨⟨h.1.1.1, h.1.2⟩, h.2⟩, fun h => ⟨⟨⟨h.1.1, h.2.subset hsub⟩, h.1.2⟩, h.2⟩⟩

/-- Dissolving a group of operands of `any`. -/
theorem alike_anyGroup {cs ds : List Condition} (hcs : ∀ c ∈ cs, Primitive c)
    (hds : ∀ d ∈ ds, Primitive d) : Alike F (.any (.any cs :: ds)) (.any (cs ++ ds)) := by
  have hops : anyOperands F (.any cs :: ds) = anyOperands F (cs ++ ds) := by
    rw [anyOperands, anyLeaves, anyOperands_eq, anyOperands_eq, anyOperands_eq,
      List.flatMap_append]
  have hgroup : leastForm F (.any cs) = .all [] ↔ .all [] ∈ cs.map (leastForm F) := by
    rw [leastForm_any_eq_true, List.mem_map]
  refine alike_any (List.forall_mem_cons.2 ⟨.any hcs, hds⟩) (List.forall_mem_append.2 ⟨hcs, hds⟩)
    (fun x => by rw [hops]) ?_ ?_
  · rw [List.map_cons, List.mem_cons, eq_comm, hgroup, List.map_append, List.mem_append]
  · rw [settled_any, settled_any, hops, List.exists_mem_cons_iff]
    have hsub : anyOperands F cs ⊆ anyOperands F (cs ++ ds) := by
      rw [anyOperands_eq, anyOperands_eq, List.flatMap_append]
      exact List.subset_append_left _ _
    constructor
    · rintro ((⟨hsettled, htrue⟩ | ⟨d, hd, h⟩) | ⟨hall, hcontiguous⟩)
      · rcases settled_any.1 hsettled with ⟨c, hc, h⟩ | ⟨hcs', -⟩
        · exact .inl ⟨c, List.mem_append_left _ hc, h⟩
        · obtain ⟨c, hc, h⟩ := leastForm_any_eq_true.1 htrue
          exact .inl ⟨c, List.mem_append_left _ hc, hcs' c hc, h⟩
      · exact .inl ⟨d, List.mem_append_right _ hd, h⟩
      · obtain ⟨hsettled, hds'⟩ := List.forall_mem_cons.1 hall
        rcases settled_any.1 hsettled with ⟨c, hc, h⟩ | ⟨hcs', -⟩
        · exact .inl ⟨c, List.mem_append_left _ hc, h⟩
        · exact .inr ⟨List.forall_mem_append.2 ⟨hcs', hds'⟩, hcontiguous⟩
    · rintro (⟨c, hc, hsettled, htrue⟩ | ⟨hall, hcontiguous⟩)
      · rcases List.mem_append.1 hc with hc | hc
        · exact .inl (.inl ⟨settled_any.2 (.inl ⟨c, hc, hsettled, htrue⟩),
            leastForm_any_eq_true.2 ⟨c, hc, htrue⟩⟩)
        · exact .inl (.inr ⟨c, hc, hsettled, htrue⟩)
      · obtain ⟨hcs', hds'⟩ := List.forall_mem_append.1 hall
        exact .inr ⟨List.forall_mem_cons.2
          ⟨settled_any.2 (.inr ⟨hcs', hcontiguous.subset hsub⟩), hds'⟩, hcontiguous⟩

/-- The values of `isIn` enter its canonical form as a set. -/
theorem alike_in (k : String) {vs ws : List Value} (h : ∀ v, v ∈ vs ↔ v ∈ ws)
    (hvs : Primitive (.isIn k vs)) : Alike F (.isIn k vs) (.isIn k ws) := by
  have hprim : ∀ v ∈ vs, (v == v) = true := fun v hv =>
    beq_refl_of_primitive (primitive_in.1 hvs v hv)
  have hleast : leastForm F (.isIn k vs) = leastForm F (.isIn k ws) := by
    rw [leastForm, canonicalizedWith, canonicalizedWith, canonicalizeIn, canonicalizeIn,
      sortDedup_congr (text_injective F) h hprim]
  exact ⟨hleast, fun x => by rw [Condition.allLeaves, Condition.allLeaves, hleast] <;> simp,
    fun x => by rw [Condition.anyLeaves, Condition.anyLeaves, hleast] <;> simp, Iff.rfl⟩

theorem alike_not {c d : Condition} (h : Alike F c d) : Alike F (.not c) (.not d) := by
  have hleast : leastForm F (.not c) = leastForm F (.not d) :=
    congrArg canonicalizeNot h.leastForm
  exact ⟨hleast, fun x => by rw [Condition.allLeaves, Condition.allLeaves, hleast] <;> simp,
    fun x => by rw [Condition.anyLeaves, Condition.anyLeaves, hleast] <;> simp, h.settled⟩

theorem mem_cons_iff_of_mem {α : Type} {a : α} {l : List α} (h : a ∈ l) (x : α) :
    x ∈ l ↔ x ∈ a :: l := by
  rw [List.mem_cons]
  exact ⟨Or.inr, fun hx => hx.elim (fun hxa => hxa ▸ h) id⟩

/-- **Rearranging keeps the least form and settledness.** -/
theorem Rearranged.alike {c d : Condition} (h : Rearranged c d) (hc : Primitive c) :
    Alike F c d := by
  have hd := h.primitive.1 hc
  induction h with
  | refl c => exact .refl c
  | symm hr ih => exact (ih hd hc).symm
  | trans hr _ ih ih' =>
    exact (ih hc (hr.primitive.1 hc)).trans (ih' (hr.primitive.1 hc) hd)
  | not _ ih => exact alike_not (ih (primitive_not.1 hc) (primitive_not.1 hd))
  | allOperand xs ys _ ih =>
    have hcd := ih (primitive_all.1 hc _ (by simp)) (primitive_all.1 hd _ (by simp))
    exact (Covers.operand xs ys hcd).all (primitive_all.1 hc) (primitive_all.1 hd)
  | anyOperand xs ys _ ih =>
    have hcd := ih (primitive_any.1 hc _ (by simp)) (primitive_any.1 hd _ (by simp))
    exact (Covers.operand xs ys hcd).any (primitive_any.1 hc) (primitive_any.1 hd)
  | allPerm h =>
    exact (Covers.of_mem_iff fun _ => h.mem_iff).all (primitive_all.1 hc) (primitive_all.1 hd)
  | anyPerm h =>
    exact (Covers.of_mem_iff fun _ => h.mem_iff).any (primitive_any.1 hc) (primitive_any.1 hd)
  | inPerm k h => exact alike_in k (fun _ => h.mem_iff) hc
  | allRepeat h =>
    exact (Covers.of_mem_iff (mem_cons_iff_of_mem h)).all (primitive_all.1 hc)
      (primitive_all.1 hd)
  | anyRepeat h =>
    exact (Covers.of_mem_iff (mem_cons_iff_of_mem h)).any (primitive_any.1 hc)
      (primitive_any.1 hd)
  | inRepeat k h => exact alike_in k (mem_cons_iff_of_mem h) hc
  | allGroup cs ds =>
    obtain ⟨hcs, hds⟩ := List.forall_mem_append.1 (primitive_all.1 hd)
    exact alike_allGroup hcs hds
  | anyGroup cs ds =>
    obtain ⟨hcs, hds⟩ := List.forall_mem_append.1 (primitive_any.1 hd)
    exact alike_anyGroup hcs hds

/-! ### Settled conditions are canonicalized to their least form -/

theorem canonicalized_all_forms {cs : List Condition}
    (hcs : ∀ c ∈ cs, canonicalized F c = leastForm F c) :
    canonicalized F (.all cs) = collapseAll (sortAndDedup F (allForms F cs)) := by
  rw [canonicalized, canonicalizedWith, canonicalizedEach_eq, canonicalizeAll,
    ← flattenAll_map_leastForm]
  exact congrArg (fun l => collapseAll (sortAndDedup F (flattenAll l))) (List.map_congr_left hcs)

theorem canonicalized_any_forms {cs : List Condition}
    (hcs : ∀ c ∈ cs, canonicalized F c = leastForm F c)
    (htrue : .all [] ∉ cs.map (leastForm F)) :
    canonicalized F (.any cs) = collapseAny (sortAndDedup F (anyForms F cs)) := by
  have hmap : cs.map (canonicalizedWith F (sortAndDedup F)) = cs.map (leastForm F) :=
    List.map_congr_left hcs
  rw [canonicalized, canonicalizedWith, canonicalizedEach_eq, canonicalizeAny, hmap,
    flattenAny_eq htrue, List.flatMap_map]
  rfl

/-- **Settled conditions are canonicalized to their least form.** -/
theorem canonicalized_eq_leastForm {c : Condition} (hp : Primitive c) (hs : Settled F c) :
    canonicalized F c = leastForm F c := by
  induction hp with
  | @all cs h ih =>
    obtain ⟨hcs, hcontiguous⟩ := settled_all.1 hs
    have hforms := represents_allForms (F := F) h
    have hsame := (sameOn_allOperands (F := F) h).subset hforms.subset
    rw [canonicalized_all_forms fun c hc => ih c hc (hcs c hc), leastForm_all_forms]
    exact congrArg collapseAll
      (sortDedup_eq_least (sortKey_injective F) hsame (hcontiguous.subset hforms.subset))
  | @any cs h ih =>
    by_cases htrue : .all [] ∈ cs.map (leastForm F)
    · -- a settled operand is true, as one is true at all
      obtain ⟨c, hc, hsettled, hc'⟩ : ∃ c ∈ cs, Settled F c ∧ leastForm F c = .all [] := by
        rcases settled_any.1 hs with h | ⟨hcs, -⟩
        · exact h
        · obtain ⟨c, hc, hc'⟩ := List.mem_map.1 htrue
          exact ⟨c, hc, hcs c hc, hc'⟩
      have hmem : .all [] ∈ cs.map (canonicalizedWith F (sortAndDedup F)) :=
        List.mem_map.2 ⟨c, hc, (ih c hc hsettled).trans hc'⟩
      rw [leastForm_any_of_true htrue, canonicalized, canonicalizedWith, canonicalizedEach_eq,
        canonicalizeAny, flattenAny_eq_none.2 hmem]
    · have hno : ¬ ∃ c ∈ cs, Settled F c ∧ leastForm F c = .all [] := by
        rintro ⟨c, hc, -, hc'⟩
        exact htrue (hc' ▸ List.mem_map_of_mem hc)
      obtain ⟨hcs, hcontiguous⟩ := (settled_any.1 hs).resolve_left hno
      have hforms := represents_anyForms h htrue
      have hsame := (sameOn_anyOperands (F := F) h).subset hforms.subset
      rw [canonicalized_any_forms (fun c hc => ih c hc (hcs c hc)) htrue,
        leastForm_any_forms htrue]
      exact congrArg collapseAny
        (sortDedup_eq_least (sortKey_injective F) hsame (hcontiguous.subset hforms.subset))
  | not _ ih => exact congrArg canonicalizeNot (ih hs)
  | eq | isIn | defined => rfl

/-! ### Levels that are not settled -/

theorem allOperands_of_plain {cs : List Condition} (h : ∀ c ∈ cs, ∀ ds, c ≠ .all ds) :
    allOperands F cs = allForms F cs := by
  rw [allOperands_eq, allForms]
  refine List.flatMap_congr fun c hc => ?_
  rw [allLeaves]
  exact h c hc

theorem anyOperands_of_plain {cs : List Condition} (h : ∀ c ∈ cs, ∀ ds, c ≠ .any ds) :
    anyOperands F cs = anyForms F cs := by
  rw [anyOperands_eq, anyForms]
  refine List.flatMap_congr fun c hc => ?_
  rw [anyLeaves]
  exact h c hc

theorem allForms_of_plain {cs : List Condition} (h : ∀ c ∈ cs, ∀ ds, leastForm F c ≠ .all ds) :
    allForms F cs = cs.map (leastForm F) := by
  induction cs with
  | nil => rfl
  | cons c cs ih =>
    obtain ⟨hc, hcs⟩ := List.forall_mem_cons.1 h
    rw [allForms, List.flatMap_cons, ← allForms, ih hcs, allParts]
    · rfl
    · exact hc

theorem anyForms_of_plain {cs : List Condition} (h : ∀ c ∈ cs, ∀ ds, leastForm F c ≠ .any ds) :
    anyForms F cs = cs.map (leastForm F) := by
  induction cs with
  | nil => rfl
  | cons c cs ih =>
    obtain ⟨hc, hcs⟩ := List.forall_mem_cons.1 h
    rw [anyForms, List.flatMap_cons, ← anyForms, ih hcs, anyParts]
    · rfl
    · exact hc

theorem eq_of_mem_least {l : List Condition} (h : ∀ x ∈ l, ∀ y ∈ l, x.beq y = true) :
    ∀ x ∈ least (sortKey F) beq l, ∀ y ∈ least (sortKey F) beq l, x = y := by
  intro x hx y hy
  obtain ⟨hxl, hxmin⟩ := (mem_least (sortKey_injective F)).1 hx
  obtain ⟨hyl, hymin⟩ := (mem_least (sortKey_injective F)).1 hy
  exact sortKey_injective F (le_antisymm (hxmin y hyl (h y hyl x hxl)) (hymin x hxl (h x hxl y hyl)))

/-- Some of the operands of a level that is not contiguous, taken apart, change what it is reduced
to. -/
theorem exists_group {cs : List Condition} (hp : ∀ c ∈ cs, Primitive c)
    (hnot : ¬ Contiguous (sortKey F) beq (cs.map (leastForm F))) :
    ∃ group rest, cs.Perm (group ++ rest) ∧
      (∀ x ∈ group.map (leastForm F), ∀ y ∈ group.map (leastForm F), x.beq y = true) ∧
      (sortAndDedup F (cs.map (leastForm F))).length ≠ 1 ∧
      sortAndDedup F (least (sortKey F) beq (group.map (leastForm F)) ++ rest.map (leastForm F)) ≠
        sortAndDedup F (cs.map (leastForm F)) := by
  have hforms : ∀ x ∈ cs.map (leastForm F), Primitive x :=
    List.forall_mem_map.2 fun c hc => (hp c hc).leastForm
  obtain ⟨a, ha, hmany, hne⟩ :=
    exists_regrouped (sortKey_injective F) (sameOn_of_primitive hforms) hnot
  let group := cs.filter fun c => (leastForm F c).beq a
  let rest := cs.filter fun c => !(leastForm F c).beq a
  have hsame : ∀ x ∈ group.map (leastForm F), x.beq a = true :=
    List.forall_mem_map.2 fun c hc => (List.mem_filter.1 hc).2
  have hgroup : ∀ x ∈ group.map (leastForm F), ∀ y ∈ group.map (leastForm F), x.beq y = true :=
    fun x hx y hy => beq_trans x a y (hsame x hx)
      (beq_symm y a (hforms y (List.map_subset _ List.filter_sublist.subset hy)) (hsame y hy))
  refine ⟨group, rest, (List.filter_append_perm _ cs).symm, hgroup, fun hlen => ?_, ?_⟩
  · exact (List.length_eq_one_iff.1 hlen).elim hmany
  · have hrest : rest.map (leastForm F) = (cs.map (leastForm F)).filter fun x => !x.beq a := by
      rw [List.filter_map]
      rfl
    rw [hrest]
    exact hne _ (eq_of_mem_least hgroup)

/-- **An `all` whose outermost level alone is not settled has two canonical forms**, if its operands
stand alone. -/
theorem exists_rearranged_all {cs : List Condition} (hp : ∀ c ∈ cs, Primitive c)
    (hcs : ∀ c ∈ cs, Settled F c) (hplain : ∀ c ∈ cs, ∀ ds, c ≠ .all ds ∧ leastForm F c ≠ .all ds)
    (hnot : ¬ Contiguous (sortKey F) beq (allOperands F cs)) :
    ∃ c', Rearranged (.all cs) c' ∧ canonicalized F c' ≠ canonicalized F (.all cs) := by
  have hforms {ds : List Condition} (hds : ds ⊆ cs) : allForms F ds = ds.map (leastForm F) :=
    allForms_of_plain fun c hc es => (hplain c (hds hc) es).2
  have hoperands {ds : List Condition} (hds : ds ⊆ cs) :
      allOperands F ds = ds.map (leastForm F) := by
    rw [allOperands_of_plain fun c hc es => (hplain c (hds hc) es).1, hforms hds]
  rw [hoperands (List.Subset.refl cs)] at hnot
  obtain ⟨group, rest, hperm, hsame, hmany, hne⟩ := exists_group hp hnot
  have hsub (c : Condition) (hc : c ∈ group ++ rest) : c ∈ cs := hperm.mem_iff.2 hc
  have hgroup : group ⊆ cs := fun c hc => hsub c (List.mem_append_left _ hc)
  have hrest : rest ⊆ cs := fun c hc => hsub c (List.mem_append_right _ hc)
  have hsettled : Settled F (.all group) := by
    refine settled_all.2 ⟨fun c hc => hcs c (hgroup hc), ?_⟩
    rw [hoperands hgroup]
    exact fun x hx y _ z hz _ _ _ => hsame z hz x hx
  have hlevel : allForms F (.all group :: rest) =
      least (sortKey F) beq (group.map (leastForm F)) ++ rest.map (leastForm F) := by
    rw [allForms, List.flatMap_cons, ← allForms, hforms hrest, leastForm_all_forms, hforms hgroup,
      allParts_collapseAll fun x hx => allForms_flat ((hforms hgroup).symm ▸
        least_subset_sortKey _ hx)]
  have hflat : canonicalized F (.all cs) = .all (sortAndDedup F (cs.map (leastForm F))) := by
    rw [canonicalized_all_forms fun c hc => canonicalized_eq_leastForm (hp c hc) (hcs c hc),
      hforms (List.Subset.refl cs), collapseAll_eq_self hmany]
  have hgrouped : canonicalized F (.all (.all group :: rest)) =
      collapseAll (sortAndDedup F (allForms F (.all group :: rest))) :=
    canonicalized_all_forms (List.forall_mem_cons.2
      ⟨canonicalized_eq_leastForm (.all fun c hc => hp c (hgroup hc)) hsettled, fun c hc =>
        canonicalized_eq_leastForm (hp c (hrest hc)) (hcs c (hrest hc))⟩)
  refine ⟨.all (.all group :: rest), ?_, fun heq => ?_⟩
  · exact (Rearranged.allPerm hperm).trans (.symm (.allGroup group rest))
  rw [hflat, hgrouped] at heq
  unfold collapseAll at heq
  split at heq
  · rename_i c hc
    have hmem : c ∈ allForms F (.all group :: rest) :=
      sortAndDedup_subset F _ (hc ▸ List.mem_cons_self)
    exact allForms_flat hmem _ heq
  · have hlists := Condition.all.inj heq
    rw [hlevel] at hlists
    exact hne hlists

/-- **The same of an `any`** without a true operand. -/
theorem exists_rearranged_any {cs : List Condition} (hp : ∀ c ∈ cs, Primitive c)
    (hcs : ∀ c ∈ cs, Settled F c) (htrue : ∀ c ∈ cs, leastForm F c ≠ .all [])
    (hplain : ∀ c ∈ cs, ∀ ds, c ≠ .any ds ∧ leastForm F c ≠ .any ds)
    (hnot : ¬ Contiguous (sortKey F) beq (anyOperands F cs)) :
    ∃ c', Rearranged (.any cs) c' ∧ canonicalized F c' ≠ canonicalized F (.any cs) := by
  have hforms {ds : List Condition} (hds : ds ⊆ cs) : anyForms F ds = ds.map (leastForm F) :=
    anyForms_of_plain fun c hc es => (hplain c (hds hc) es).2
  have hoperands {ds : List Condition} (hds : ds ⊆ cs) :
      anyOperands F ds = ds.map (leastForm F) := by
    rw [anyOperands_of_plain fun c hc es => (hplain c (hds hc) es).1, hforms hds]
  have hfree {ds : List Condition} (hds : ds ⊆ cs) : .all [] ∉ ds.map (leastForm F) := by
    rw [List.mem_map]
    exact fun ⟨c, hc, hc'⟩ => htrue c (hds hc) hc'
  rw [hoperands (List.Subset.refl cs)] at hnot
  obtain ⟨group, rest, hperm, hsame, hmany, hne⟩ := exists_group hp hnot
  have hsub (c : Condition) (hc : c ∈ group ++ rest) : c ∈ cs := hperm.mem_iff.2 hc
  have hgroup : group ⊆ cs := fun c hc => hsub c (List.mem_append_left _ hc)
  have hrest : rest ⊆ cs := fun c hc => hsub c (List.mem_append_right _ hc)
  have hsettled : Settled F (.any group) := by
    refine settled_any.2 (.inr ⟨fun c hc => hcs c (hgroup hc), ?_⟩)
    rw [hoperands hgroup]
    exact fun x hx y _ z hz _ _ _ => hsame z hz x hx
  have hlevel : anyForms F (.any group :: rest) =
      least (sortKey F) beq (group.map (leastForm F)) ++ rest.map (leastForm F) := by
    rw [anyForms, List.flatMap_cons, ← anyForms, hforms hrest, leastForm_any_forms (hfree hgroup),
      hforms hgroup, anyParts_collapseAny fun x hx => (anyForms_flat (hfree hgroup)
        (by rw [hforms hgroup]; exact least_subset_sortKey _ hx)).2]
  have hfree_level : .all [] ∉ (Condition.any group :: rest).map (leastForm F) := by
    rw [List.map_cons, List.mem_cons, not_or]
    refine ⟨fun h => ?_, hfree hrest⟩
    obtain ⟨c, hc, hc'⟩ := leastForm_any_eq_true.1 h.symm
    exact htrue c (hgroup hc) hc'
  have hflat : canonicalized F (.any cs) = .any (sortAndDedup F (cs.map (leastForm F))) := by
    rw [canonicalized_any_forms (fun c hc => canonicalized_eq_leastForm (hp c hc) (hcs c hc))
      (hfree (List.Subset.refl cs)), hforms (List.Subset.refl cs), collapseAny_eq_self hmany]
  have hgrouped : canonicalized F (.any (.any group :: rest)) =
      collapseAny (sortAndDedup F (anyForms F (.any group :: rest))) :=
    canonicalized_any_forms (List.forall_mem_cons.2
      ⟨canonicalized_eq_leastForm (.any fun c hc => hp c (hgroup hc)) hsettled, fun c hc =>
        canonicalized_eq_leastForm (hp c (hrest hc)) (hcs c (hrest hc))⟩) hfree_level
  refine ⟨.any (.any group :: rest), ?_, fun heq => ?_⟩
  · exact (Rearranged.anyPerm hperm).trans (.symm (.anyGroup group rest))
  rw [hflat, hgrouped] at heq
  unfold collapseAny at heq
  split at heq
  · rename_i c hc
    have hmem : c ∈ anyForms F (.any group :: rest) :=
      sortAndDedup_subset F _ (hc ▸ List.mem_cons_self)
    exact (anyForms_flat hfree_level hmem).2 _ heq
  · have hlists := Condition.any.inj heq
    rw [hlevel] at hlists
    exact hne hlists

variable (F) in
/-- The operands of the outermost level are settled, stand alone, and are not true under an `any`. -/
def OperandsSettled : Condition → Prop
  | .all cs => ∀ c ∈ cs, Settled F c ∧ ∀ ds, c ≠ .all ds ∧ leastForm F c ≠ .all ds
  | .any cs => ∀ c ∈ cs, Settled F c ∧ leastForm F c ≠ .all [] ∧
      ∀ ds, c ≠ .any ds ∧ leastForm F c ≠ .any ds
  | c => Settled F c

theorem exists_rearranged_of_not_settled {c : Condition} (hp : Primitive c)
    (hops : OperandsSettled F c) (hnot : ¬ Settled F c) :
    ∃ c', Rearranged c c' ∧ canonicalized F c' ≠ canonicalized F c := by
  cases c with
  | all cs =>
    have hcs : ∀ c ∈ cs, Settled F c := fun c hc => (hops c hc).1
    exact exists_rearranged_all (primitive_all.1 hp) hcs (fun c hc => (hops c hc).2)
      fun h => hnot (settled_all.2 ⟨hcs, h⟩)
  | any cs =>
    have hcs : ∀ c ∈ cs, Settled F c := fun c hc => (hops c hc).1
    exact exists_rearranged_any (primitive_any.1 hp) hcs (fun c hc => (hops c hc).2.1)
      (fun c hc => (hops c hc).2.2) fun h => hnot (settled_any.2 (.inr ⟨hcs, h⟩))
  | not | eq | isIn | defined => exact absurd hops hnot

end Least

/-- **Canonicalization preserves the meaning, is idempotent, and gives rearrangements of a settled
condition one canonical form**: of a condition with settled operands exactly if it is settled. -/
theorem canonicalized_rearranged (F : FloatText) (c : Condition) (hp : Primitive c) :
    (∀ env, holds env (canonicalized F c) = holds env c) ∧
    canonicalized F (canonicalized F c) = canonicalized F c ∧
    (Settled F c → ∀ c', Rearranged c c' → canonicalized F c' = canonicalized F c) ∧
    (OperandsSettled F c → (∀ c', Rearranged c c' → canonicalized F c' = canonicalized F c) →
      Settled F c) := by
  refine ⟨fun env => holds_canonicalized env hp, canonicalized_idem F c, fun hs c' hr => ?_,
    fun hops h => by_contra fun hnot => ?_⟩
  · have halike : Alike F c c' := hr.alike hp
    calc canonicalized F c' = leastForm F c' :=
          canonicalized_eq_leastForm (hr.primitive.1 hp) (halike.settled.1 hs)
      _ = leastForm F c := halike.leastForm.symm
      _ = canonicalized F c := (canonicalized_eq_leastForm hp hs).symm
  · obtain ⟨c', hr, hne⟩ := exists_rearranged_of_not_settled hp hops hnot
    exact hne (h c' hr)

/-- Two conditions that `==` calls equal, and one whose text is between theirs. -/
def zeros : List Condition :=
  [.eq "key" (.number (.float .negZero)), .eq "key" (.number (.float .zero))]

def minusOne : Condition := .eq "key" (.number (.int (-1)))

/-- The zeros stand together where they share a level with `Defined` only, and under an `any` with a
true operand their level has no say. -/
theorem canonicalized_rearranged_zeros :
    canonicalized .plain (.all [.all zeros, .any [.all [], .any (minusOne :: zeros)]]) =
      canonicalized .plain (.all (zeros ++ [.any [.all [], .any (minusOne :: zeros)]])) := by
  have hp : Primitive (.all [.all zeros, .any [.all [], .any (minusOne :: zeros)]]) :=
    .of_validate rfl
  have htrue : Settled .plain (.any [.all [], .any (minusOne :: zeros)]) := by
    refine settled_any.2 (.inl ⟨.all [], List.mem_cons_self, settled_all.2 ⟨by simp, ?_⟩, rfl⟩)
    exact fun a ha => nomatch ha
  have hzeros : allOperands .plain zeros = zeros := rfl
  have hcontiguous : Contiguous (sortKey .plain) beq zeros := by
    intro a ha b hb c hc hab hac hcb
    simp only [zeros, List.mem_cons, List.not_mem_nil, or_false] at ha hb hc
    rcases ha with rfl | rfl <;> rcases hc with rfl | rfl <;> rfl
  have hs : Settled .plain (.all [.all zeros, .any [.all [], .any (minusOne :: zeros)]]) := by
    refine settled_all.2 ⟨?_, ?_⟩
    · refine List.forall_mem_cons.2 ⟨settled_all.2 ⟨?_, hcontiguous⟩, List.forall_mem_singleton.2 htrue⟩
      simp [zeros, Settled]
    · exact hcontiguous
  exact ((canonicalized_rearranged .plain _ hp).2.2.1 hs _ (.allGroup zeros _)).symm

/-- As a group the zeros collapse to the first one. Among the operands of the surrounding `all`
`-1` stands between them, and both stay. -/
theorem canonicalized_regrouped :
    validate (.all [.all zeros, minusOne]) = .ok () ∧
    Rearranged (.all [.all zeros, minusOne]) (.all (zeros ++ [minusOne])) ∧
    canonicalized .plain (.all [.all zeros, minusOne]) ≠
      canonicalized .plain (.all (zeros ++ [minusOne])) := by
  refine ⟨rfl, .allGroup zeros [minusOne], ?_⟩
  have hgrouped : canonicalized .plain (.all [.all zeros, minusOne]) =
      .all [.eq "key" (.number (.float .negZero)), minusOne] := rfl
  have hflat : canonicalized .plain (.all (zeros ++ [minusOne])) =
      .all [.eq "key" (.number (.float .negZero)), minusOne,
        .eq "key" (.number (.float .zero))] := rfl
  rw [hgrouped, hflat]
  simp

end Condition

end Protocol
