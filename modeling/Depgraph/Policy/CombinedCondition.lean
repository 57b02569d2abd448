import Depgraph.Library.OrderedMap
import Depgraph.Policy.ConditionKeys

/-!
# The combined condition of some edges

`policy_engine.rs`: `combined_condition_bounded` and `validate_combined_condition_depth_bounded`.
The canonical forms of the conditions are gathered by their texts, put under one `all`,
canonicalized again and refused if their operators nest too deeply.

* `drains_depth`: the check fails exactly when more than 16 operators nest.
* `combinedForm_eq`: gathering the forms of the conditions before changes nothing
  (`Keyed.keyedForm_eq_self`).
* `combinedConditionBounded_spec`: what is not refused is the conjunction of the conditions.
-/

namespace Policy

open Json Protocol Protocol.Condition Charged Drain SortDedup OrderedMap Fallible Std

section Combined

variable (F : FloatText)

/-! ### The depth -/

/-- The message about the nesting of a combined condition. -/
def depthExceeded : String :=
  "combined policy condition exceeds the maximum logical nesting depth"

/-- Visits the operands of an operator at a depth. -/
def visitOperands (depth cost : Nat) (operands : List PolicyCondition) :
    PolicyWork (List (PolicyCondition × Nat) × Unit) :=
  if 16 ≤ depth then stop (.failed depthExceeded)
  else do
    steps cost
    return (operands.map fun child => (child, saturatingAdd depth 1), ())

/-- One turn of the loop of `validate_combined_condition_depth_bounded`. -/
def depthTurn : PolicyCondition × Nat → Unit → PolicyWork (List (PolicyCondition × Nat) × Unit)
  | (condition, depth), _ => do
    step
    match condition with
    | .all conditions | .any conditions => visitOperands depth conditions.length conditions
    | .not condition => visitOperands depth 0 [condition]
    | _ => return ([], ())

def validateCombinedConditionDepthBounded (fuel : Nat) (condition : PolicyCondition) :
    PolicyWork Unit :=
  drain (fun _ => depthTurn) fuel [(condition, 0)] ()

/-- One turn of the loop of `combined_condition_bounded`. -/
def collectCondition (fuel : Nat) (conditions : ExtTreeMap String PolicyCondition)
    (condition : PolicyCondition) : PolicyWork (ExtTreeMap String PolicyCondition) := do
  step
  let condition ← canonicalConditionBounded F fuel condition
  let key ← conditionSortKeyBounded F fuel condition
  chargeOrderedCollectionWork conditions.size (String.ofList key).utf8ByteSize
  return conditions.insert (String.ofList key) condition

/-- `combined_condition_bounded`, on the conditions of the edges. -/
def combinedConditionBounded (fuel : Nat) (edges : List PolicyCondition) :
    PolicyWork PolicyCondition := do
  let conditions ← edges.foldlM (collectCondition F fuel) ∅
  steps conditions.size
  let condition ← canonicalConditionBounded F fuel (.all (values conditions))
  validateCombinedConditionDepthBounded fuel condition
  return condition

mutual

/-- How deep the operators of a condition nest. -/
def nesting : PolicyCondition → Nat
  | .all conditions => nestingOfEach conditions + 1
  | .any conditions => nestingOfEach conditions + 1
  | .not condition => nesting condition + 1
  | .eq _ _ | .isIn _ _ | .defined _ => 0

def nestingOfEach : List PolicyCondition → Nat
  | [] => 0
  | condition :: conditions => max (nesting condition) (nestingOfEach conditions)

end

/-- What the check of the depth says of conditions at a depth. -/
def depthResult (depth : Nat) : Except (Stop String) Unit :=
  if depth ≤ 16 then .ok () else .error (.failed depthExceeded)

theorem drains_depthOfEach {conditions : List PolicyCondition} {depth : Nat}
    (h : ∀ c ∈ conditions, Drains (fun _ => depthTurn) [(c, depth)] ()
      (depthResult (depth + nesting c))) (hdepth : depth ≤ 16) :
    Drains (fun _ => depthTurn) (conditions.map fun c => (c, depth)) ()
      (depthResult (depth + nestingOfEach conditions)) := by
  induction conditions with
  | nil =>
    rw [nestingOfEach, Nat.add_zero, depthResult, if_pos hdepth]
    exact Drains.nil ()
  | cons c conditions ih =>
    have hc := h c List.mem_cons_self
    have hrest := ih fun c hc => h c (List.mem_cons_of_mem _ hc)
    by_cases hle : depth + nesting c ≤ 16
    · rw [depthResult, if_pos hle] at hc
      have hmax : depthResult (depth + nestingOfEach (c :: conditions)) =
          depthResult (depth + nestingOfEach conditions) := by
        simp only [depthResult, nestingOfEach]
        congr 1
        exact propext (by omega)
      rw [hmax]
      exact Drains.cons hc hrest
    · rw [depthResult, if_neg hle] at hc
      have hmax : depthResult (depth + nestingOfEach (c :: conditions)) =
          .error (.failed depthExceeded) := by
        rw [depthResult, nestingOfEach, if_neg (by omega)]
      rw [hmax]
      exact Drains.cons_error hc

/-- An operator whose operands are visited. -/
theorem drains_operator {condition : PolicyCondition} {operands : List PolicyCondition}
    {depth cost : Nat} (hnesting : nesting condition = nestingOfEach operands + 1)
    (hturn : depthTurn (condition, depth) () = step >>= fun _ => visitOperands depth cost operands)
    (h : depth + 1 ≤ 16 → ∀ c ∈ operands, Drains (fun _ => depthTurn) [(c, depth + 1)] ()
      (depthResult (depth + 1 + nesting c))) :
    Drains (fun _ => depthTurn) [(condition, depth)] ()
      (depthResult (depth + nesting condition)) := by
  rw [hnesting]
  by_cases hle : 16 ≤ depth
  · rw [depthResult, if_neg (by omega)]
    refine Drains.stops (.of_charges ?_)
    rw [hturn, visitOperands, if_pos hle]
    exact Charges.step.bind (Charges.stop _)
  · have hnext : saturatingAdd depth 1 = depth + 1 := by
      simp only [saturatingAdd, usizeMax]
      omega
    have hsum : depth + (nestingOfEach operands + 1) = depth + 1 + nestingOfEach operands := by
      omega
    rw [hsum]
    refine Drains.pushes (.of_charges ?_) (drains_depthOfEach (h (by omega)) (by omega))
    rw [hturn, visitOperands, if_neg hle, hnext]
    exact Charges.step.bind ((Charges.steps _).bind (Charges.pure _))

/-- **The check of the depth fails exactly when the operators nest too deeply.** -/
theorem drains_depth (condition : PolicyCondition) {depth : Nat} (hdepth : depth ≤ 16) :
    Drains (fun _ => depthTurn) [(condition, depth)] ()
      (depthResult (depth + nesting condition)) := by
  induction condition using Condition.ind generalizing depth with
  | all conditions ih => exact drains_operator rfl rfl fun h c hc => ih c hc h
  | any conditions ih => exact drains_operator rfl rfl fun h c hc => ih c hc h
  | not condition ih =>
    have hnesting : nesting (.not condition) = nestingOfEach [condition] + 1 := by
      rw [nesting, nestingOfEach, nestingOfEach, Nat.max_zero]
    refine drains_operator hnesting rfl fun h c hc => ?_
    rw [List.mem_singleton.1 hc]
    exact ih h
  | eq | isIn | defined =>
    rw [nesting, Nat.add_zero, depthResult, if_pos hdepth]
    exact Drains.done (.of_charges (Charges.step.bind (Charges.pure _)))

/-! ### The combined condition -/

/-- The canonical forms of conditions by their texts. -/
def collectForms (conditions : ExtTreeMap String PolicyCondition) :
    List PolicyCondition → Except (Stop String) (ExtTreeMap String PolicyCondition)
  | [] => .ok conditions
  | condition :: rest => do
    let form ← keyedForm F condition
    collectForms (conditions.insert (String.ofList (sortKey F form)) form) rest

theorem settles_collectCondition (edges : List PolicyCondition)
    (conditions : ExtTreeMap String PolicyCondition) :
    Settles (fun fuel => edges.foldlM (collectCondition F fuel) conditions)
      (collectForms F conditions edges) := by
  induction edges generalizing conditions with
  | nil => exact Settles.of_charges (Charges.pure _)
  | cons edge edges ih =>
    have hturn : Settles (fun fuel => collectCondition F fuel conditions edge)
        ((keyedForm F edge).map fun form =>
          conditions.insert (String.ofList (sortKey F form)) form) := by
      have hform := settles_canonicalCondition F edge
      refine Settles.bind (f := fun fuel _ => do
        let condition ← canonicalConditionBounded F fuel edge
        let key ← conditionSortKeyBounded F fuel condition
        chargeOrderedCollectionWork conditions.size (String.ofList key).utf8ByteSize
        return conditions.insert (String.ofList key) condition) (.of_charges Charges.step) ?_
      cases h : keyedForm F edge with
      | error e =>
        rw [h] at hform
        exact Settles.bind_error hform
      | ok form =>
        rw [h] at hform
        exact hform.bind ((settles_conditionSortKey F form).bind (.of_charges
          ((charges_orderedCollectionWork _ _).bind (Charges.pure _))))
    simp only [List.foldlM_cons]
    rw [collectForms]
    cases h : keyedForm F edge with
    | error e =>
      rw [h] at hturn
      exact Settles.bind_error hturn
    | ok form =>
      rw [h] at hturn
      exact hturn.bind (ih _)

/-- The combined condition of conditions. -/
def combinedForm (edges : List PolicyCondition) : Except (Stop String) PolicyCondition := do
  let conditions ← collectForms F ∅ edges
  let form ← keyedForm F (.all (values conditions))
  depthResult (nesting form)
  return form

theorem settles_combinedCondition (edges : List PolicyCondition) :
    Settles (fun fuel => combinedConditionBounded F fuel edges) (combinedForm F edges) := by
  have hcollect := settles_collectCondition F edges ∅
  rw [combinedForm]
  cases h : collectForms F ∅ edges with
  | error e =>
    rw [h] at hcollect
    exact Settles.bind_error hcollect
  | ok conditions =>
    rw [h] at hcollect
    refine hcollect.bind (Settles.bind (f := fun fuel _ => do
      let condition ← canonicalConditionBounded F fuel (.all (values conditions))
      validateCombinedConditionDepthBounded fuel condition
      return condition) (.of_charges (Charges.steps _)) ?_)
    have hform := settles_canonicalCondition F (.all (values conditions))
    change Settles _ (keyedForm F (.all (values conditions)) >>= _)
    cases h : keyedForm F (.all (values conditions)) with
    | error e =>
      rw [h] at hform
      exact Settles.bind_error hform
    | ok form =>
      rw [h] at hform
      refine hform.bind ?_
      have hdepth := (drains_depth form (Nat.zero_le 16)).settles
      rw [Nat.zero_add] at hdepth
      change Settles _ (depthResult (nesting form) >>= _)
      cases h : depthResult (nesting form) with
      | error e =>
        rw [h] at hdepth
        exact Settles.bind_error hdepth
      | ok =>
        rw [h] at hdepth
        exact hdepth.bind (.of_charges (Charges.pure _))

variable {F}

theorem collectForms_values {edges : List PolicyCondition}
    {conditions gathered : ExtTreeMap String PolicyCondition}
    (hkeyed : KeyedBy (fun form => String.ofList (sortKey F form)) conditions)
    (h : collectForms F conditions edges = .ok gathered) (form : PolicyCondition) :
    form ∈ values gathered ↔
      form ∈ values conditions ∨ ∃ edge ∈ edges, keyedForm F edge = .ok form := by
  induction edges generalizing conditions with
  | nil =>
    cases h
    simp
  | cons edge edges ih =>
    rw [collectForms] at h
    obtain ⟨first, hfirst, hrest⟩ := bind_eq_ok.1 h
    have hinsert : form ∈ values (conditions.insert (String.ofList (sortKey F first)) first) ↔
        form ∈ values conditions ∨ keyedForm F edge = .ok form := by
      rw [mem_values, mem_values, hfirst, Except.ok.injEq]
      constructor
      · rintro ⟨key, hkey⟩
        rw [getElem?_insert] at hkey
        split_ifs at hkey
        · exact Or.inr (Option.some.inj hkey)
        · exact Or.inl ⟨key, hkey⟩
      · rintro (⟨key, hkey⟩ | rfl)
        · by_cases heq : key = String.ofList (sortKey F first)
          · have hsame : form = first := by
              refine sortKey_injective F (String.ofList_injective ?_)
              rw [← heq]
              exact hkeyed key form hkey
            exact ⟨key, by rw [getElem?_insert, if_pos heq, hsame]⟩
          · exact ⟨key, by rw [getElem?_insert, if_neg heq, hkey]⟩
        · exact ⟨_, by rw [getElem?_insert, if_pos rfl]⟩
    rw [ih hkeyed.insert hrest, hinsert, List.exists_mem_cons_iff, or_assoc]

theorem collectForms_ok {edges forms : List PolicyCondition}
    {conditions : ExtTreeMap String PolicyCondition} (h : keyedForms F edges = .ok forms) :
    ∃ gathered, collectForms F conditions edges = .ok gathered := by
  induction edges generalizing conditions forms with
  | nil => exact ⟨conditions, rfl⟩
  | cons edge edges ih =>
    rw [keyedForms] at h
    obtain ⟨form, hform, h⟩ := bind_eq_ok.1 h
    obtain ⟨rest, hrest, -⟩ := bind_eq_ok.1 h
    rw [collectForms, hform]
    exact ih hrest

theorem collectForms_error {edges : List PolicyCondition}
    {conditions : ExtTreeMap String PolicyCondition} {e : Stop String}
    (h : keyedForms F edges = .error e) : collectForms F conditions edges = .error e := by
  induction edges generalizing conditions with
  | nil => cases h
  | cons edge edges ih =>
    rw [keyedForms] at h
    rw [collectForms]
    obtain hform | ⟨form, hform, h⟩ := bind_eq_error.1 h
    · rw [hform]
      rfl
    · rw [hform]
      obtain hrest | ⟨rest, -, h⟩ := bind_eq_error.1 h
      · exact ih hrest
      · cases h

/-- Operators are canonicalized alike if they have the same operands. -/
theorem canonicalizeAll_exact_congr {forms forms' : List PolicyCondition}
    (h : ∀ form, form ∈ forms ↔ form ∈ forms') :
    canonicalizeAll (exact (sortKey F)) forms = canonicalizeAll (exact (sortKey F)) forms' := by
  have hflat (form : PolicyCondition) : form ∈ flattenAll forms ↔ form ∈ flattenAll forms' := by
    simp only [mem_flattenAll, h]
  rw [canonicalizeAll, canonicalizeAll, exact_congr (sortKey_injective F) hflat]

/-- The forms are gathered exactly if all conditions have one, and their conjunction has the form of
the conjunction of the conditions. -/
theorem collectForms_eq (edges : List PolicyCondition) :
    (∃ e, collectForms F ∅ edges = .error e ∧ keyedForm F (.all edges) = .error e) ∨
      ∃ conditions, collectForms F ∅ edges = .ok conditions ∧
        keyedForm F (.all (values conditions)) = keyedForm F (.all edges) := by
  have hempty : KeyedBy (fun form => String.ofList (sortKey F form))
      (∅ : ExtTreeMap String PolicyCondition) := fun key form hkey => by simp at hkey
  cases hforms : keyedForms F edges with
  | error e =>
    refine .inl ⟨e, collectForms_error hforms, ?_⟩
    rw [keyedForm, hforms]
    rfl
  | ok forms =>
    obtain ⟨conditions, hconditions⟩ : ∃ conditions, collectForms F ∅ edges = .ok conditions :=
      collectForms_ok hforms
    have hmem (form : PolicyCondition) : form ∈ values conditions ↔ form ∈ forms := by
      rw [collectForms_values hempty hconditions, mem_keyedForms hforms, or_iff_right]
      intro hform
      obtain ⟨key, hkey⟩ := mem_values.1 hform
      simp at hkey
    have hself : ∀ form ∈ values conditions, keyedForm F form = .ok form := fun form hform =>
      (forall_keyedForms (fun _ _ _ => keyedForm_keyed) hforms form
        ((hmem form).1 hform)).keyedForm_eq_self
    refine .inr ⟨conditions, hconditions, ?_⟩
    rw [keyedForm, keyedForm, keyedForms_eq_self hself, hforms]
    exact congrArg Except.ok (canonicalizeAll_exact_congr hmem)

/-- The combined condition is the form of the conjunction, if that does not nest too deeply. -/
theorem combinedForm_eq (edges : List PolicyCondition) :
    combinedForm F edges =
      keyedForm F (.all edges) >>= fun form => (depthResult (nesting form)).map fun _ => form := by
  rw [combinedForm]
  obtain ⟨e, hcollect, hall⟩ | ⟨conditions, hcollect, hall⟩ := collectForms_eq (F := F) edges
  · rw [hcollect, hall]
    rfl
  · rw [hcollect, ← hall]
    rfl

theorem valuesPrimitive_all (edges : List PolicyCondition) :
    valuesPrimitive (.all edges) = edges.all valuesPrimitive := by
  rw [valuesPrimitive]
  induction edges with
  | nil => rfl
  | cons edge edges ih => rw [valuesPrimitiveEach, ih, List.all_cons]

variable (F) in
/-- **The loops of `combined_condition_bounded` end.** The result is the canonical form of the
conjunction of the conditions, and is true, false or unknown where the conjunction is. It is refused
exactly when a value of an `in` is not primitive, or else when that form nests more than 16
operators. -/
theorem combinedConditionBounded_spec (edges : List PolicyCondition) :
    ∃ form, Settles (fun fuel => combinedConditionBounded F fuel edges)
        (if edges.all valuesPrimitive then
          if nesting form ≤ 16 then .ok form else .error (.failed depthExceeded)
        else .error (.failed "edge condition value must be a JSON primitive")) ∧
      (edges.all valuesPrimitive = true →
        Settles (fun fuel => canonicalConditionBounded F fuel (.all edges)) (.ok form) ∧
        ∀ edgeSemantics context, evaluateBy edgeSemantics context form =
          Kleene.all (edges.map (evaluateBy edgeSemantics context))) := by
  obtain ⟨form, hform⟩ := keyedForm_formOr (F := F) (.all edges)
  rw [valuesPrimitive_all, formOr] at hform
  refine ⟨form, ?_, fun hprimitive => ?_⟩
  · have hsettles := settles_combinedCondition F edges
    rw [combinedForm_eq, hform] at hsettles
    convert hsettles using 1
    cases edges.all valuesPrimitive with
    | false => rfl
    | true =>
      change _ = (depthResult (nesting form)).map fun _ => form
      rw [if_pos rfl, depthResult]
      split_ifs <;> rfl
  · rw [if_pos hprimitive] at hform
    refine ⟨hform ▸ settles_canonicalCondition F (.all edges), fun edgeSemantics context => ?_⟩
    rw [evaluateBy_keyedForm hform, evaluateBy_all]

end Combined

end Policy
