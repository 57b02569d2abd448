import Depgraph.Library.Drain
import Depgraph.Policy.Condition
import Depgraph.Policy.Work

/-!
# Conditions on an explicit stack

`policy_engine.rs`: `evaluate_condition_bounded_inner` and `add_condition_facts_bounded`, which walk a
condition with a stack of frames and charge for every step. With enough turns they charge a number of
steps and have the result of the recursive functions.

The fuel bounds the number of turns only; `none` says that it did not last.
-/

namespace Policy

open Json Protocol Charged Drain

/-! ### Lookups -/

def lookupContextBounded (context : Context) (key : String) : PolicyWork (Option Value) := do
  steps (saturatingAdd key.utf8ByteSize 1)
  match context[key]? with
  | some value => return some value
  | none =>
    match splitAt '.' key with
    | [] => return none
    | first :: segments =>
      segments.foldlM (fun value segment => do
        steps (saturatingAdd segment.utf8ByteSize 1)
        return value.bind (·.member segment)) context[first]?

def conditionValuesEqualBounded (left right : Value) : PolicyWork Bool := do
  chargeConditionValueWork left
  chargeConditionValueWork right
  return conditionValuesEqual left right

/-- The loop over the values of `in`, which ends at the first match. -/
def anyValueEqualBounded (actual : Value) : List Value → PolicyWork Bool
  | [] => return false
  | value :: values => do
    if ← conditionValuesEqualBounded actual value then
      return true
    anyValueEqualBounded actual values

theorem charges_lookupContext (context : Context) (key : String) :
    Charges (lookupContextBounded context key) (.ok (lookupContext context key)) := by
  unfold lookupContextBounded lookupContext
  refine (Charges.steps _).bind ?_
  cases context[key]? with
  | some value => exact Charges.pure _
  | none =>
    cases splitAt '.' key with
    | nil => exact Charges.pure _
    | cons first segments =>
      exact Charges.foldlM fun value segment _ => (Charges.steps _).bind (Charges.pure _)

theorem charges_conditionValuesEqual (left right : Value) :
    Charges (conditionValuesEqualBounded left right) (.ok (conditionValuesEqual left right)) :=
  (charges_conditionValueWork left).bind
    ((charges_conditionValueWork right).bind (Charges.pure _))

theorem charges_anyValueEqual (actual : Value) (values : List Value) :
    Charges (anyValueEqualBounded actual values)
      (.ok (values.any (conditionValuesEqual actual))) := by
  induction values with
  | nil => exact Charges.pure false
  | cons value values ih =>
    rw [anyValueEqualBounded, List.any_cons]
    refine (charges_conditionValuesEqual actual value).bind ?_
    cases conditionValuesEqual actual value with
    | true => exact Charges.pure true
    | false => exact ih

/-! ### Evaluation -/

/-- The results of the operands of an aggregate that have been seen. -/
structure Seen where
  sawTrue : Bool
  sawFalse : Bool
  sawUnknown : Bool

/-- `ConditionEvalFrame`. -/
inductive EvalFrame where
  | visit (condition : PolicyCondition)
  | aggregate (any : Bool) (conditions : List PolicyCondition) (next : Nat) (awaitingChild : Bool)
    (seen : Seen)
  | not

def Seen.nothing : Seen := ⟨false, false, false⟩

/-- One more result has been seen. -/
def Seen.note (seen : Seen) : Option Bool → Seen
  | some true => { seen with sawTrue := true }
  | some false => { seen with sawFalse := true }
  | none => { seen with sawUnknown := true }

/-- The result of an aggregate whose operands have all been seen. -/
def Seen.result (seen : Seen) (any : Bool) : Option Bool :=
  if any then
    if seen.sawTrue then some true else if seen.sawUnknown then none else some false
  else if seen.sawFalse then some false
  else if seen.sawUnknown then none else some true

/-- The second half of the turn of an aggregate. -/
def evalNext (any : Bool) (conditions : List PolicyCondition) (next : Nat) (seen : Seen)
    (values : List (Option Bool)) : List EvalFrame × List (Option Bool) :=
  match conditions[next]? with
  | some child => ([.visit child, .aggregate any conditions (next + 1) true seen], values)
  | none => ([], seen.result any :: values)

section Evaluate

variable (edgeSemantics : Bool) (context : Context)

/-- One turn of the loop of `evaluate_condition_bounded_inner`. -/
def evalTurn : EvalFrame → List (Option Bool) → PolicyWork (List EvalFrame × List (Option Bool))
  | .visit condition, values => do
    step
    match condition with
    | .all conditions => return ([.aggregate false conditions 0 false .nothing], values)
    | .any conditions => return ([.aggregate true conditions 0 false .nothing], values)
    | .not condition => return ([.visit condition, .not], values)
    | .eq key value =>
      match ← lookupContextBounded context key with
      | some actual => return ([], some (← conditionValuesEqualBounded actual value) :: values)
      | none => return ([], none :: values)
    | .isIn key expected =>
      match ← lookupContextBounded context key with
      | some actual => return ([], some (← anyValueEqualBounded actual expected) :: values)
      | none => return ([], none :: values)
    | .defined key => do
      let value ← lookupContextBounded context key
      return ([], (if edgeSemantics then value.map isPresent else some (value.any isPresent)) :: values)
  | .aggregate any conditions next awaitingChild seen, values =>
    if awaitingChild then
      match values with
      | value :: values => return evalNext any conditions next (seen.note value) values
      | [] => stop (.failed "bounded condition evaluation lost a child")
    else return evalNext any conditions next seen values
  | .not, values =>
    match values with
    | value :: values => return ([], value.map (! ·) :: values)
    | [] => stop (.failed "bounded condition evaluation lost a not child")

/-- The only value that is left. -/
def onlyValue {α : Type} : List α → Option α
  | [value] => some value
  | _ => none

def evaluateConditionBoundedInner (fuel : Nat) (condition : PolicyCondition) :
    PolicyWork (Option Bool) := do
  let values ← drain (fun _ => evalTurn edgeSemantics context) fuel [.visit condition] []
  orStop (.failed "bounded condition evaluation did not produce one result") (onlyValue values)

variable {edgeSemantics context}

theorem Seen.result_foldl (seen : Seen) (values : List (Option Bool)) :
    values.foldl Seen.note seen =
      ⟨seen.sawTrue || values.contains (some true), seen.sawFalse || values.contains (some false),
        seen.sawUnknown || values.contains none⟩ := by
  induction values generalizing seen with
  | nil => simp
  | cons value values ih =>
    rw [List.foldl_cons, ih]
    rcases value with _ | _ | _ <;> simp [Seen.note]

theorem all_beq_of_not_contains {values : List (Option Bool)} {b : Bool}
    (h : values.contains (some !b) = false) :
    (values.all (· == some b)) = !values.contains none := by
  induction values with
  | nil => rfl
  | cons value values ih =>
    rw [List.contains_cons, Bool.or_eq_false_iff] at h
    rw [List.all_cons, ih h.2, List.contains_cons]
    rcases value with _ | value
    · rfl
    · have : value = b := by
        have := h.1
        cases b <;> cases value <;> simp_all
      simp [this]

/-- What has been seen of all operands gives their combination. -/
theorem Seen.result_all (values : List (Option Bool)) :
    (values.foldl Seen.note .nothing).result false = combineAll values := by
  rw [Seen.result_foldl, combineAll]
  simp only [Seen.result, Seen.nothing, Bool.false_or, Bool.false_eq_true, if_false]
  by_cases hfalse : values.contains (some false) = true
  · rw [if_pos hfalse, if_pos hfalse]
  · rw [if_neg hfalse, if_neg hfalse,
      all_beq_of_not_contains (b := true) (Bool.eq_false_iff.2 hfalse)]
    cases values.contains none <;> rfl

theorem Seen.result_any (values : List (Option Bool)) :
    (values.foldl Seen.note .nothing).result true = combineAny values := by
  rw [Seen.result_foldl, combineAny]
  simp only [Seen.result, Seen.nothing, Bool.false_or, if_true]
  by_cases htrue : values.contains (some true) = true
  · rw [if_pos htrue, if_pos htrue]
  · rw [if_neg htrue, if_neg htrue,
      all_beq_of_not_contains (b := false) (Bool.eq_false_iff.2 htrue)]
    cases values.contains none <;> rfl

/-- An aggregate sees its operands one after another. -/
theorem drains_aggregate (any : Bool) {conditions : List PolicyCondition}
    (h : ∀ c ∈ conditions, ∀ values, Drains (fun _ => evalTurn edgeSemantics context) [.visit c] values
      (.ok (evaluateBy edgeSemantics context c :: values))) (values : List (Option Bool)) :
    Drains (fun _ => evalTurn edgeSemantics context) [.aggregate any conditions 0 false .nothing] values
      (.ok (((evaluateEach edgeSemantics context conditions).foldl Seen.note .nothing).result any ::
        values)) := by
  rw [evaluateEach_eq, List.foldl_map]
  refine Drains.children_ok .visit (fun seen c => seen.note (evaluateBy edgeSemantics context c))
    (fun seen => .ok (seen.result any :: values))
    (fun rest seen frame current => ∃ done, conditions = done ++ rest ∧
      evalTurn edgeSemantics context frame current =
        pure (evalNext any conditions done.length seen values)) ?_ ?_ ?_
  · rintro seen frame current ⟨done, rfl, hturn⟩
    refine Drains.done (.of_charges ?_)
    rw [hturn, List.append_nil, evalNext, List.getElem?_length]
    exact Charges.pure _
  · rintro c rest seen frame current ⟨done, hdone, hturn⟩
    refine ⟨.aggregate any conditions (done.length + 1) true seen, values, _, ?_,
      h c (hdone ▸ by simp) values, done ++ [c], ?_, ?_⟩
    · refine Settles.of_charges ?_
      rw [hturn, evalNext, Drains.next_child hdone]
      exact Charges.pure _
    · rw [hdone, List.append_assoc, List.singleton_append]
    · rw [List.length_append, List.length_singleton]
      rfl
  · exact ⟨[], rfl, rfl⟩

/-- **A condition on the stack is replaced by its result.** -/
theorem drains_visit (condition : PolicyCondition) (values : List (Option Bool)) :
    Drains (fun _ => evalTurn edgeSemantics context) [.visit condition] values
      (.ok (evaluateBy edgeSemantics context condition :: values)) := by
  induction condition using Condition.ind generalizing values with
  | all conditions ih =>
    rw [evaluateBy, ← Seen.result_all]
    exact Drains.pushes (.of_charges (Charges.step.bind (Charges.pure _))) (drains_aggregate false ih values)
  | any conditions ih =>
    rw [evaluateBy, ← Seen.result_any]
    exact Drains.pushes (.of_charges (Charges.step.bind (Charges.pure _))) (drains_aggregate true ih values)
  | not condition ih =>
    rw [evaluateBy]
    exact Drains.pushes (.of_charges (Charges.step.bind (Charges.pure _)))
      (Drains.cons (ih values) (Drains.done (.of_charges (Charges.pure _))))
  | eq key value =>
    refine Drains.done (.of_charges (Charges.step.bind ?_))
    rw [evaluateBy]
    refine (charges_lookupContext context key).bind ?_
    cases lookupContext context key with
    | none => exact Charges.pure _
    | some actual => exact (charges_conditionValuesEqual actual value).bind (Charges.pure _)
  | isIn key expected =>
    refine Drains.done (.of_charges (Charges.step.bind ?_))
    rw [evaluateBy]
    refine (charges_lookupContext context key).bind ?_
    cases lookupContext context key with
    | none => exact Charges.pure _
    | some actual => exact (charges_anyValueEqual actual expected).bind (Charges.pure _)
  | defined key =>
    refine Drains.done (.of_charges (Charges.step.bind ?_))
    rw [evaluateBy]
    exact (charges_lookupContext context key).bind (Charges.pure _)

/-- With enough fuel the loop has the result of the recursive function. -/
theorem settles_evaluateConditionBounded (condition : PolicyCondition) :
    Settles (fun fuel => evaluateConditionBoundedInner edgeSemantics context fuel condition)
      (.ok (evaluateBy edgeSemantics context condition)) := by
  have hvisit : Drains (fun _ => evalTurn edgeSemantics context) [.visit condition] []
    (.ok [evaluateBy edgeSemantics context condition]) := drains_visit condition []
  exact hvisit.settles.bind (Settles.of_charges (Charges.pure _))

end Evaluate

/-! ### Facts -/

/-- `ConditionFactsFrame`. -/
inductive FactsFrame where
  | visit (condition : PolicyCondition)
  | all (conditions : List PolicyCondition) (next : Nat)

/-- `context.entry(key).or_insert(value)`, after its charge. -/
def addFactBounded (key : String) (value : Value) (context : Context) : PolicyWork Context := do
  chargeOrderedCollectionWork context.size key.utf8ByteSize
  return context.insertIfNew key value

/-- One turn of the loop of `add_condition_facts_bounded`. -/
def factsTurn : FactsFrame → Context → PolicyWork (List FactsFrame × Context)
  | .visit condition, context => do
    step
    match condition with
    | .all conditions => return ([.all conditions 0], context)
    | .eq key value => do
      steps (saturatingAdd key.utf8ByteSize 1)
      chargeConditionValueWork value
      return ([], ← addFactBounded key value context)
    | .isIn key [value] => do
      steps (saturatingAdd key.utf8ByteSize 1)
      chargeConditionValueWork value
      return ([], ← addFactBounded key value context)
    | .defined key => do
      steps (saturatingAdd key.utf8ByteSize 1)
      return ([], ← addFactBounded key (.bool true) context)
    | _ => return ([], context)
  | .all conditions next, context =>
    match conditions[next]? with
    | some child => return ([.visit child, .all conditions (next + 1)], context)
    | none => return ([], context)

def addConditionFactsBounded (fuel : Nat) (condition : PolicyCondition) (context : Context) :
    PolicyWork Context :=
  drain (fun _ => factsTurn) fuel [.visit condition] context

theorem charges_addFact (key : String) (value : Value) (context : Context) :
    Charges (addFactBounded key value context) (.ok (context.insertIfNew key value)) :=
  (charges_orderedCollectionWork _ _).bind (Charges.pure _)

theorem drains_allFacts {conditions : List PolicyCondition}
    (h : ∀ c ∈ conditions, ∀ context,
      Drains (fun _ => factsTurn) [.visit c] context (.ok (addConditionFacts c context)))
    (context : Context) :
    Drains (fun _ => factsTurn) [.all conditions 0] context (.ok (addEachFacts conditions context)) := by
  rw [addEachFacts_eq]
  refine Drains.children_ok .visit (fun context c => addConditionFacts c context) .ok
    (fun rest gathered frame current => current = gathered ∧ ∃ done,
      conditions = done ++ rest ∧ frame = .all conditions done.length) ?_ ?_ ?_
  · rintro gathered frame current ⟨rfl, done, rfl, rfl⟩
    refine Drains.done (.of_charges ?_)
    rw [factsTurn, List.append_nil, List.getElem?_length]
    exact Charges.pure _
  · rintro c rest gathered frame current ⟨rfl, done, hdone, rfl⟩
    refine ⟨.all conditions (done.length + 1), current, _, ?_, h c (hdone ▸ by simp) current, rfl,
      done ++ [c], ?_, ?_⟩
    · refine Settles.of_charges ?_
      rw [factsTurn, Drains.next_child hdone]
      exact Charges.pure _
    · rw [hdone, List.append_assoc, List.singleton_append]
    · rw [List.length_append, List.length_singleton]
  · exact ⟨rfl, [], rfl, rfl⟩

theorem drains_facts (condition : PolicyCondition) (context : Context) :
    Drains (fun _ => factsTurn) [.visit condition] context (.ok (addConditionFacts condition context)) := by
  induction condition using Condition.ind generalizing context with
  | all conditions ih =>
    rw [addConditionFacts]
    exact Drains.pushes (.of_charges (Charges.step.bind (Charges.pure _))) (drains_allFacts ih context)
  | any conditions => exact Drains.done (.of_charges (Charges.step.bind (Charges.pure _)))
  | not condition => exact Drains.done (.of_charges (Charges.step.bind (Charges.pure _)))
  | eq key value =>
    exact Drains.done (.of_charges (Charges.step.bind ((Charges.steps _).bind
      ((charges_conditionValueWork value).bind
        ((charges_addFact key value context).bind (Charges.pure _))))))
  | isIn key values =>
    refine Drains.done (.of_charges (Charges.step.bind ?_))
    rcases values with _ | ⟨value, _ | ⟨other, values⟩⟩
    · exact Charges.pure _
    · exact (Charges.steps _).bind ((charges_conditionValueWork value).bind
        ((charges_addFact key value context).bind (Charges.pure _)))
    · exact Charges.pure _
  | defined key =>
    exact Drains.done (.of_charges (Charges.step.bind ((Charges.steps _).bind
      ((charges_addFact key (.bool true) context).bind (Charges.pure _)))))

theorem settles_addConditionFactsBounded (condition : PolicyCondition) (context : Context) :
    Settles (fun fuel => addConditionFactsBounded fuel condition context)
      (.ok (addConditionFacts condition context)) :=
  (drains_facts condition context).settles

end Policy
