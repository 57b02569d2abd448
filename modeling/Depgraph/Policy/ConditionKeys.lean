import Depgraph.Policy.ConditionCanonical

/-!
# Canonical conditions on an explicit stack

`policy_engine.rs`: `condition_sort_key_bounded` and `canonical_condition_bounded`. What is sorted
is told apart by its text here, where `Condition::canonicalized` uses `==`.

* `keyedForm` is the recursion that the stack stands for. It fails on an `in` with an array or an
  object among its values.
* `evaluateBy_keyedForm`: the canonical form has the three-valued result of the condition.
* `canonicalConditionBounded_spec`: which conditions the loop refuses, and what it yields of others.
-/

namespace Policy

open Json Protocol Protocol.Condition Charged Drain SortDedup Fallible

section Keys

variable (F : FloatText)

/-! ### Keys -/

/-- `ConditionRenderFrame`. -/
inductive RenderFrame where
  | visit (condition : PolicyCondition)
  | list (conditions : List PolicyCondition) (next : Nat)
  | close (value : String)

def appendConditionStringBounded (output : List Char) (value : String) :
    PolicyWork (List Char) := do
  steps (saturatingAdd value.utf8ByteSize 1)
  steps (conditionStringSerializedWork value)
  let encoded := stringText value
  steps (saturatingAdd (String.ofList encoded).utf8ByteSize 1)
  return output ++ encoded

def appendConditionValueBounded (output : List Char) (value : Value) : PolicyWork (List Char) := do
  chargeConditionValueWork value
  steps (conditionValueSerializedWork value)
  let encoded := value.text F
  steps (saturatingAdd (String.ofList encoded).utf8ByteSize 1)
  return output ++ encoded

/-- The loop over the values of `in`. -/
def appendConditionValuesBounded (first : Bool) (output : List Char) :
    List Value → PolicyWork (List Char)
  | [] => return output
  | value :: values => do
    let output ← appendConditionValueBounded F (output ++ if first then [] else [',']) value
    appendConditionValuesBounded false output values

/-- One turn of the loop of `condition_sort_key_bounded`. -/
def renderTurn : RenderFrame → List Char → PolicyWork (List RenderFrame × List Char)
  | .visit condition, output => do
    step
    match condition with
    | .all conditions =>
      return ([.list conditions 0, .close "]\x7d"],
        output ++ "\x7b\"op\":\"all\",\"conditions\":[".toList)
    | .any conditions =>
      return ([.list conditions 0, .close "]\x7d"],
        output ++ "\x7b\"op\":\"any\",\"conditions\":[".toList)
    | .not condition =>
      return ([.visit condition, .close "\x7d"],
        output ++ "\x7b\"op\":\"not\",\"condition\":".toList)
    | .eq key value => do
      let output ← appendConditionStringBounded (output ++ "\x7b\"op\":\"eq\",\"key\":".toList) key
      let output ← appendConditionValueBounded F (output ++ ",\"value\":".toList) value
      return ([], output ++ "\x7d".toList)
    | .isIn key values => do
      let output ← appendConditionStringBounded (output ++ "\x7b\"op\":\"in\",\"key\":".toList) key
      let output ← appendConditionValuesBounded F true (output ++ ",\"values\":[".toList) values
      return ([], output ++ "]\x7d".toList)
    | .defined key => do
      let output ← appendConditionStringBounded
        (output ++ "\x7b\"op\":\"defined\",\"key\":".toList) key
      return ([], output ++ "\x7d".toList)
  | .list conditions next, output =>
    match conditions[next]? with
    | some child =>
      return ([.visit child, .list conditions (next + 1)],
        output ++ if 0 < next then [','] else [])
    | none => return ([], output)
  | .close value, output => return ([], output ++ value.toList)

def conditionSortKeyBounded (fuel : Nat) (condition : PolicyCondition) : PolicyWork (List Char) :=
  drain (fun _ => renderTurn F) fuel [.visit condition] []

theorem charges_appendConditionString (output : List Char) (value : String) :
    Charges (appendConditionStringBounded output value) (.ok (output ++ stringText value)) :=
  (Charges.steps _).bind ((Charges.steps _).bind ((Charges.steps _).bind (Charges.pure _)))

theorem charges_appendConditionValue (output : List Char) (value : Value) :
    Charges (appendConditionValueBounded F output value) (.ok (output ++ value.text F)) :=
  (charges_conditionValueWork value).bind
    ((Charges.steps _).bind ((Charges.steps _).bind (Charges.pure _)))

/-- The items of an array without the bracket that closes it. -/
def itemsBody : Bool → List Value → List Char
  | _, [] => []
  | first, x :: xs => (if first then [] else [',']) ++ (x.text F ++ itemsBody false xs)

theorem itemsText_eq (first : Bool) (values : List Value) :
    itemsText F first values = itemsBody F first values ++ [']'] := by
  induction values generalizing first with
  | nil => rfl
  | cons value values ih =>
    rw [itemsText, itemsBody, ih, List.append_assoc, List.append_assoc]

theorem charges_appendConditionValues (first : Bool) (output : List Char) (values : List Value) :
    Charges (appendConditionValuesBounded F first output values)
      (.ok (output ++ itemsBody F first values)) := by
  induction values generalizing first output with
  | nil =>
    rw [appendConditionValuesBounded, itemsBody, List.append_nil]
    exact Charges.pure output
  | cons value values ih =>
    rw [appendConditionValuesBounded, itemsBody, ← List.append_assoc, ← List.append_assoc]
    exact (charges_appendConditionValue F _ value).bind (ih false _)

theorem toValues_eq (cs : List PolicyCondition) : toValues cs = cs.map toValue := by
  induction cs with
  | nil => rfl
  | cons c cs ih => rw [toValues, ih, List.map_cons]

/-- The operands of an operator, one after another. -/
theorem foldl_items (first : Bool) (output : List Char) (cs : List PolicyCondition) :
    (cs.foldl (fun (acc : Bool × List Char) c =>
      (false, acc.2 ++ (if acc.1 then [] else [',']) ++ sortKey F c)) (first, output)).2 =
      output ++ itemsBody F first (cs.map toValue) := by
  induction cs generalizing first output with
  | nil => exact (List.append_nil output).symm
  | cons c cs ih =>
    rw [List.foldl_cons, ih, List.map_cons, itemsBody]
    simp only [List.append_assoc]
    rfl

theorem drains_list {conditions : List PolicyCondition}
    (h : ∀ c ∈ conditions, ∀ output, Drains (fun _ => renderTurn F) [.visit c] output
      (.ok (output ++ sortKey F c))) (output : List Char) :
    Drains (fun _ => renderTurn F) [.list conditions 0] output
      (.ok (output ++ itemsBody F true (conditions.map toValue))) := by
  rw [← foldl_items]
  refine Drains.children_ok (τ := Bool × List Char) RenderFrame.visit _ (fun acc => .ok acc.2)
    (fun rest acc frame current => current = acc.2 ∧ ∃ done, conditions = done ++ rest ∧
      frame = .list conditions done.length ∧ acc.1 = decide (done = [])) ?_ ?_ ?_
  · rintro ⟨first, gathered⟩ frame current ⟨rfl, done, rfl, rfl, -⟩
    refine Drains.done (.of_charges ?_)
    rw [renderTurn, List.append_nil, List.getElem?_length]
    exact Charges.pure _
  · rintro c rest ⟨first, gathered⟩ frame current ⟨rfl, done, hdone, rfl, hfirst⟩
    refine ⟨.list conditions (done.length + 1), current ++ if first then [] else [','], _, ?_,
      h c (hdone ▸ by simp) _, rfl, done ++ [c], ?_, ?_, ?_⟩
    · refine Settles.of_charges ?_
      rw [renderTurn, Drains.next_child hdone]
      have hcomma : (if 0 < done.length then [','] else []) = if first then [] else [','] := by
        cases done <;> simp_all
      rw [hcomma]
      exact Charges.pure _
    · rw [hdone, List.append_assoc, List.singleton_append]
    · rw [List.length_append, List.length_singleton]
    · simp
  · exact ⟨rfl, [], rfl, rfl, rfl⟩

theorem sortKey_all (cs : List PolicyCondition) :
    sortKey F (.all cs) = "\x7b\"op\":\"all\",\"conditions\":[".toList ++
      itemsBody F true (cs.map toValue) ++ "]\x7d".toList := by
  simp [sortKey, toValue, toValues_eq, Value.text, membersText, itemsText_eq]
  rfl

theorem sortKey_not (c : PolicyCondition) :
    sortKey F (.not c) =
      "\x7b\"op\":\"not\",\"condition\":".toList ++ sortKey F c ++ "\x7d".toList := by
  simp [sortKey, toValue, Value.text, membersText]
  rfl

theorem sortKey_isIn (k : String) (vs : List Value) :
    sortKey F (.isIn k vs) = "\x7b\"op\":\"in\",\"key\":".toList ++ stringText k ++
      ",\"values\":[".toList ++ itemsBody F true vs ++ "]\x7d".toList := by
  simp [sortKey, toValue, Value.text, membersText, itemsText_eq]
  rfl

theorem sortKey_any (cs : List PolicyCondition) :
    sortKey F (.any cs) = "\x7b\"op\":\"any\",\"conditions\":[".toList ++
      itemsBody F true (cs.map toValue) ++ "]\x7d".toList := by
  simp [sortKey, toValue, toValues_eq, Value.text, membersText, itemsText_eq]
  rfl

theorem sortKey_eq (k : String) (v : Value) :
    sortKey F (.eq k v) = "\x7b\"op\":\"eq\",\"key\":".toList ++ stringText k ++
      ",\"value\":".toList ++ v.text F ++ "\x7d".toList := by
  simp [sortKey, toValue, Value.text, membersText]
  rfl

theorem sortKey_defined (k : String) :
    sortKey F (.defined k) =
      "\x7b\"op\":\"defined\",\"key\":".toList ++ stringText k ++ "\x7d".toList := by
  simp [sortKey, toValue, Value.text, membersText]
  rfl

/-- **The stack renders the key of a condition.** -/
theorem drains_render (condition : PolicyCondition) (output : List Char) :
    Drains (fun _ => renderTurn F) [.visit condition] output
      (.ok (output ++ sortKey F condition)) := by
  have hclose (value : String) (output : List Char) :
      Drains (fun _ => renderTurn F) [.close value] output (.ok (output ++ value.toList)) :=
    Drains.done (.of_charges (Charges.pure _))
  induction condition using Condition.ind generalizing output with
  | all conditions ih =>
    rw [sortKey_all, ← List.append_assoc, ← List.append_assoc]
    exact Drains.pushes (.of_charges (Charges.step.bind (Charges.pure _)))
      (Drains.cons (drains_list F ih _) (hclose _ _))
  | any conditions ih =>
    rw [sortKey_any, ← List.append_assoc, ← List.append_assoc]
    exact Drains.pushes (.of_charges (Charges.step.bind (Charges.pure _)))
      (Drains.cons (drains_list F ih _) (hclose _ _))
  | not condition ih =>
    rw [sortKey_not, ← List.append_assoc, ← List.append_assoc]
    exact Drains.pushes (.of_charges (Charges.step.bind (Charges.pure _)))
      (Drains.cons (ih _) (hclose _ _))
  | eq key value =>
    simp only [sortKey_eq, ← List.append_assoc]
    exact Drains.done (.of_charges (Charges.step.bind ((charges_appendConditionString _ key).bind
      ((charges_appendConditionValue F _ value).bind (Charges.pure _)))))
  | isIn key values =>
    simp only [sortKey_isIn, ← List.append_assoc]
    exact Drains.done (.of_charges (Charges.step.bind ((charges_appendConditionString _ key).bind
      ((charges_appendConditionValues F true _ values).bind (Charges.pure _)))))
  | defined key =>
    simp only [sortKey_defined, ← List.append_assoc]
    exact Drains.done (.of_charges (Charges.step.bind ((charges_appendConditionString _ key).bind
      (Charges.pure _))))

theorem settles_conditionSortKey (condition : PolicyCondition) :
    Settles (fun fuel => conditionSortKeyBounded F fuel condition) (.ok (sortKey F condition)) :=
  (drains_render F condition []).settles

/-! ### Sorting by keys -/

/-- `sort_by` and `dedup_by`, both with the text that goes with an element. -/
def sortKeyed {α : Type} (keyed : List (List Char × α)) : List α :=
  (exact Prod.fst keyed).map Prod.snd

theorem orderedInsert_keyed {α : Type} (key : α → List Char) (a : α) (l : List α) :
    (l.map fun b => (key b, b)).orderedInsert (fun x y => x.1 ≤ y.1) (key a, a) =
      (l.orderedInsert (fun b c => key b ≤ key c) a).map fun b => (key b, b) := by
  induction l with
  | nil => rfl
  | cons b l ih =>
    rw [List.map_cons, List.orderedInsert, List.orderedInsert]
    split_ifs
    · rfl
    · rw [ih, List.map_cons]

theorem sortByKey_keyed {α : Type} (key : α → List Char) (l : List α) :
    sortByKey Prod.fst (l.map fun a => (key a, a)) =
      (sortByKey key l).map fun a => (key a, a) := by
  induction l with
  | nil => rfl
  | cons a l ih =>
    have hcons : sortByKey Prod.fst (((a :: l)).map fun a => (key a, a)) =
        (sortByKey Prod.fst (l.map fun a => (key a, a))).orderedInsert (fun x y => x.1 ≤ y.1)
          (key a, a) := rfl
    rw [hcons, ih]
    exact orderedInsert_keyed key a _

theorem dedupFrom_keyed {α : Type} (key : α → List Char) (last : α) (l : List α) :
    dedupFrom (sameKey Prod.fst) (key last, last) (l.map fun a => (key a, a)) =
      (dedupFrom (sameKey key) last l).map fun a => (key a, a) := by
  induction l generalizing last with
  | nil => rfl
  | cons a l ih =>
    rw [List.map_cons, dedupFrom, dedupFrom]
    change (if sameKey key a last = true then _ else _) = _
    split_ifs with h
    · exact ih last
    · rw [ih a, List.map_cons]

/-- Elements that carry their keys are sorted as the elements are. -/
theorem sortKeyed_eq {α : Type} (key : α → List Char) (l : List α) :
    sortKeyed (l.map fun a => (key a, a)) = exact key l := by
  rw [sortKeyed, exact, exact, sortDedup, sortDedup, sortByKey_keyed]
  cases sortByKey key l with
  | nil => rfl
  | cons a l =>
    rw [List.map_cons, dedup, dedupFrom_keyed, dedup, List.map_cons, List.map_map]
    exact congrArg (a :: ·) (List.map_id _)

/-! ### Canonicalization -/

/-- `ConditionCanonicalizeFrame`. -/
inductive CanonicalizeFrame where
  | visit (condition : PolicyCondition)
  | aggregate (any : Bool) (conditions : List PolicyCondition) (next : Nat) (awaitingChild : Bool)
    (values : List PolicyCondition)
  | not

/-- The text that a value of `in` is sorted by. -/
def keyValueBounded (value : Value) : PolicyWork (List Char × Value) := do
  chargeConditionValueWork value
  if !value.isPrimitive then
    stop (.failed "edge condition value must be a JSON primitive")
  steps (conditionValueSerializedWork value)
  let sortKey := value.text F
  steps (saturatingAdd (String.ofList sortKey).utf8ByteSize 1)
  return (sortKey, value)

/-- The loop over the operands of an operator; `none` when an operand of `any` is true. -/
def flattenOperandsBounded (any : Bool) (flattened : List PolicyCondition) :
    List PolicyCondition → PolicyWork (Option (List PolicyCondition))
  | [] => return some flattened
  | condition :: conditions => do
    step
    match any, condition with
    | false, .all [] => flattenOperandsBounded any flattened conditions
    | true, .all [] => return none
    | false, .all operands => flattenOperandsBounded any (flattened ++ operands) conditions
    | true, .any operands => flattenOperandsBounded any (flattened ++ operands) conditions
    | _, condition => flattenOperandsBounded any (flattened ++ [condition]) conditions

/-- The operator on conditions of which there is more or less than one. -/
def operatorOf (any : Bool) : List PolicyCondition → PolicyCondition
  | [condition] => condition
  | conditions => if any then .any conditions else .all conditions

def canonicalizeConditionOperatorBounded (fuel : Nat) (any : Bool)
    (values : List PolicyCondition) : PolicyWork PolicyCondition := do
  match ← flattenOperandsBounded any [] values with
  | none => return .all []
  | some flattened => do
    let keyed ← flattened.mapM fun condition => do
      return (← conditionSortKeyBounded F fuel condition, condition)
    chargeConditionKeySortWork keyed
    return operatorOf any (sortKeyed keyed)

/-- The second half of the turn of an aggregate. -/
def canonicalizeNext (fuel : Nat) (any : Bool) (conditions : List PolicyCondition) (next : Nat)
    (children values : List PolicyCondition) :
    PolicyWork (List CanonicalizeFrame × List PolicyCondition) :=
  match conditions[next]? with
  | some child =>
    return ([.visit child, .aggregate any conditions (next + 1) true children], values)
  | none => do
    let value ← canonicalizeConditionOperatorBounded F fuel any children
    return ([], value :: values)

/-- The turn of a condition. -/
def canonicalizeVisit (condition : PolicyCondition) (values : List PolicyCondition) :
    PolicyWork (List CanonicalizeFrame × List PolicyCondition) := do
  step
  match condition with
  | .all conditions => return ([.aggregate false conditions 0 false []], values)
  | .any conditions => return ([.aggregate true conditions 0 false []], values)
  | .not condition => return ([.visit condition, .not], values)
  | .eq key value => do
    steps (saturatingAdd key.utf8ByteSize 1)
    chargeConditionValueWork value
    return ([], .eq key value :: values)
  | .isIn key expected => do
    steps (saturatingAdd key.utf8ByteSize 1)
    let keyed ← expected.mapM (keyValueBounded F)
    chargeConditionKeySortWork keyed
    match sortKeyed keyed with
    | [value] => return ([], .eq key value :: values)
    | expected => return ([], .isIn key expected :: values)
  | .defined key => do
    steps (saturatingAdd key.utf8ByteSize 1)
    return ([], .defined key :: values)

/-- One turn of the loop of `canonical_condition_bounded`. -/
def canonicalizeTurn (fuel : Nat) :
    CanonicalizeFrame → List PolicyCondition →
      PolicyWork (List CanonicalizeFrame × List PolicyCondition)
  | .visit condition, values => canonicalizeVisit F condition values
  | .aggregate isAny conditions next awaitingChild children, values =>
    if awaitingChild then
      match values with
      | value :: values =>
        canonicalizeNext F fuel isAny conditions next (children ++ [value]) values
      | [] => stop (.failed "bounded condition canonicalization lost a child")
    else canonicalizeNext F fuel isAny conditions next children values
  | .not, values =>
    match values with
    | .not condition :: values => return ([], condition :: values)
    | condition :: values => return ([], .not condition :: values)
    | [] => stop (.failed "bounded condition canonicalization lost a not child")

def canonicalConditionBounded (fuel : Nat) (condition : PolicyCondition) :
    PolicyWork PolicyCondition := do
  let values ← drain (canonicalizeTurn F) fuel [.visit condition] []
  orStop (.failed "bounded condition canonicalization did not produce one result")
    (onlyValue values)

/-! ### The recursion -/

/-- An `in` whose values are sorted and told apart by their texts. -/
def keyedIn (key : String) (values : List Value) : PolicyCondition :=
  match exact (Value.text F) values with
  | [value] => .eq key value
  | values => .isIn key values

mutual

/-- The canonical form in which operands and values are told apart by their texts. -/
def keyedForm : PolicyCondition → Except (Stop String) PolicyCondition
  | .all conditions => do
    return canonicalizeAll (exact (sortKey F)) (← keyedForms conditions)
  | .any conditions => do
    return canonicalizeAny (exact (sortKey F)) (← keyedForms conditions)
  | .not condition => do
    return canonicalizeNot (← keyedForm condition)
  | .eq key value => .ok (.eq key value)
  | .isIn key values =>
    if values.all Value.isPrimitive then .ok (keyedIn F key values)
    else .error (.failed "edge condition value must be a JSON primitive")
  | .defined key => .ok (.defined key)

def keyedForms : List PolicyCondition → Except (Stop String) (List PolicyCondition)
  | [] => .ok []
  | condition :: conditions => do
    let form ← keyedForm condition
    let forms ← keyedForms conditions
    return form :: forms

end

theorem charges_keyValue (value : Value) : Charges (keyValueBounded F value)
    (if value.isPrimitive then .ok (value.text F, value)
      else .error (.failed "edge condition value must be a JSON primitive")) := by
  refine (charges_conditionValueWork value).bind ?_
  cases value.isPrimitive with
  | true => exact (Charges.steps _).bind ((Charges.steps _).bind (Charges.pure _))
  | false => exact (Charges.stop _).bind_error

theorem mapM_keyValue (values : List Value) :
    (values.mapM fun value => if value.isPrimitive then Except.ok (value.text F, value)
      else .error (Stop.failed "edge condition value must be a JSON primitive")) =
      if values.all Value.isPrimitive then .ok (values.map fun value => (value.text F, value))
      else .error (.failed "edge condition value must be a JSON primitive") := by
  induction values with
  | nil => rfl
  | cons value values ih =>
    rw [List.mapM_cons, ih, List.all_cons]
    cases value.isPrimitive with
    | false => rfl
    | true => cases values.all Value.isPrimitive <;> rfl

/-- The form of an operator with operands in canonical form. -/
def operatorForm (any : Bool) (conditions : List PolicyCondition) : PolicyCondition :=
  if any then canonicalizeAny (exact (sortKey F)) conditions
  else canonicalizeAll (exact (sortKey F)) conditions

theorem charges_flattenOperands (any : Bool) (flattened conditions : List PolicyCondition) :
    Charges (flattenOperandsBounded any flattened conditions)
      (.ok ((if any then flattenAny conditions else some (flattenAll conditions)).map
        (flattened ++ ·))) := by
  induction conditions generalizing flattened with
  | nil =>
    rw [flattenOperandsBounded]
    cases any <;> simpa [flattenAny, flattenAll] using Charges.pure (some flattened)
  | cons condition conditions ih =>
    have hpush (operands : List PolicyCondition)
        (h : (if any then flattenAny (condition :: conditions)
            else some (flattenAll (condition :: conditions))) =
          (if any then flattenAny conditions else some (flattenAll conditions)).map
            (operands ++ ·)) :
        Charges (flattenOperandsBounded any (flattened ++ operands) conditions)
          (.ok ((if any then flattenAny (condition :: conditions)
            else some (flattenAll (condition :: conditions))).map (flattened ++ ·))) := by
      rw [h, Option.map_map]
      simpa [Function.comp_def] using ih (flattened ++ operands)
    unfold flattenOperandsBounded
    refine Charges.step.bind ?_
    cases any with
    | false =>
      cases condition with
      | all operands =>
        cases operands with
        | nil => simpa [flattenAll] using ih flattened
        | cons c operands => exact hpush (c :: operands) rfl
      | any operands => exact hpush [.any operands] rfl
      | not c => exact hpush [.not c] rfl
      | eq key value => exact hpush [.eq key value] rfl
      | isIn key values => exact hpush [.isIn key values] rfl
      | defined key => exact hpush [.defined key] rfl
    | true =>
      cases condition with
      | all operands =>
        cases operands with
        | nil => exact Charges.pure _
        | cons c operands => exact hpush [.all (c :: operands)] rfl
      | any operands => exact hpush operands rfl
      | not c => exact hpush [.not c] rfl
      | eq key value => exact hpush [.eq key value] rfl
      | isIn key values => exact hpush [.isIn key values] rfl
      | defined key => exact hpush [.defined key] rfl

theorem operatorOf_all (conditions : List PolicyCondition) :
    operatorOf false conditions = collapseAll conditions := by
  rcases conditions with _ | ⟨c, _ | ⟨d, conditions⟩⟩ <;> rfl

theorem operatorOf_any (conditions : List PolicyCondition) :
    operatorOf true conditions = collapseAny conditions := by
  rcases conditions with _ | ⟨c, _ | ⟨d, conditions⟩⟩ <;> rfl

/-- The operator is canonicalized as it is by the recursion. -/
theorem settles_canonicalizeConditionOperator (any : Bool) (values : List PolicyCondition) :
    Settles (fun fuel => canonicalizeConditionOperatorBounded F fuel any values)
      (.ok (operatorForm F any values)) := by
  refine (Settles.of_charges (charges_flattenOperands any [] values)).bind (f := fun fuel flat? =>
    match flat? with
    | none => Pure.pure (.all [])
    | some flattened => do
      let keyed ← flattened.mapM fun condition => do
        return (← conditionSortKeyBounded F fuel condition, condition)
      chargeConditionKeySortWork keyed
      return operatorOf any (sortKeyed keyed)) ?_
  have hsome (flattened : List PolicyCondition) :
      Settles (fun fuel => do
        let keyed ← flattened.mapM fun condition => do
          return (← conditionSortKeyBounded F fuel condition, condition)
        chargeConditionKeySortWork keyed
        return operatorOf any (sortKeyed keyed))
      (.ok (operatorOf any (exact (sortKey F) flattened))) := by
    rw [← sortKeyed_eq]
    refine Settles.bind (Settles.mapM (g := fun c => (sortKey F c, c)) fun c _ => ?_)
      (Settles.of_charges ((charges_conditionKeySortWork _).bind (Charges.pure _)))
    exact (settles_conditionSortKey F c).bind (Settles.of_charges (Charges.pure _))
  cases any with
  | false =>
    rw [operatorForm, canonicalizeAll, ← operatorOf_all]
    exact hsome (flattenAll values)
  | true =>
    rw [operatorForm, canonicalizeAny]
    cases hflat : flattenAny values with
    | none =>
      exact Settles.of_charges (Charges.pure _)
    | some flattened =>
      have := hsome flattened
      rw [operatorOf_any] at this
      exact this

theorem keyedForms_eq (acc conditions : List PolicyCondition) :
    (keyedForms F conditions).map (acc ++ ·) =
      conditions.foldlM (fun acc c => (keyedForm F c).map fun form => acc ++ [form]) acc := by
  induction conditions generalizing acc with
  | nil => exact congrArg Except.ok (List.append_nil acc)
  | cons c conditions ih =>
    rw [keyedForms, List.foldlM_cons]
    cases keyedForm F c with
    | error e => rfl
    | ok form =>
      have hforms := ih (acc ++ [form])
      change _ = conditions.foldlM _ (acc ++ [form])
      rw [← hforms]
      change ((keyedForms F conditions).bind _).map _ = _
      cases keyedForms F conditions with
      | error e => rfl
      | ok forms => exact congrArg Except.ok (by simp)

/-- An aggregate canonicalizes its operands one after another. -/
theorem drains_canonicalizeAggregate (any : Bool) {conditions : List PolicyCondition}
    (h : ∀ c ∈ conditions, ∀ values, Drains (canonicalizeTurn F) [.visit c] values
      ((keyedForm F c).map (· :: values))) (values : List PolicyCondition) :
    Drains (canonicalizeTurn F) [.aggregate any conditions 0 false []] values
      ((keyedForms F conditions).map fun forms => operatorForm F any forms :: values) := by
  have hrun : Drains (canonicalizeTurn F) [.aggregate any conditions 0 false []] values
      (conditions.foldlM (fun acc c => (keyedForm F c).map fun form => acc ++ [form]) [] >>=
        fun forms => .ok (operatorForm F any forms :: values)) := by
    refine Drains.children CanonicalizeFrame.visit _ _
      (fun rest acc frame current => ∃ done, conditions = done ++ rest ∧ ∀ fuel,
        canonicalizeTurn F fuel frame current =
          canonicalizeNext F fuel any conditions done.length acc values) ?_ ?_ ?_
    · rintro acc frame current ⟨done, rfl, hturn⟩
      refine Drains.done ?_
      simp only [hturn, canonicalizeNext, List.append_nil, List.getElem?_length]
      exact (settles_canonicalizeConditionOperator F any acc).bind
        (Settles.of_charges (Charges.pure _))
    · rintro c rest acc frame current ⟨done, hdone, hturn⟩
      refine ⟨.aggregate any conditions (done.length + 1) true acc, values, _, ?_,
        h c (hdone ▸ by simp) values, ?_, ?_⟩
      · simp only [hturn, canonicalizeNext, Drains.next_child hdone]
        exact Settles.of_charges (Charges.pure _)
      · intro e he
        cases hform : keyedForm F c with
        | error e' =>
          rw [hform] at he
          exact he
        | ok form =>
          rw [hform] at he
          cases he
      · intro current' hcurrent
        cases hform : keyedForm F c with
        | error e' =>
          rw [hform] at hcurrent
          cases hcurrent
        | ok form =>
          rw [hform] at hcurrent
          obtain rfl := Except.ok.inj hcurrent
          refine ⟨acc ++ [form], rfl, done ++ [c], ?_, fun fuel => ?_⟩
          · rw [hdone, List.append_assoc, List.singleton_append]
          · rw [List.length_append, List.length_singleton]
            rfl
    · exact ⟨[], rfl, fun _ => rfl⟩
  have hforms := keyedForms_eq F [] conditions
  rw [← hforms] at hrun
  cases hall : keyedForms F conditions <;> rw [hall] at hrun <;> exact hrun

/-- **A condition on the stack is replaced by its canonical form.** -/
theorem drains_canonicalize (condition : PolicyCondition) (values : List PolicyCondition) :
    Drains (canonicalizeTurn F) [.visit condition] values
      ((keyedForm F condition).map (· :: values)) := by
  have hturn {condition values r} (h : Charges (canonicalizeVisit F condition values) r) :
      Settles (fun fuel => canonicalizeTurn F fuel (.visit condition) values) r :=
    Settles.of_charges h
  induction condition using Condition.ind generalizing values with
  | all conditions ih =>
    have hall := drains_canonicalizeAggregate F false ih values
    refine Drains.pushes (hturn (Charges.step.bind (Charges.pure _))) ?_
    rw [keyedForm]
    cases hforms : keyedForms F conditions <;> rw [hforms] at hall <;> exact hall
  | any conditions ih =>
    have hall := drains_canonicalizeAggregate F true ih values
    refine Drains.pushes (hturn (Charges.step.bind (Charges.pure _))) ?_
    rw [keyedForm]
    cases hforms : keyedForms F conditions <;> rw [hforms] at hall <;> exact hall
  | not condition ih =>
    have hone := ih values
    refine Drains.pushes (hturn (Charges.step.bind (Charges.pure _))) ?_
    rw [keyedForm]
    cases hform : keyedForm F condition with
    | error e =>
      rw [hform] at hone
      exact Drains.cons_error hone
    | ok form =>
      rw [hform] at hone
      refine Drains.cons hone (Drains.done (.of_charges ?_))
      cases form <;> exact Charges.pure _
  | eq key value =>
    exact Drains.done (hturn (Charges.step.bind ((Charges.steps _).bind
      ((charges_conditionValueWork value).bind (Charges.pure _)))))
  | isIn key expected =>
    have hvalues : Charges (expected.mapM (keyValueBounded F)) _ :=
      Charges.mapM fun value _ => charges_keyValue F value
    rw [mapM_keyValue] at hvalues
    rw [keyedForm]
    cases hprimitive : expected.all Value.isPrimitive with
    | false =>
      rw [hprimitive] at hvalues
      exact Drains.stops (hturn (Charges.step.bind ((Charges.steps _).bind hvalues.bind_error)))
    | true =>
      rw [hprimitive] at hvalues
      refine Drains.done (hturn (Charges.step.bind ((Charges.steps _).bind (hvalues.bind
        ((charges_conditionKeySortWork _).bind ?_)))))
      rw [sortKeyed_eq, keyedIn]
      split <;> exact Charges.pure _
  | defined key =>
    exact Drains.done (hturn (Charges.step.bind ((Charges.steps _).bind (Charges.pure _))))

/-- With enough fuel the loop has the result of the recursion. -/
theorem settles_canonicalCondition (condition : PolicyCondition) :
    Settles (fun fuel => canonicalConditionBounded F fuel condition) (keyedForm F condition) := by
  have hvisit := (drains_canonicalize F condition []).settles
  cases hform : keyedForm F condition with
  | error e =>
    rw [hform] at hvisit
    exact Settles.bind_error hvisit
  | ok form =>
    rw [hform] at hvisit
    exact hvisit.bind (Settles.of_charges (Charges.pure _))

/-! ### The result in a context -/

section Result

variable (edgeSemantics : Bool) (context : Context)

theorem evaluateBy_keyedIn (key : String) (values : List Value) :
    evaluateBy edgeSemantics context (keyedIn F key values) =
      evaluateBy edgeSemantics context (.isIn key values) := by
  have hany (actual : Value) :
      (exact (Value.text F) values).any (conditionValuesEqual actual) =
        values.any (conditionValuesEqual actual) := by
    rw [Bool.eq_iff_iff, List.any_eq_true, List.any_eq_true]
    exact exists_congr fun v => and_congr_left fun _ => mem_exact (text_injective F)
  rw [evaluateBy, keyedIn]
  split
  · rename_i value hvalue
    simp only [evaluateBy, ← hany, hvalue, List.any_cons, List.any_nil, Bool.or_false]
  · simp only [evaluateBy, hany]

theorem evaluateBy_canonicalizeAll_exact (forms : List PolicyCondition) :
    evaluateBy edgeSemantics context (canonicalizeAll (exact (sortKey F)) forms) =
      Kleene.all (forms.map (evaluateBy edgeSemantics context)) := by
  rw [canonicalizeAll, evaluateBy_collapseAll,
    Kleene.all_congr (mem_map_exact F edgeSemantics context _), evaluateBy_flattenAll]

theorem evaluateBy_canonicalizeAny_exact (forms : List PolicyCondition) :
    evaluateBy edgeSemantics context (canonicalizeAny (exact (sortKey F)) forms) =
      Kleene.any (forms.map (evaluateBy edgeSemantics context)) := by
  rw [evaluateBy_flattenAny, canonicalizeAny]
  cases flattenAny forms with
  | none => exact evaluateBy_all edgeSemantics context []
  | some flattened =>
    rw [evaluateBy_collapseAny, Kleene.any_congr (mem_map_exact F edgeSemantics context _)]
    rfl

variable {F edgeSemantics context}

theorem keyedForms_map {conditions forms : List PolicyCondition}
    (ih : ∀ c ∈ conditions, ∀ form, keyedForm F c = .ok form →
      evaluateBy edgeSemantics context form = evaluateBy edgeSemantics context c)
    (h : keyedForms F conditions = .ok forms) :
    forms.map (evaluateBy edgeSemantics context) =
      conditions.map (evaluateBy edgeSemantics context) := by
  induction conditions generalizing forms with
  | nil =>
    cases h
    rfl
  | cons c conditions ihcs =>
    rw [keyedForms] at h
    obtain ⟨form, hform, h⟩ := bind_eq_ok.1 h
    obtain ⟨rest, hrest, h⟩ := bind_eq_ok.1 h
    cases h
    rw [List.map_cons, List.map_cons, ih c List.mem_cons_self form hform,
      ihcs (fun c hc => ih c (List.mem_cons_of_mem _ hc)) hrest]

/-- **The canonical form of the engine has the three-valued result of the condition.** -/
theorem evaluateBy_keyedForm {condition form : PolicyCondition}
    (h : keyedForm F condition = .ok form) :
    evaluateBy edgeSemantics context form = evaluateBy edgeSemantics context condition := by
  induction condition using Condition.ind generalizing form with
  | all conditions ih =>
    rw [keyedForm] at h
    obtain ⟨forms, hforms, h⟩ := bind_eq_ok.1 h
    cases h
    rw [evaluateBy_canonicalizeAll_exact, evaluateBy_all, keyedForms_map ih hforms]
  | any conditions ih =>
    rw [keyedForm] at h
    obtain ⟨forms, hforms, h⟩ := bind_eq_ok.1 h
    cases h
    rw [evaluateBy_canonicalizeAny_exact, evaluateBy_any, keyedForms_map ih hforms]
  | not condition ih =>
    rw [keyedForm] at h
    obtain ⟨operand, hoperand, h⟩ := bind_eq_ok.1 h
    cases h
    rw [evaluateBy_canonicalizeNot, ih hoperand, evaluateBy]
  | eq key value =>
    cases h
    rfl
  | isIn key values =>
    rw [keyedForm] at h
    split_ifs at h
    cases h
    exact evaluateBy_keyedIn F edgeSemantics context key values
  | defined key =>
    cases h
    rfl

end Result

/-! ### The engine's canonical form -/

mutual

/-- The values of every `in` are primitive. -/
def valuesPrimitive : PolicyCondition → Bool
  | .all conditions => valuesPrimitiveEach conditions
  | .any conditions => valuesPrimitiveEach conditions
  | .not condition => valuesPrimitive condition
  | .isIn _ values => values.all Value.isPrimitive
  | .eq _ _ | .defined _ => true

def valuesPrimitiveEach : List PolicyCondition → Bool
  | [] => true
  | condition :: conditions => valuesPrimitive condition && valuesPrimitiveEach conditions

end

/-- What the recursion says of a condition whose form is known if it has one. -/
def formOr (primitive : Bool) (form : PolicyCondition) : Except (Stop String) PolicyCondition :=
  if primitive then .ok form
  else .error (.failed "edge condition value must be a JSON primitive")

variable {F}

theorem keyedForms_formOr {conditions : List PolicyCondition}
    (ih : ∀ c ∈ conditions, ∃ form, keyedForm F c = formOr (valuesPrimitive c) form) :
    ∃ forms, keyedForms F conditions =
      if valuesPrimitiveEach conditions then .ok forms
      else .error (.failed "edge condition value must be a JSON primitive") := by
  induction conditions with
  | nil => exact ⟨[], rfl⟩
  | cons c conditions ihcs =>
    obtain ⟨form, hform⟩ := ih c List.mem_cons_self
    obtain ⟨forms, hforms⟩ := ihcs fun c hc => ih c (List.mem_cons_of_mem _ hc)
    refine ⟨form :: forms, ?_⟩
    rw [keyedForms, hform, hforms, valuesPrimitiveEach, formOr]
    cases valuesPrimitive c <;> cases valuesPrimitiveEach conditions <;> rfl

/-- A condition has a canonical form exactly when the values of every `in` are primitive. -/
theorem keyedForm_formOr (condition : PolicyCondition) :
    ∃ form, keyedForm F condition = formOr (valuesPrimitive condition) form := by
  induction condition using Condition.ind with
  | all conditions ih =>
    obtain ⟨forms, hforms⟩ := keyedForms_formOr ih
    refine ⟨canonicalizeAll (exact (sortKey F)) forms, ?_⟩
    rw [keyedForm, hforms, valuesPrimitive, formOr]
    cases valuesPrimitiveEach conditions <;> rfl
  | any conditions ih =>
    obtain ⟨forms, hforms⟩ := keyedForms_formOr ih
    refine ⟨canonicalizeAny (exact (sortKey F)) forms, ?_⟩
    rw [keyedForm, hforms, valuesPrimitive, formOr]
    cases valuesPrimitiveEach conditions <;> rfl
  | not condition ih =>
    obtain ⟨form, hform⟩ := ih
    refine ⟨canonicalizeNot form, ?_⟩
    rw [keyedForm, hform, valuesPrimitive, formOr, formOr]
    cases valuesPrimitive condition <;> rfl
  | eq key value => exact ⟨.eq key value, rfl⟩
  | isIn key values => exact ⟨keyedIn F key values, rfl⟩
  | defined key => exact ⟨.defined key, rfl⟩

/-! The form is left alone when it is canonicalized again. -/

variable (F) in
/-- The shape of the forms: operands and values are sorted and told apart by their texts. -/
abbrev Keyed : PolicyCondition → Prop :=
  CanonicalWith (fun values => exact (Value.text F) values = values ∧
      values.all Value.isPrimitive = true)
    fun operands => exact (sortKey F) operands = operands

theorem keyedIn_keyed {key : String} {values : List Value}
    (h : values.all Value.isPrimitive = true) : Keyed F (keyedIn F key values) := by
  have hprimitive : (exact (Value.text F) values).all Value.isPrimitive = true :=
    List.all_eq_true.2 fun v hv => List.all_eq_true.1 h v (mem_of_mem_sortDedup hv)
  unfold keyedIn
  split
  · exact .eq _ _
  · rename_i hne
    exact .isIn ⟨exact_exact values, hprimitive⟩
      fun hlen => (List.length_eq_one_iff.1 hlen).elim hne

theorem mem_keyedForms {conditions forms : List PolicyCondition}
    (h : keyedForms F conditions = .ok forms) {form : PolicyCondition} :
    form ∈ forms ↔ ∃ c ∈ conditions, keyedForm F c = .ok form := by
  induction conditions generalizing forms with
  | nil =>
    cases h
    simp
  | cons c conditions ih =>
    rw [keyedForms] at h
    obtain ⟨first, hfirst, h⟩ := bind_eq_ok.1 h
    obtain ⟨rest, hrest, h⟩ := bind_eq_ok.1 h
    cases h
    rw [List.mem_cons, ih hrest, List.exists_mem_cons_iff, hfirst, Except.ok.injEq, eq_comm]

theorem forall_keyedForms {P : PolicyCondition → Prop} {conditions forms : List PolicyCondition}
    (ih : ∀ c ∈ conditions, ∀ form, keyedForm F c = .ok form → P form)
    (h : keyedForms F conditions = .ok forms) : ∀ form ∈ forms, P form := by
  intro form hform
  obtain ⟨c, hc, hkeyed⟩ := (mem_keyedForms h).1 hform
  exact ih c hc form hkeyed

theorem keyedForm_keyed {condition form : PolicyCondition}
    (h : keyedForm F condition = .ok form) : Keyed F form := by
  induction condition using Condition.ind generalizing form with
  | all conditions ih =>
    rw [keyedForm] at h
    obtain ⟨forms, hforms, h⟩ := bind_eq_ok.1 h
    cases h
    exact canonicalizeAll_shape (exact_subset F) exact_exact
      (forall_keyedForms (fun c hc form => ih c hc) hforms)
  | any conditions ih =>
    rw [keyedForm] at h
    obtain ⟨forms, hforms, h⟩ := bind_eq_ok.1 h
    cases h
    exact canonicalizeAny_shape (exact_subset F) exact_exact
      (forall_keyedForms (fun c hc form => ih c hc) hforms)
  | not condition ih =>
    rw [keyedForm] at h
    obtain ⟨operand, hoperand, h⟩ := bind_eq_ok.1 h
    cases h
    exact canonicalizeNot_shape (ih hoperand)
  | eq key value =>
    cases h
    exact .eq key value
  | isIn key values =>
    rw [keyedForm] at h
    split_ifs at h with hvalues
    cases h
    exact keyedIn_keyed hvalues
  | defined key =>
    cases h
    exact .defined key

theorem keyedForms_eq_self {forms : List PolicyCondition}
    (h : ∀ form ∈ forms, keyedForm F form = .ok form) : keyedForms F forms = .ok forms := by
  induction forms with
  | nil => rfl
  | cons form forms ih =>
    rw [keyedForms, h form List.mem_cons_self, ih fun c hc => h c (List.mem_cons_of_mem _ hc)]
    rfl

/-- **Canonicalizing again changes nothing.** -/
theorem Keyed.keyedForm_eq_self {form : PolicyCondition} (h : Keyed F form) :
    keyedForm F form = .ok form := by
  induction h with
  | all _ flat reduced length ih =>
    rw [keyedForm, keyedForms_eq_self ih]
    exact congrArg _ (canonicalizeAll_eq_self flat reduced length)
  | any _ flat reduced length ih =>
    rw [keyedForm, keyedForms_eq_self ih]
    exact congrArg _ (canonicalizeAny_eq_self flat reduced length)
  | not _ single ih =>
    rw [keyedForm, ih]
    exact congrArg _ (canonicalizeNot_eq_self single)
  | eq key value => rfl
  | isIn values length =>
    rw [keyedForm, if_pos values.2, keyedIn, values.1]
    split
    · exact absurd rfl length
    · rfl
  | defined key => rfl

theorem keyedForms_of_plain {conditions : List PolicyCondition}
    (ih : ∀ c ∈ conditions, keyedForm F c = .ok (exactForm F c)) :
    keyedForms F conditions = .ok (conditions.map (exactForm F)) := by
  induction conditions with
  | nil => rfl
  | cons c conditions ihcs =>
    rw [keyedForms, ih c List.mem_cons_self, ihcs fun c hc => ih c (List.mem_cons_of_mem _ hc)]
    rfl

/-- On plain values the form is the canonical form of the protocol. -/
theorem Plain.keyedForm_eq {condition : PolicyCondition} (h : Plain condition) :
    keyedForm F condition = .ok (canonicalized F condition) := by
  rw [h.canonicalized_eq]
  induction h with
  | all _ ih =>
    rw [keyedForm, keyedForms_of_plain ih, exactForm_all]
    rfl
  | any _ ih =>
    rw [keyedForm, keyedForms_of_plain ih, exactForm_any]
    rfl
  | not _ ih =>
    rw [keyedForm, ih]
    rfl
  | eq _ => rfl
  | isIn hvs =>
    rw [keyedForm, if_pos (List.all_eq_true.2 fun v hv => isPrimitive_of_isPlain (hvs v hv)),
      keyedIn, ← sortDedup_values F hvs]
    rfl
  | defined _ => rfl

variable (F) in
/-- **The loop of `canonical_condition_bounded` ends.** It refuses a condition exactly when a value
of an `in` is not primitive; what it yields has the three-valued result of the condition everywhere,
and is the canonical form of the protocol if the values are plain. -/
theorem canonicalConditionBounded_spec (condition : PolicyCondition) :
    ∃ form, Settles (fun fuel => canonicalConditionBounded F fuel condition)
        (if valuesPrimitive condition then .ok form
          else .error (.failed "edge condition value must be a JSON primitive")) ∧
      (valuesPrimitive condition = true → ∀ edgeSemantics context,
        evaluateBy edgeSemantics context form = evaluateBy edgeSemantics context condition) ∧
      (Plain condition → form = canonicalized F condition) := by
  obtain ⟨form, hform⟩ := keyedForm_formOr (F := F) condition
  refine ⟨form, ?_, fun h edgeSemantics context => ?_, fun hplain => ?_⟩
  · have hsettles := settles_canonicalCondition F condition
    rw [hform] at hsettles
    exact hsettles
  · exact evaluateBy_keyedForm (by rw [hform, h]; rfl)
  · rw [hplain.keyedForm_eq] at hform
    unfold formOr at hform
    split_ifs at hform
    exact (Except.ok.inj hform).symm

end Keys

end Policy
