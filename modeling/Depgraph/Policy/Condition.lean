import Depgraph.Json.Proper
import Depgraph.Protocol.Graph
import Mathlib.Algebra.Ring.Nat

/-!
# Policy conditions

`policy.rs` and `policy_engine.rs`: the three-valued result of a policy condition in a context and the
facts it adds to a context, by recursion on the condition. `PolicyCondition` has the
operators of the protocol's `Condition`, and `to_protocol` maps each to its namesake, so that the
two are one type here.

* `evaluateBy` is `evaluate_condition` or `evaluate_edge_condition`. They differ in `defined` only:
  what is not in the context of an edge is not known.
* `conditionValuesEqual` compares an integer with a double by their values, as the engine does and
  `==` does not.
-/

namespace Json

namespace F64

/-- The integer significand: the fraction, with its leading one if the double is normal. -/
def significand (f : F64) : Nat :=
  let fraction := (f.bits.extractLsb' 0 52).toNat
  if f.bits.extractLsb' 52 11 = 0#11 then fraction else fraction + 4503599627370496

/-- The exponent of two that goes with the significand, plus 1075. -/
def scale (f : F64) : Nat := max (f.bits.extractLsb' 52 11).toNat 1

/-- The magnitude of the double, if it is an integer. -/
def wholeMagnitude (f : F64) : Option Nat :=
  if 1075 ≤ f.scale then some (f.significand * 2 ^ (f.scale - 1075))
  else if f.significand % 2 ^ (1075 - f.scale) = 0 then
    some (f.significand / 2 ^ (1075 - f.scale))
  else none

/-- The double as an `i128`, if its `fract` is zero; what is too large is cut off. -/
def toI128 (f : F64) : Option Int :=
  f.wholeMagnitude.map fun n =>
    let value : Int := if f.bits.msb then -n else n
    max (-170141183460469231731687303715884105728)
      (min value 170141183460469231731687303715884105727)

end F64

end Json

namespace Policy

open Json Protocol Fallible Std

/-- The conditions of a policy. -/
abbrev PolicyCondition := Condition

/-- The values of the keys in a context. -/
abbrev Context := ExtTreeMap String Value

/-! ### Equality of values -/

/-- `condition_values_equal`, on numbers. -/
def conditionNumbersEqual : Number → Number → Bool
  | .int m, .int n => m == n
  | .int m, .float g => g.toI128 == some m
  | .float f, .int n => f.toI128 == some n
  | .float f, .float g => f.numEq g

def conditionValuesEqual : Value → Value → Bool
  | .number m, .number n => conditionNumbersEqual m n
  | left, right => left == right

/-! ### Evaluation -/

def combineAll (values : List (Option Bool)) : Option Bool :=
  if values.contains (some false) then some false
  else if values.all (· == some true) then some true
  else none

def combineAny (values : List (Option Bool)) : Option Bool :=
  if values.contains (some true) then some true
  else if values.all (· == some false) then some false
  else none

/-- `lookup_context`: the value of the key itself, or the member that its dotted path leads to. -/
def lookupContext (context : Context) (key : String) : Option Value :=
  match context[key]? with
  | some value => some value
  | none =>
    match splitAt '.' key with
    | [] => none
    | first :: segments =>
      segments.foldl (fun value segment => value.bind (·.member segment)) context[first]?

/-- Not `null`. -/
def isPresent : Value → Bool
  | .null => false
  | _ => true

mutual

/-- `evaluate_condition`, or `evaluate_edge_condition` with the semantics of edges. -/
def evaluateBy (edgeSemantics : Bool) (context : Context) : PolicyCondition → Option Bool
  | .all conditions => combineAll (evaluateEach edgeSemantics context conditions)
  | .any conditions => combineAny (evaluateEach edgeSemantics context conditions)
  | .not condition => (evaluateBy edgeSemantics context condition).map (! ·)
  | .eq key value =>
    (lookupContext context key).map fun actual => conditionValuesEqual actual value
  | .isIn key values =>
    (lookupContext context key).map fun actual => values.any (conditionValuesEqual actual)
  | .defined key =>
    if edgeSemantics then (lookupContext context key).map isPresent
    else some ((lookupContext context key).any isPresent)

def evaluateEach (edgeSemantics : Bool) (context : Context) :
    List PolicyCondition → List (Option Bool)
  | [] => []
  | condition :: conditions =>
    evaluateBy edgeSemantics context condition :: evaluateEach edgeSemantics context conditions

end

def evaluateCondition (condition : PolicyCondition) (context : Context) : Option Bool :=
  evaluateBy false context condition

def evaluateEdgeCondition (condition : PolicyCondition) (context : Context) : Option Bool :=
  evaluateBy true context condition

theorem evaluateEach_eq (edgeSemantics : Bool) (context : Context) (cs : List PolicyCondition) :
    evaluateEach edgeSemantics context cs = cs.map (evaluateBy edgeSemantics context) := by
  induction cs with
  | nil => rfl
  | cons c cs ih => rw [evaluateEach, ih, List.map_cons]

/-! ### Facts -/

mutual

def addConditionFacts (condition : PolicyCondition) (context : Context) : Context :=
  match condition with
  | .all conditions => addEachFacts conditions context
  | .eq key value => context.insertIfNew key value
  | .isIn key [value] => context.insertIfNew key value
  | .defined key => context.insertIfNew key (.bool true)
  | _ => context

def addEachFacts : List PolicyCondition → Context → Context
  | [], context => context
  | condition :: conditions, context =>
    addEachFacts conditions (addConditionFacts condition context)

end

theorem addEachFacts_eq (cs : List PolicyCondition) (context : Context) :
    addEachFacts cs context = cs.foldl (fun context c => addConditionFacts c context) context := by
  induction cs generalizing context with
  | nil => rfl
  | cons c cs ih => rw [addEachFacts, ih, List.foldl_cons]

end Policy
