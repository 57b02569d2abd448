import Depgraph.Json.Text
import Depgraph.Library.SortDedup
import Depgraph.Protocol.Error
import Mathlib.Data.Char

/-!
# Conditions and their canonical form

`condition.rs`: the Boolean expressions attached to dependency edges and sites.

* `Condition.beq` is the derived `PartialEq`, which compares values as `serde_json` does.
* `sortKey` is the JSON text of a condition, tagged with its operator.
* `canonicalized` flattens nested `all` and `any`, sorts operands by their text, drops consecutive
  equal operands, removes double negation and collapses single operands. It is the instance of
  `canonicalizedWith` in which operands are reduced by "sort by text, drop what `==` calls equal".
* `holds` is the meaning of a condition under an assignment of JSON values to keys.
-/

namespace Protocol

open Json SortDedup

/-- A deterministic Boolean expression. `any []` is false, `all []` is true. -/
inductive Condition where
  | all (conditions : List Condition)
  | any (conditions : List Condition)
  | not (condition : Condition)
  | eq (key : String) (value : Value)
  | isIn (key : String) (values : List Value)
  | defined (key : String)

namespace Condition

/-- Induction with the operands of `all` and `any` as a list. -/
@[induction_eliminator]
theorem ind {P : Condition → Prop} (all : ∀ cs, (∀ c ∈ cs, P c) → P (.all cs))
    (any : ∀ cs, (∀ c ∈ cs, P c) → P (.any cs)) (not : ∀ c, P c → P (.not c))
    (eq : ∀ k v, P (.eq k v)) (isIn : ∀ k vs, P (.isIn k vs)) (defined : ∀ k, P (.defined k)) :
    ∀ c, P c
  | .all cs => all cs fun c _ => ind all any not eq isIn defined c
  | .any cs => any cs fun c _ => ind all any not eq isIn defined c
  | .not c => not c (ind all any not eq isIn defined c)
  | .eq k v => eq k v
  | .isIn k vs => isIn k vs
  | .defined k => defined k

/-! ### Equality, text and validation -/

mutual

/-- The derived equality of conditions. -/
def beq : Condition → Condition → Bool
  | .all cs, .all ds => beqEach cs ds
  | .any cs, .any ds => beqEach cs ds
  | .not c, .not d => c.beq d
  | .eq k v, .eq l w => k == l && v == w
  | .isIn k vs, .isIn l ws => k == l && beqItems vs ws
  | .defined k, .defined l => k == l
  | _, _ => false

def beqEach : List Condition → List Condition → Bool
  | [], [] => true
  | c :: cs, d :: ds => c.beq d && beqEach cs ds
  | _, _ => false

end

mutual

/-- The JSON value of a condition, with its operator under `op`. -/
def toValue : Condition → Value
  | .all cs => .object [("op", .string "all"), ("conditions", .array (toValues cs))]
  | .any cs => .object [("op", .string "any"), ("conditions", .array (toValues cs))]
  | .not c => .object [("op", .string "not"), ("condition", c.toValue)]
  | .eq k v => .object [("op", .string "eq"), ("key", .string k), ("value", v)]
  | .isIn k vs => .object [("op", .string "in"), ("key", .string k), ("values", .array vs)]
  | .defined k => .object [("op", .string "defined"), ("key", .string k)]

def toValues : List Condition → List Value
  | [] => []
  | c :: cs => c.toValue :: toValues cs

end

def isConditionPrimitive (value : Value) : Bool := value.isPrimitive

mutual

/-- `validate_condition`: keys are not empty and values are JSON primitives. -/
def validate : Condition → Except ProtocolError Unit
  | .all cs => validateEach cs
  | .any cs => validateEach cs
  | .not c => c.validate
  | .eq key value => do
    requireNonEmpty "condition.key" key
    if !isConditionPrimitive value then
      invariant "condition eq value must be a JSON primitive"
  | .isIn key values => do
    requireNonEmpty "condition.key" key
    if values.any fun value => !isConditionPrimitive value then
      invariant "condition in values must be JSON primitives"
  | .defined key => requireNonEmpty "condition.key" key

def validateEach : List Condition → Except ProtocolError Unit
  | [] => .ok ()
  | c :: cs => do
    c.validate
    validateEach cs

end

/-! ### Canonical form -/

section Canonical

variable (F : FloatText)

/-- `sort_key`: the JSON text. -/
def sortKey (c : Condition) : List Char := c.toValue.text F

/-- The `in` branch: values are sorted by text and repeats dropped; a single value is an `eq`. -/
def canonicalizeIn (key : String) (values : List Value) : Condition :=
  match sortDedup (Value.text F) (· == ·) values with
  | [value] => .eq key value
  | values => .isIn key values

/-- The `not` branch, on the canonical operand. -/
def canonicalizeNot : Condition → Condition
  | .not c => c
  | c => .not c

/-- The loop of `canonicalize_all`, on the canonical operands. -/
def flattenAll : List Condition → List Condition
  | [] => []
  | .all cs :: rest => cs ++ flattenAll rest
  | c :: rest => c :: flattenAll rest

/-- The loop of `canonicalize_any`, on the canonical operands: `none` when one of them is true. -/
def flattenAny : List Condition → Option (List Condition)
  | [] => some []
  | .all [] :: _ => none
  | .any cs :: rest => (flattenAny rest).map (cs ++ ·)
  | c :: rest => (flattenAny rest).map (c :: ·)

/-- The end of `canonicalize_all`. -/
def collapseAll : List Condition → Condition
  | [c] => c
  | cs => .all cs

/-- The end of `canonicalize_any`. -/
def collapseAny : List Condition → Condition
  | [c] => c
  | cs => .any cs

variable (reduce : List Condition → List Condition)

/-- `canonicalize_all`, on the canonical operands. -/
def canonicalizeAll (cs : List Condition) : Condition := collapseAll (reduce (flattenAll cs))

/-- `canonicalize_any`, on the canonical operands. -/
def canonicalizeAny (cs : List Condition) : Condition :=
  match flattenAny cs with
  | none => .all []
  | some cs => collapseAny (reduce cs)

mutual

/-- The canonical form for a given way to order flattened operands and drop their repeats. -/
def canonicalizedWith : Condition → Condition
  | .eq key value => .eq key value
  | .defined key => .defined key
  | .isIn key values => canonicalizeIn F key values
  | .not c => canonicalizeNot c.canonicalizedWith
  | .all cs => canonicalizeAll reduce (canonicalizedEach cs)
  | .any cs => canonicalizeAny reduce (canonicalizedEach cs)

def canonicalizedEach : List Condition → List Condition
  | [] => []
  | c :: cs => c.canonicalizedWith :: canonicalizedEach cs

end

/-- `sort_by_key(Condition::sort_key)` and `dedup()`. -/
def sortAndDedup : List Condition → List Condition := sortDedup (sortKey F) beq

def canonicalized : Condition → Condition := canonicalizedWith F (sortAndDedup F)

end Canonical

/-! ### Meaning -/

/-- The JSON values of the keys that are present. -/
abbrev Assignment := String → Option Value

mutual

/-- The meaning of a condition under an assignment. -/
def holds (env : Assignment) : Condition → Bool
  | .all cs => holdsAll env cs
  | .any cs => holdsAny env cs
  | .not c => !c.holds env
  | .eq key value => (env key).any (· == value)
  | .isIn key values => (env key).any fun w => values.any (w == ·)
  | .defined key => (env key).isSome

def holdsAll (env : Assignment) : List Condition → Bool
  | [] => true
  | c :: cs => c.holds env && holdsAll env cs

def holdsAny (env : Assignment) : List Condition → Bool
  | [] => false
  | c :: cs => c.holds env || holdsAny env cs

end

end Condition

end Protocol
