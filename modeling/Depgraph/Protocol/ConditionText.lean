import Depgraph.Protocol.Condition

/-!
# Reading and rendering conditions

`Condition` as `serde_json` reads it (the operator under `op`, or an array that begins with the
operator), `Condition::render`, and `render_condition`, which renders what can be read as a condition
and prints anything else as it stands.
-/

namespace Protocol

open Json

/-- The operators of conditions. -/
inductive ConditionOp where
  | all
  | any
  | not
  | eq
  | isIn
  | defined
deriving DecidableEq

/-- The operator that a value names. Below the top level an index is read as well. -/
def ConditionOp.ofTag (nested : Bool) : Value → Option ConditionOp
  | .string "all" => some .all
  | .string "any" => some .any
  | .string "not" => some .not
  | .string "eq" => some .eq
  | .string "in" => some .isIn
  | .string "defined" => some .defined
  | .number (.int n) =>
    if nested && 0 ≤ n then [all, any, not, eq, isIn, defined][n.toNat]? else none
  | _ => none

/-- A value as it can be read in place of a field. -/
structure ConditionPart where
  value : Value
  condition : Option Condition
  conditions : Option (List Condition)

/-- The text of a string value. -/
def stringOf : Value → Option String
  | .string s => some s
  | _ => none

/-- The items of an array. -/
def itemsOf : Value → Option (List Value)
  | .array items => some items
  | _ => none

/-- A condition from its fields in the order in which they are declared. -/
def ConditionOp.build : ConditionOp → List ConditionPart → Option Condition
  | .all, [part] => part.conditions.map .all
  | .any, [part] => part.conditions.map .any
  | .not, [part] => part.condition.map .not
  | .eq, [key, part] => (stringOf key.value).map fun key => .eq key part.value
  | .isIn, [key, part] => do
    let key ← stringOf key.value
    let values ← itemsOf part.value
    return .isIn key values
  | .defined, [key] => (stringOf key.value).map .defined
  | _, _ => none

/-- The names of the fields of an operator. -/
def ConditionOp.fields : ConditionOp → List String
  | .all | .any => ["conditions"]
  | .not => ["condition"]
  | .eq => ["key", "value"]
  | .isIn => ["key", "values"]
  | .defined => ["key"]

namespace Condition

mutual

/-- `from_value::<Condition>`. Other members of an object are not looked at. -/
def ofValue (nested : Bool) : Value → Option Condition
  | .object members => do
    let op ← (members.lookup "op").bind (ConditionOp.ofTag nested)
    let parts ← op.fields.mapM fun field => (memberParts members).lookup field
    op.build parts
  | .array (tag :: items) => do
    let op ← ConditionOp.ofTag nested tag
    op.build (itemParts items)
  | _ => none

/-- `Vec<Condition>`. -/
def listOfValue : Value → Option (List Condition)
  | .array items => ofItems items
  | _ => none

def ofItems : List Value → Option (List Condition)
  | [] => some []
  | v :: vs => do
    let c ← ofValue true v
    let cs ← ofItems vs
    return c :: cs

def memberParts : List (String × Value) → List (String × ConditionPart)
  | [] => []
  | (k, v) :: members => (k, ⟨v, ofValue true v, listOfValue v⟩) :: memberParts members

def itemParts : List Value → List ConditionPart
  | [] => []
  | v :: vs => ⟨v, ofValue true v, listOfValue v⟩ :: itemParts vs

end

/-! ### Rendering -/

section Render

variable (F : FloatText)

/-- A character of a key that needs no quotes, after the first. -/
def isKeyChar (c : Char) : Bool := c.isAlphanum || c ∈ ['_', '.', ':', '-']

def renderKey (key : String) : String :=
  match key.toList with
  | c :: rest =>
    if (c.isAlpha || c = '_') && rest.all isKeyChar then key else String.ofList (stringText key)
  | [] => String.ofList (stringText key)

def jsonValue (value : Value) : String := String.ofList (value.text F)

mutual

def renderCanonical : Condition → String
  | .eq key value => renderKey key ++ " == " ++ jsonValue F value
  | .isIn key values =>
    renderKey key ++ " in [" ++ ", ".intercalate (values.map (jsonValue F)) ++ "]"
  | .defined key => "defined(" ++ renderKey key ++ ")"
  | .not c => "!(" ++ renderCanonical c ++ ")"
  | .all [] => "true"
  | .all (c :: cs) => "(" ++ " && ".intercalate (renderCanonical c :: renderEach cs) ++ ")"
  | .any [] => "false"
  | .any (c :: cs) => "(" ++ " || ".intercalate (renderCanonical c :: renderEach cs) ++ ")"

def renderEach : List Condition → List String
  | [] => []
  | c :: cs => renderCanonical c :: renderEach cs

end

def render (c : Condition) : String := renderCanonical F (canonicalized F c)

end Render

end Condition

def renderCondition (F : FloatText) (value : Value) : String :=
  match Condition.ofValue false value with
  | some condition => condition.render F
  | none => Condition.jsonValue F value

example : renderCondition .plain (.object [("op", .string "all"), ("conditions", .array
    [.object [("key", .string "target"), ("op", .string "defined")],
      .array [.number (.int 3), .string "a b", .bool true]])]) =
    "(defined(target) && \"a b\" == true)" := by
  decide +kernel

end Protocol
