import Depgraph.Json.Value
import Depgraph.Library.Charged

/-!
# The work of the policy engine

`policy_engine.rs`: the steps that are charged for conditions, their keys and values, and sorts.
An error that is neither a cancellation nor the end of the budget is a message.
-/

namespace Policy

open Json Charged

/-- A computation on the shared policy budget. -/
abbrev PolicyWork : Type → Type := Work String

/-- `usize::MAX`. -/
def usizeMax : Nat := 18446744073709551615

def saturatingAdd (a b : Nat) : Nat := min (a + b) usizeMax

def saturatingMul (a b : Nat) : Nat := min (a * b) usizeMax

/-- `usize::BITS - n.leading_zeros()`. -/
def bitLength (n : Nat) : Nat := if n = 0 then 0 else n.log2 + 1

def chargeOrderedCollectionWork (len keyUnits : Nat) : PolicyWork Unit :=
  let comparisonRounds := if len = 0 then 1 else bitLength len
  steps (saturatingMul comparisonRounds (max keyUnits 1))

def chargeConditionSortWork (len : Nat) : PolicyWork Unit :=
  if len ≤ 1 then pure () else steps (saturatingMul len (bitLength (len - 1)))

/-- `charge_condition_key_sort_work`, on the texts of the keys. -/
def chargeConditionKeySortWork {α : Type} (keyed : List (List Char × α)) : PolicyWork Unit := do
  chargeConditionSortWork keyed.length
  if keyed.length ≤ 1 then
    return ()
  let rounds := bitLength (keyed.length - 1)
  keyed.forM fun entry => steps (saturatingMul (String.ofList entry.1).utf8ByteSize rounds)

def chargeConditionValueWork (value : Value) : PolicyWork Unit := do
  step
  match value with
  | .string s => steps s.utf8ByteSize
  | _ => return ()

def conditionValueSerializedWork : Value → Nat
  | .null => 4
  | .bool true => 4
  | .bool false => 5
  | .number _ => 128
  | .string s => saturatingAdd (saturatingMul s.utf8ByteSize 6) 2
  | .array _ | .object _ => 0

def conditionStringSerializedWork (s : String) : Nat :=
  saturatingAdd (saturatingMul s.utf8ByteSize 6) 2

theorem charges_orderedCollectionWork (len keyUnits : Nat) :
    Charges (chargeOrderedCollectionWork len keyUnits) (.ok ()) :=
  Charges.steps _

theorem charges_conditionSortWork (len : Nat) :
    Charges (chargeConditionSortWork len) (.ok ()) := by
  unfold chargeConditionSortWork
  split_ifs
  · exact Charges.pure ()
  · exact Charges.steps _

theorem charges_conditionKeySortWork {α : Type} (keyed : List (List Char × α)) :
    Charges (chargeConditionKeySortWork keyed) (.ok ()) := by
  unfold chargeConditionKeySortWork
  refine (charges_conditionSortWork _).bind ?_
  split_ifs
  · exact Charges.pure ()
  · exact Charges.forM fun entry _ => Charges.steps _

theorem charges_conditionValueWork (value : Value) :
    Charges (chargeConditionValueWork value) (.ok ()) := by
  unfold chargeConditionValueWork
  refine Charges.step.bind ?_
  split
  · exact Charges.steps _
  · exact Charges.pure ()

end Policy
