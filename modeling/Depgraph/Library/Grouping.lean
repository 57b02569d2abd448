import Depgraph.Library.OrderedMap
import Mathlib.Data.List.Induction
import Mathlib.Data.Prod.Lex

/-!
# Grouping by a key

A loop that appends every value to the list kept under the value's key. The list under a key is the
sublist of the values with that key (`getElem?_groupBy`).
-/

namespace OrderedMap

open Std

instance lawfulEqOrdLex {α β : Type} [Ord α] [Ord β] [TransOrd α] [TransOrd β] [LawfulEqOrd α]
    [LawfulEqOrd β] : LawfulEqOrd (α ×ₗ β) where
  compare_self := ReflOrd.compare_self
  eq_of_compare {a b} h := by
    obtain ⟨hfst, hsnd⟩ := Ordering.then_eq_eq.1 h
    exact Prod.ext (LawfulEqOrd.eq_of_compare hfst) (LawfulEqOrd.eq_of_compare hsnd)

variable {K V : Type} [Ord K] [TransOrd K] [LawfulEqOrd K] [DecidableEq K]

theorem getElem?_alter {m : ExtTreeMap K V} {k key : K} {f : Option V → Option V} :
    (m.alter k f)[key]? = if key = k then f m[k]? else m[key]? := by
  simp only [ExtTreeMap.getElem?_alter, Std.compare_eq_iff_eq, eq_comm (a := k)]

/-- Appends a value to the list under its key; a value without a key is left out. -/
def push (key : V → Option K) (groups : ExtTreeMap K (List V)) (v : V) : ExtTreeMap K (List V) :=
  match key v with
  | some k => groups.alter k fun group => some (group.getD [] ++ [v])
  | none => groups

/-- The values grouped by their keys. -/
def groupBy (key : V → Option K) (l : List V) : ExtTreeMap K (List V) := l.foldl (push key) ∅

/-- A list that is not empty. -/
def inhabitedList (l : List V) : Option (List V) := if l = [] then none else some l

@[simp] theorem inhabitedList_append (l : List V) (v : V) :
    inhabitedList (l ++ [v]) = some (l ++ [v]) :=
  if_neg (by simp)

@[simp] theorem getD_inhabitedList (l : List V) : (inhabitedList l).getD [] = l := by
  unfold inhabitedList
  split_ifs with h <;> simp [h]

theorem inhabitedList_eq_some {l g : List V} : inhabitedList l = some g ↔ g = l ∧ l ≠ [] := by
  unfold inhabitedList
  split_ifs with h <;> simp [h, eq_comm]

variable (key : V → Option K)

omit [LawfulEqOrd K] [DecidableEq K] in
theorem groupBy_append (l : List V) (v : V) :
    groupBy key (l ++ [v]) = push key (groupBy key l) v := by
  rw [groupBy, List.foldl_append]
  rfl

theorem getElem?_push {groups : ExtTreeMap K (List V)} {v : V} {k : K} :
    (push key groups v)[k]? =
      if key v = some k then some (groups[k]?.getD [] ++ [v]) else groups[k]? := by
  unfold push
  cases hkey : key v with
  | none => rfl
  | some k' =>
    rw [getElem?_alter]
    by_cases hk : k = k'
    · rw [if_pos hk, if_pos (congrArg some hk.symm), hk]
    · rw [if_neg hk, if_neg fun h => hk (Option.some.inj h).symm]

/-- **The group of a key consists of the values with this key**, in their order. -/
theorem getElem?_groupBy (l : List V) (k : K) :
    (groupBy key l)[k]? = inhabitedList (l.filter fun v => key v = some k) := by
  induction l using List.reverseRecOn with
  | nil => exact ExtTreeMap.getElem?_empty
  | append_singleton l v ih =>
    rw [groupBy_append, getElem?_push, ih, List.filter_append]
    by_cases hv : key v = some k
    · rw [if_pos hv, List.filter_singleton, decide_eq_true hv, cond_true, inhabitedList_append,
        getD_inhabitedList]
    · rw [if_neg hv, List.filter_singleton, decide_eq_false hv, cond_false, List.append_nil]

end OrderedMap
