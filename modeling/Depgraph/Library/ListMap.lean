import Depgraph.Library.Grouping
import Mathlib.Data.List.Perm.Basic

/-!
# Maps of lists

A loop that appends values to the lists kept under their keys loses no value and adds none: the
entries of the map are, in some order, the pairs that have been appended (`listEntries_appendAll`). The map
of the values under their own keys does not depend on the values of other keys (`indexed_filter`).
-/

namespace OrderedMap

open Std

variable {K V : Type} [Ord K] [TransOrd K] [LawfulEqOrd K] [DecidableEq K]

/-- An entry comes before the rest of the map in some order. -/
theorem toList_perm_cons {m : ExtTreeMap K V} {k : K} {v : V} (h : m[k]? = some v) :
    m.toList.Perm ((k, v) :: (m.erase k).toList) := by
  have hfresh : (k, v) ∉ (m.erase k).toList := by
    rw [mem_toList, getElem?_erase, if_pos rfl]
    exact fun hnone => by cases hnone
  have hnodup (n : ExtTreeMap K V) : n.toList.Nodup := .of_map _ keys_nodup
  refine (List.perm_ext_iff_of_nodup (hnodup m) (List.nodup_cons.2 ⟨hfresh, hnodup _⟩)).2 ?_
  rintro ⟨key, w⟩
  rw [List.mem_cons, mem_toList, mem_toList, getElem?_erase, Prod.mk.injEq]
  by_cases hkey : key = k
  · subst hkey
    rw [if_pos rfl, h, Option.some.injEq]
    simp [eq_comm]
  · simp [hkey]

/-- Appends a value to the list under a key. -/
def appendUnder (lists : ExtTreeMap K (List V)) (entry : K × V) : ExtTreeMap K (List V) :=
  lists.alter entry.1 fun known => some (known.getD [] ++ [entry.2])

/-- The entries of a map of lists. -/
def listEntries (lists : ExtTreeMap K (List V)) : List (K × V) :=
  lists.toList.flatMap fun entry => entry.2.map fun v => (entry.1, v)

theorem listEntries_perm (lists : ExtTreeMap K (List V)) (k : K) :
    (listEntries lists).Perm ((lists[k]?.getD []).map (fun v => (k, v)) ++ listEntries (lists.erase k)) := by
  cases h : lists[k]? with
  | none => rw [erase_of_none h, Option.getD_none, List.map_nil, List.nil_append]
  | some values => exact (toList_perm_cons h).flatMap_right _

/-- Appending a value appends an entry. -/
theorem listEntries_append (lists : ExtTreeMap K (List V)) (entry : K × V) :
    (listEntries (appendUnder lists entry)).Perm (listEntries lists ++ [entry]) := by
  have hsame : (appendUnder lists entry).erase entry.1 = lists.erase entry.1 := by
    refine ExtTreeMap.ext_getElem? fun k => ?_
    rw [getElem?_erase, getElem?_erase, appendUnder, getElem?_alter]
    split_ifs <;> rfl
  have hlist : (appendUnder lists entry)[entry.1]?.getD [] = lists[entry.1]?.getD [] ++ [entry.2] := by
    rw [appendUnder, getElem?_alter, if_pos rfl, Option.getD_some]
  refine (listEntries_perm _ entry.1).trans ?_
  rw [hsame, hlist, List.map_append, List.append_assoc]
  refine (List.perm_append_comm.append_left _).trans ?_
  rw [← List.append_assoc]
  exact (listEntries_perm lists entry.1).symm.append_right _

omit [DecidableEq K] in
theorem listEntries_empty : listEntries (∅ : ExtTreeMap K (List V)) = [] := by
  refine List.eq_nil_iff_forall_not_mem.2 fun entry hentry => ?_
  obtain ⟨listed, hlisted, -⟩ := List.mem_flatMap.1 hentry
  rw [mem_toList, ExtTreeMap.getElem?_empty] at hlisted
  cases hlisted

/-- **No value is lost or added.** -/
theorem listEntries_appendAll (l : List (K × V)) (lists : ExtTreeMap K (List V)) :
    (listEntries (l.foldl appendUnder lists)).Perm (listEntries lists ++ l) := by
  induction l generalizing lists with
  | nil => rw [List.append_nil, List.foldl_nil]
  | cons entry l ih =>
    rw [List.foldl_cons]
    refine (ih _).trans (((listEntries_append lists entry).append_right l).trans ?_)
    rw [List.append_assoc, List.singleton_append]

/-! ### Values under their own keys -/

variable {key : V → K}

omit [LawfulEqOrd K] [DecidableEq K] in
theorem indexed_append_singleton (l : List V) (v : V) :
    indexed key (l ++ [v]) = (indexed key l).insert (key v) v := by
  rw [indexed, indexed, ExtTreeMap.ofList_eq_insertMany_empty, ExtTreeMap.ofList_eq_insertMany_empty,
    List.map_append, ExtTreeMap.insertMany_append]
  exact ExtTreeMap.insertMany_list_singleton

/-- The last value of a key counts. -/
theorem getElem?_indexed_append {l : List V} {v : V} {k : K} :
    (indexed key (l ++ [v]))[k]? = if k = key v then some v else (indexed key l)[k]? := by
  rw [← getElem?_insert, indexed_append_singleton]

/-- Values of other keys make no difference. -/
theorem getElem?_indexed_filter {l : List V} {p : K → Bool} {k : K} (hk : p k = true) :
    (indexed key (l.filter fun v => p (key v)))[k]? = (indexed key l)[k]? := by
  induction l using List.reverseRecOn with
  | nil => rfl
  | append_singleton l v ih =>
    rw [List.filter_append, getElem?_indexed_append]
    by_cases hp : p (key v) = true
    · rw [List.filter_singleton, hp, cond_true, getElem?_indexed_append, ih]
    · have hother : k ≠ key v := by
        rintro rfl
        exact hp hk
      rw [List.filter_singleton, Bool.eq_false_iff.2 hp, cond_false, List.append_nil, if_neg hother, ih]

end OrderedMap
