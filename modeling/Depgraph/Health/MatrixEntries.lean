import Depgraph.Library.StableSort
import Depgraph.Store.ProfileMatrix

/-!
# The entries of the profile matrix

`build_profile_matrix` makes an entry of every effective input, with the sites, edges and evidence that
belong to it. What the analysis of unused files reads of the entries comes from the profiles alone
(`entries_read`).
-/

namespace OrderedMap

open SortDedup Std

variable {V : Type} (key : V → Option String) (l : List V)

theorem keys_groupBy : (groupBy key l).toList.map Prod.fst = exact id (l.filterMap key) := by
  have hsorted : ((groupBy key l).toList.map Prod.fst).Pairwise (· < ·) :=
    List.pairwise_map.2 (ExtTreeMap.ordered_keys_toList.imp fun h => compare_lt_iff_lt.1 h)
  have : Std.Irrefl fun a b : String => a < b := ⟨lt_irrefl⟩
  have : Std.Antisymm fun a b : String => a < b := ⟨fun a b hab hba => absurd hab hba.not_gt⟩
  refine hsorted.eq_of_mem_iff (exact_strict _) fun k => ?_
  rw [mem_exact Function.injective_id, List.mem_map, List.mem_filterMap]
  constructor
  · rintro ⟨entry, hentry, rfl⟩
    obtain ⟨-, hne⟩ := inhabitedList_eq_some.1
      ((getElem?_groupBy key l entry.1).symm.trans (mem_toList.1 hentry))
    obtain ⟨v, hv⟩ := List.exists_mem_of_ne_nil _ hne
    exact ⟨v, (List.mem_filter.1 hv).1, of_decide_eq_true (List.mem_filter.1 hv).2⟩
  · rintro ⟨v, hv, hkey⟩
    have hne : v ∈ l.filter fun v => key v = some k := List.mem_filter.2 ⟨hv, decide_eq_true hkey⟩
    refine ⟨(k, l.filter fun v => key v = some k), mem_toList.2 ?_, rfl⟩
    rw [getElem?_groupBy]
    exact inhabitedList_eq_some.2 ⟨rfl, List.ne_nil_of_mem hne⟩

/-- **The groups stand in the order of their keys.** -/
theorem toList_groupBy : (groupBy key l).toList =
    (exact id (l.filterMap key)).map fun k => (k, l.filter fun v => key v = some k) := by
  rw [← keys_groupBy, List.map_map]
  refine (List.map_id _).symm.trans (List.map_congr_left fun entry hentry => ?_)
  obtain ⟨hgroup, -⟩ := inhabitedList_eq_some.1
    ((getElem?_groupBy key l entry.1).symm.trans (mem_toList.1 hentry))
  exact Prod.ext rfl hgroup

end OrderedMap

namespace Health

open Store SortDedup OrderedMap

open ProfileMatrix (MatrixSource)

/-- What is read of an entry. -/
def ProfileMatrixEntryRecord.ofEntry (entry : ProfileMatrix.ProfileMatrixEntryRecord) :
    ProfileMatrixEntryRecord where
  id := entry.id
  language := entry.language
  profileIds := entry.profileIds

variable (L : ProfileMatrix.Libraries) (m : MatrixSource)

/-- The effective input of a profile that is there. -/
theorem effective_of_mem {profile : ProfileRecord} (h : profile ∈ m.profiles) :
    m.effective L profile.id = some (effectiveInputId L.toStableIds m.profiles
      ((profileById m.profiles profile.id).getD profile)) := by
  rw [MatrixSource.effective]
  cases hfound : profileById m.profiles profile.id with
  | some found => rfl
  | none =>
    exact absurd (decide_eq_true rfl)
      (List.find?_eq_none.1 hfound profile (List.mem_reverse.2 h))

/-- **The analysis reads of the matrix what the profiles alone give.** -/
theorem entries_read : (m.entries L).map .ofEntry =
    profileMatrixEntries L.toStableIds m.profiles := by
  have heffective := @effective_of_mem L m
  have hsort (entries : List ProfileMatrix.ProfileMatrixEntryRecord) :
      (sortByKey (·.id) entries).map ProfileMatrixEntryRecord.ofEntry =
        sortByKey (·.id) (entries.map .ofEntry) := map_sortByKey _ (fun _ => by rfl) entries
  rw [MatrixSource.entries, profileMatrixEntries, toList_groupBy, hsort, List.map_map, List.map_map,
    MatrixSource.effectiveInputs, List.filterMap_congr fun profile h => heffective h]
  refine congrArg _ (List.map_congr_left fun input _ => ?_)
  have hprofiles : m.profilesOf L input = m.profiles.filter fun profile =>
      some (effectiveInputId L.toStableIds m.profiles
        ((profileById m.profiles profile.id).getD profile)) = some input :=
    List.filter_congr fun profile h => by rw [heffective h]
  show ProfileMatrixEntryRecord.ofEntry (m.entry L input) = _
  rw [ProfileMatrixEntryRecord.ofEntry, MatrixSource.entry, MatrixSource.languageOf, hprofiles]
  rfl

end Health
