import Depgraph.Library.Fallible
import Depgraph.Library.OrderedMap
import Mathlib.Data.List.Dedup
import Mathlib.Data.List.Induction
import Mathlib.Data.String.Basic

/-!
# Maps and the lists of their entries

A map is written entry by entry, and read in the order of its keys. What is found under a key depends
on the entries with that key alone, and the last of them counts.
-/

namespace OrderedMap

open Std Fallible

variable {K V : Type} [Ord K] [TransOrd K] [LawfulEqOrd K] {m : ExtTreeMap K V} {k : K} {v : V}

/-! ### Reading -/

theorem map_key_values {key : V → K} (h : KeyedBy key m) : (values m).map key = m.keys := by
  rw [values, List.map_map, ← ExtTreeMap.map_fst_toList_eq_keys]
  exact List.map_congr_left fun entry hmem => h entry.1 entry.2 (mem_toList.1 hmem)

theorem entries_values {key : V → K} (h : KeyedBy key m) :
    (values m).map (fun v => (key v, v)) = m.toList := by
  rw [values, List.map_map]
  refine (List.map_congr_left fun entry hmem => ?_).trans (List.map_id _)
  rw [Function.comp_apply, h entry.1 entry.2 (mem_toList.1 hmem), id]

/-- Sorted lists with the same members are equal. -/
theorem eq_of_ordered {l l' : List K} (hl : l.Pairwise fun a b => compare a b = .lt)
    (hl' : l'.Pairwise fun a b => compare a b = .lt) (hmem : ∀ k, k ∈ l ↔ k ∈ l') : l = l' := by
  have hnodup {l : List K} (h : l.Pairwise fun a b => compare a b = .lt) : l.Nodup := by
    refine h.imp fun hlt heq => ?_
    rw [heq, compare_self] at hlt
    cases hlt
  refine List.Perm.eq_of_pairwise (fun a b _ _ hab hba => ?_) hl hl'
    ((List.perm_ext_iff_of_nodup (hnodup hl) (hnodup hl')).2 hmem)
  rw [OrientedCmp.gt_of_lt hab] at hba
  cases hba

omit [LawfulEqOrd K] in
/-- The keys of a map are sorted. -/
theorem keys_isChain (m : ExtTreeMap K V) : m.keys.IsChain fun a b => compare a b = .lt :=
  ExtTreeMap.ordered_keys.isChain

theorem string_keys_isChain {V : Type} (m : ExtTreeMap String V) : m.keys.IsChain (· < ·) :=
  (ExtTreeMap.ordered_keys.imp compare_lt_iff_lt.1).isChain

theorem string_toList_isChain (s : ExtTreeSet String) : s.toList.IsChain (· < ·) :=
  (ExtTreeSet.ordered_toList.imp compare_lt_iff_lt.1).isChain

/-! ### Writing -/

section

variable [DecidableEq K]

omit [LawfulEqOrd K] [DecidableEq K] in
theorem insertAll_append (base : ExtTreeMap K V) (entries entries' : List (K × V)) :
    insertAll base (entries ++ entries') = insertAll (insertAll base entries) entries' :=
  List.foldl_append

omit [LawfulEqOrd K] [DecidableEq K] in
theorem insertAll_cons (base : ExtTreeMap K V) (entry : K × V) (entries : List (K × V)) :
    insertAll base (entry :: entries) = insertAll (base.insert entry.1 entry.2) entries := rfl

theorem insertAll_toList (m : ExtTreeMap K V) : insertAll ∅ m.toList = m := by
  refine ExtTreeMap.ext_getElem? fun k => ?_
  cases hk : m[k]? with
  | none =>
    rw [getElem?_insertAll_of_not_mem, ExtTreeMap.getElem?_empty]
    rintro ⟨k', v⟩ hmem rfl
    rw [mem_toList.1 hmem] at hk
    cases hk
  | some v => exact getElem?_insertAll_of_mem keys_nodup (mem_toList.2 hk)

omit [DecidableEq K] in
theorem mem_insertAll {base : ExtTreeMap K V} {entries : List (K × V)} :
    k ∈ insertAll base entries ↔ k ∈ base ∨ k ∈ entries.map Prod.fst := by
  induction entries generalizing base with
  | nil => simp [insertAll]
  | cons entry rest ih =>
    rw [insertAll_cons, ih, ExtTreeMap.mem_insert, Std.compare_eq_iff_eq, List.map_cons, List.mem_cons,
      eq_comm (a := entry.1)]
    tauto

theorem getElem?_insertAll_congr {base base' : ExtTreeMap K V} (h : base[k]? = base'[k]?)
    (entries : List (K × V)) : (insertAll base entries)[k]? = (insertAll base' entries)[k]? := by
  induction entries generalizing base base' with
  | nil => exact h
  | cons entry rest ih =>
    rw [insertAll_cons, insertAll_cons]
    refine ih ?_
    rw [getElem?_insert, getElem?_insert, h]

/-- What is found under a key comes from the entries with keys like it. -/
theorem getElem?_insertAll_filter {base : ExtTreeMap K V} {entries : List (K × V)} {p : K → Bool}
    (hk : p k = true) :
    (insertAll base (entries.filter fun entry => p entry.1))[k]? = (insertAll base entries)[k]? := by
  induction entries generalizing base with
  | nil => rfl
  | cons entry rest ih =>
    rw [List.filter_cons, insertAll_cons, ← ih]
    by_cases hentry : p entry.1 = true
    · rw [if_pos hentry, insertAll_cons]
    · have hne : k ≠ entry.1 := by
        rintro rfl
        exact hentry hk
      rw [if_neg hentry]
      refine getElem?_insertAll_congr ?_ _
      rw [getElem?_insert, if_neg hne]

/-- What is found was written. -/
theorem mem_of_getElem?_insertAll {entries : List (K × V)}
    (h : (insertAll ∅ entries)[k]? = some v) : (k, v) ∈ entries := by
  induction entries using List.reverseRecOn with
  | nil =>
    rw [insertAll, List.foldl_nil, ExtTreeMap.getElem?_empty] at h
    cases h
  | append_singleton entries last ih =>
    rw [insertAll_append, insertAll_cons] at h
    change ((insertAll ∅ entries).insert last.1 last.2)[k]? = some v at h
    rw [getElem?_insert] at h
    split_ifs at h with heq
    · obtain rfl := Option.some.inj h
      exact heq ▸ List.mem_append_right _ (List.mem_singleton.2 rfl)
    · exact List.mem_append_left _ (ih h)

theorem getElem?_insertAll_iff {entries : List (K × V)} (hnodup : (entries.map Prod.fst).Nodup) :
    (insertAll ∅ entries)[k]? = some v ↔ (k, v) ∈ entries :=
  ⟨mem_of_getElem?_insertAll, getElem?_insertAll_of_mem hnodup⟩

/-- The entries of a map with keys of a kind, when those were written once. -/
theorem filter_toList_perm {entries : List (K × V)} {p : K → Bool}
    (hnodup : ((entries.filter fun entry => p entry.1).map Prod.fst).Nodup) :
    ((insertAll ∅ entries).toList.filter fun entry => p entry.1).Perm
      (entries.filter fun entry => p entry.1) := by
  refine (List.perm_ext_iff_of_nodup ((List.Nodup.of_map _ keys_nodup).filter _)
    (List.Nodup.of_map _ hnodup)).2 ?_
  rintro ⟨k, v⟩
  rw [List.mem_filter, mem_toList]
  constructor
  · rintro ⟨hfound, hk⟩
    rw [← getElem?_insertAll_filter hk] at hfound
    exact (getElem?_insertAll_iff hnodup).1 hfound
  · intro hmem
    have hk : p k = true := (List.mem_filter.1 hmem).2
    exact ⟨(getElem?_insertAll_filter hk).symm.trans ((getElem?_insertAll_iff hnodup).2 hmem), hk⟩

/-- No entry with a key of a kind is lost only when those keys are distinct. -/
theorem nodup_of_filter_length {entries : List (K × V)} {p : K → Bool}
    (h : ((insertAll ∅ entries).toList.filter fun entry => p entry.1).length =
      (entries.filter fun entry => p entry.1).length) :
    ((entries.filter fun entry => p entry.1).map Prod.fst).Nodup := by
  have hperm : (((insertAll ∅ entries).toList.filter fun entry => p entry.1).map Prod.fst).Perm
      ((entries.filter fun entry => p entry.1).map Prod.fst).dedup := by
    refine (List.perm_ext_iff_of_nodup ?_ (List.nodup_dedup _)).2 fun k => ?_
    · exact keys_nodup.sublist (List.filter_sublist.map _)
    · have hkey (l : List (K × V)) : k ∈ (l.filter fun entry => p entry.1).map Prod.fst ↔
          p k = true ∧ k ∈ l.map Prod.fst := by
        simp only [List.mem_map, List.mem_filter]
        constructor
        · rintro ⟨entry, ⟨hmem, hp⟩, rfl⟩
          exact ⟨hp, entry, hmem, rfl⟩
        · rintro ⟨hp, entry, hmem, rfl⟩
          exact ⟨entry, ⟨hmem, hp⟩, rfl⟩
      rw [List.mem_dedup, hkey, hkey, ExtTreeMap.map_fst_toList_eq_keys, ExtTreeMap.mem_keys,
        mem_insertAll]
      simp
  have hlength := hperm.length_eq
  rw [List.length_map, h, ← List.length_map (f := Prod.fst)] at hlength
  rw [← (List.dedup_sublist _).eq_of_length hlength.symm]
  exact List.nodup_dedup _

/-! ### Writing once -/

omit [DecidableEq K] in
/-- Entries with distinct new keys are written by a loop that refuses to replace anything. -/
theorem foldlM_insert_of_nodup {ε : Type} {step : ExtTreeMap K V → K × V → Except ε (ExtTreeMap K V)}
    (hstep : ∀ m entry, entry.1 ∉ m → step m entry = Except.ok (m.insert entry.1 entry.2))
    {base : ExtTreeMap K V} {entries : List (K × V)} (hnodup : (entries.map Prod.fst).Nodup)
    (hnew : ∀ k ∈ entries.map Prod.fst, k ∉ base) :
    entries.foldlM step base = Except.ok (insertAll base entries) := by
  induction entries generalizing base with
  | nil => rfl
  | cons entry rest ih =>
    rw [List.map_cons, List.nodup_cons] at hnodup
    rw [List.foldlM_cons, hstep base entry (hnew _ List.mem_cons_self), ok_bind, insertAll_cons]
    refine ih hnodup.2 fun k hk hmem => ?_
    rcases ExtTreeMap.mem_insert.1 hmem with heq | hbase
    · rw [Std.compare_eq_iff_eq] at heq
      exact hnodup.1 (heq ▸ hk)
    · exact hnew k (List.mem_cons_of_mem _ hk) hbase

/-- Such a loop over the entries of a map builds the map again. -/
theorem foldlM_toList {ε : Type} {step : ExtTreeMap K V → K × V → Except ε (ExtTreeMap K V)}
    (hstep : ∀ m entry, entry.1 ∉ m → step m entry = Except.ok (m.insert entry.1 entry.2))
    (m : ExtTreeMap K V) : m.toList.foldlM step ∅ = Except.ok m := by
  rw [foldlM_insert_of_nodup hstep keys_nodup fun k _ => ExtTreeMap.not_mem_empty,
    insertAll_toList]

end

end OrderedMap
