import Mathlib.Data.List.Basic
import Mathlib.Data.List.Nodup
import Mathlib.Tactic.Common
import Std.Data.ExtTreeMap
import Std.Data.ExtTreeSet

/-!
# Ordered maps

Lookups in the maps of the standard library, with keys compared by equality, and recorded changes.

* `values` lists the values of a map in the order of their keys; `indexed` builds a map from values
  that hold their keys.
* `applied` carries out changes that were recorded as a set of deleted keys and a map of written
  entries: deletes first.
* `Tracks` says that the current map is the first one with the recorded changes, every key having
  been changed at most once; deleting or writing an untouched key keeps it.
-/

namespace OrderedMap

open Std

variable {K V : Type} [Ord K] [TransOrd K]

theorem mem_iff {m : ExtTreeMap K V} {k : K} : k ∈ m ↔ ∃ v, m[k]? = some v := by
  rw [ExtTreeMap.mem_iff_isSome_getElem?, Option.isSome_iff_exists]

theorem not_mem_iff {m : ExtTreeMap K V} {k : K} : k ∉ m ↔ m[k]? = none := by
  rw [ExtTreeMap.mem_iff_isSome_getElem?, Option.not_isSome_iff_eq_none]

/-- The values of a map in the order of their keys. -/
def values (m : ExtTreeMap K V) : List V := m.toList.map Prod.snd

theorem values_map {W : Type} {m : ExtTreeMap K V} (f : V → W) :
    values (m.map fun _ v => f v) = (values m).map f := by
  rw [values, ExtTreeMap.toList_map, values, List.map_map, List.map_map]
  rfl

/-- The map of the values under their own keys; of two values with one key, the later one. -/
def indexed (key : V → K) (l : List V) : ExtTreeMap K V := .ofList (l.map fun v => (key v, v))

/-- The values of a map hold their keys. -/
def KeyedBy (key : V → K) (m : ExtTreeMap K V) : Prop :=
  ∀ (k : K) (v : V), m[k]? = some v → key v = k

variable [LawfulEqOrd K]

theorem mem_toList {m : ExtTreeMap K V} {entry : K × V} :
    entry ∈ m.toList ↔ m[entry.1]? = some entry.2 :=
  ExtTreeMap.mem_toList_iff_getElem?_eq_some

/-- A key occurs once in a map. -/
theorem keys_nodup {m : ExtTreeMap K V} : (m.toList.map Prod.fst).Nodup :=
  List.pairwise_map.2 (ExtTreeMap.distinct_keys_toList.imp fun h heq =>
    h (Std.compare_eq_iff_eq.2 heq))

theorem mem_values {m : ExtTreeMap K V} {v : V} : v ∈ values m ↔ ∃ k : K, m[k]? = some v := by
  simp only [values, List.mem_map, Prod.exists, mem_toList, exists_eq_right]

theorem mem_insert {s : ExtTreeSet K} {k key : K} : key ∈ s.insert k ↔ key = k ∨ key ∈ s := by
  rw [ExtTreeSet.mem_insert, Std.compare_eq_iff_eq, eq_comm]

theorem insert_of_mem {s : ExtTreeSet K} {k : K} (h : k ∈ s) : s.insert k = s :=
  ExtTreeSet.ext_mem fun key => by
    rw [mem_insert]
    exact or_iff_right_of_imp fun heq => heq ▸ h

theorem erase_of_none {m : ExtTreeMap K V} {k : K} (h : m[k]? = none) : m.erase k = m := by
  refine ExtTreeMap.ext_getElem? fun key => ?_
  rw [ExtTreeMap.getElem?_erase]
  split_ifs with heq
  · rw [← Std.compare_eq_iff_eq.1 heq, h]
  · rfl

theorem insertIfNew_of_none {m : ExtTreeMap K V} {k : K} {v : V} (h : m[k]? = none) :
    m.insertIfNew k v = m.insert k v := by
  refine ExtTreeMap.ext_getElem? fun key => ?_
  rw [ExtTreeMap.getElem?_insertIfNew, ExtTreeMap.getElem?_insert]
  simp only [not_mem_iff.2 h, not_false_eq_true, and_true]

theorem insertIfNew_of_some {m : ExtTreeMap K V} {k : K} {v known : V} (h : m[k]? = some known) :
    m.insertIfNew k v = m := by
  refine ExtTreeMap.ext_getElem? fun key => ?_
  rw [ExtTreeMap.getElem?_insertIfNew, if_neg]
  rintro ⟨-, habsent⟩
  exact habsent (mem_iff.2 ⟨known, h⟩)

/-- A map is the map of its entries. -/
theorem ofList_toList [DecidableEq K] (m : ExtTreeMap K V) : ExtTreeMap.ofList m.toList = m := by
  refine ExtTreeMap.ext_getElem? fun k => ?_
  cases hk : m[k]? with
  | none =>
    refine ExtTreeMap.getElem?_ofList_of_contains_eq_false ?_
    rw [ExtTreeMap.map_fst_toList_eq_keys, List.contains_eq_mem, decide_eq_false_iff_not,
      ExtTreeMap.mem_keys]
    exact not_mem_iff.2 hk
  | some v =>
    exact ExtTreeMap.getElem?_ofList_of_mem compare_self ExtTreeMap.distinct_keys_toList
      (mem_toList.2 hk)

/-- What is found under a key, when the keys are distinct. -/
theorem getElem?_indexed [DecidableEq K] {key : V → K} {l : List V} (h : (l.map key).Nodup) {k : K}
    {v : V} : (indexed key l)[k]? = some v ↔ v ∈ l ∧ key v = k := by
  have hdistinct : (l.map fun v => (key v, v)).Pairwise fun a b => ¬ compare a.1 b.1 = .eq :=
    List.pairwise_map.2 ((List.pairwise_map.1 h).imp fun hne heq =>
      hne (Std.compare_eq_iff_eq.1 heq))
  have hfound {w : V} (hw : w ∈ l) : (indexed key l)[key w]? = some w :=
    ExtTreeMap.getElem?_ofList_of_mem compare_self hdistinct (List.mem_map.2 ⟨w, hw, rfl⟩)
  constructor
  · intro hk
    by_cases hmem : k ∈ l.map key
    · obtain ⟨w, hw, rfl⟩ := List.mem_map.1 hmem
      obtain rfl := Option.some.inj (hk.symm.trans (hfound hw))
      exact ⟨hw, rfl⟩
    · rw [indexed, ExtTreeMap.getElem?_ofList_of_contains_eq_false] at hk
      · cases hk
      · rw [List.map_map, List.contains_eq_mem, decide_eq_false_iff_not]
        exact hmem
  · rintro ⟨hv, rfl⟩
    exact hfound hv

/-- A map whose values hold their keys is the map of its values. -/
theorem indexed_values [DecidableEq K] {key : V → K} {m : ExtTreeMap K V} (h : KeyedBy key m) :
    indexed key (values m) = m := by
  have hentries : (values m).map (fun v => (key v, v)) = m.toList := by
    rw [values, List.map_map]
    refine (List.map_congr_left fun entry hmem => ?_).trans (List.map_id _)
    rw [Function.comp_apply, h entry.1 entry.2 (mem_toList.1 hmem), id]
  rw [indexed, hentries, ofList_toList]

/-- The same for values that are changed without their keys. -/
theorem indexed_map_values [DecidableEq K] {key : V → K} {m : ExtTreeMap K V} (f : V → V)
    (hf : ∀ v, key (f v) = key v) (h : KeyedBy key m) :
    indexed key ((values m).map f) = m.map fun _ v => f v := by
  rw [← values_map, indexed_values]
  intro k v hv
  rw [ExtTreeMap.getElem?_map, Option.map_eq_some_iff] at hv
  obtain ⟨w, hw, rfl⟩ := hv
  rw [hf, h k w hw]

/-! ### Recorded changes -/

section Changes

variable [DecidableEq K] {base current upserts : ExtTreeMap K V} {deletes : ExtTreeSet K}
  {touched touched' : K → Prop} {k key : K} {v : V}

theorem getElem?_insert : (base.insert k v)[key]? = if key = k then some v else base[key]? := by
  simp only [ExtTreeMap.getElem?_insert, Std.compare_eq_iff_eq, eq_comm (a := k)]

theorem getElem?_erase : (base.erase k)[key]? = if key = k then none else base[key]? := by
  simp only [ExtTreeMap.getElem?_erase, Std.compare_eq_iff_eq, eq_comm (a := k)]

theorem KeyedBy.erase {id : V → K} (h : KeyedBy id base) : KeyedBy id (base.erase k) := by
  intro key v hv
  rw [getElem?_erase] at hv
  split_ifs at hv
  exact h key v hv

theorem KeyedBy.insert {id : V → K} (h : KeyedBy id base) : KeyedBy id (base.insert (id v) v) := by
  intro key w hw
  rw [getElem?_insert] at hw
  split_ifs at hw with hkey
  · rw [← Option.some.inj hw, hkey]
  · exact h key w hw

theorem KeyedBy.insertIfNew {id : V → K} (h : KeyedBy id base) :
    KeyedBy id (base.insertIfNew (id v) v) := by
  cases hknown : base[id v]? with
  | none =>
    rw [insertIfNew_of_none hknown]
    exact h.insert
  | some known => rwa [insertIfNew_of_some hknown]

/-- Erases keys one by one. -/
def eraseAll (base : ExtTreeMap K V) (keys : List K) : ExtTreeMap K V :=
  keys.foldl (fun m key => m.erase key) base

/-- Writes entries one by one. -/
def insertAll (base : ExtTreeMap K V) (entries : List (K × V)) : ExtTreeMap K V :=
  entries.foldl (fun m entry => m.insert entry.1 entry.2) base

/-- Carries out recorded changes: deletes first, then upserts. -/
def applied (base : ExtTreeMap K V) (deletes : ExtTreeSet K) (upserts : ExtTreeMap K V) :
    ExtTreeMap K V :=
  insertAll (eraseAll base deletes.toList) upserts.toList

theorem getElem?_eraseAll {keys : List K} :
    (eraseAll base keys)[key]? = if key ∈ keys then none else base[key]? := by
  induction keys generalizing base with
  | nil => simp [eraseAll]
  | cons k rest ih =>
    rw [show eraseAll base (k :: rest) = eraseAll (base.erase k) rest from rfl, ih,
      getElem?_erase]
    by_cases hrest : key ∈ rest <;> by_cases hk : key = k <;> simp [hrest, hk]

theorem getElem?_insertAll_of_not_mem {entries : List (K × V)}
    (h : ∀ entry ∈ entries, entry.1 ≠ key) : (insertAll base entries)[key]? = base[key]? := by
  induction entries generalizing base with
  | nil => rfl
  | cons entry rest ih =>
    rw [show insertAll base (entry :: rest) = insertAll (base.insert entry.1 entry.2) rest from rfl,
      ih fun other hmem => h other (List.mem_cons_of_mem entry hmem), getElem?_insert,
      if_neg fun heq => h entry List.mem_cons_self heq.symm]

theorem getElem?_insertAll_of_mem {entries : List (K × V)} (hnodup : (entries.map Prod.fst).Nodup)
    (hmem : (key, v) ∈ entries) : (insertAll base entries)[key]? = some v := by
  induction entries generalizing base with
  | nil => cases hmem
  | cons entry rest ih =>
    rw [show insertAll base (entry :: rest) = insertAll (base.insert entry.1 entry.2) rest from rfl]
    rw [List.map_cons, List.nodup_cons] at hnodup
    rcases List.mem_cons.1 hmem with rfl | hrest
    · rw [getElem?_insertAll_of_not_mem fun other hother heq => hnodup.1
        (List.mem_map.2 ⟨other, hother, heq⟩), getElem?_insert, if_pos rfl]
    · exact ih hnodup.2 hrest

theorem getElem?_applied : (applied base deletes upserts)[key]? =
    (upserts[key]?).or (if key ∈ deletes then none else base[key]?) := by
  cases hupsert : upserts[key]? with
  | some v =>
    exact getElem?_insertAll_of_mem keys_nodup (mem_toList.2 hupsert)
  | none =>
    rw [applied, getElem?_insertAll_of_not_mem, getElem?_eraseAll, Option.none_or]
    · simp only [ExtTreeSet.mem_toList]
    · rintro ⟨k, v⟩ hmem rfl
      exact absurd ((mem_toList.1 hmem).symm.trans hupsert) (by simp)

/-- The current map is the base with the recorded changes, and every change was to a touched key. -/
structure Tracks (base current : ExtTreeMap K V) (deletes : ExtTreeSet K)
    (upserts : ExtTreeMap K V) (touched : K → Prop) : Prop where
  current_eq : current = applied base deletes upserts
  deleted : ∀ k ∈ deletes, touched k
  upserted : ∀ k ∈ upserts, touched k
  disjoint : ∀ k ∈ deletes, k ∉ upserts

theorem Tracks.start : Tracks base base ∅ ∅ touched where
  current_eq := by
    refine ExtTreeMap.ext_getElem? fun k => ?_
    simp [getElem?_applied]
  deleted k hk := absurd hk ExtTreeSet.not_mem_empty
  upserted k hk := absurd hk ExtTreeMap.not_mem_empty
  disjoint k hk := absurd hk ExtTreeSet.not_mem_empty

omit [LawfulEqOrd K] [DecidableEq K] in
theorem Tracks.mono (h : Tracks base current deletes upserts touched)
    (hsub : ∀ k, touched k → touched' k) : Tracks base current deletes upserts touched' :=
  { h with
    deleted := fun k hk => hsub k (h.deleted k hk)
    upserted := fun k hk => hsub k (h.upserted k hk) }

theorem Tracks.lookup (h : Tracks base current deletes upserts touched) : current[key]? =
    (upserts[key]?).or (if key ∈ deletes then none else base[key]?) := by
  rw [h.current_eq, getElem?_applied]

/-- An untouched key has its first value. -/
theorem Tracks.untouched (h : Tracks base current deletes upserts touched) (hkey : ¬ touched key) :
    current[key]? = base[key]? := by
  rw [h.lookup, not_mem_iff.1 fun hmem => hkey (h.upserted key hmem), Option.none_or,
    if_neg fun hmem => hkey (h.deleted key hmem)]

/-- A key that was not written is deleted or has its first value. -/
theorem Tracks.of_not_upserted (h : Tracks base current deletes upserts touched)
    (hkey : key ∉ upserts) : current[key]? = if key ∈ deletes then none else base[key]? := by
  rw [h.lookup, not_mem_iff.1 hkey, Option.none_or]

/-- A written key has the recorded value. -/
theorem Tracks.of_upserted (h : Tracks base current deletes upserts touched)
    (hkey : upserts[key]? = some v) : current[key]? = some v := by
  rw [h.lookup, hkey, Option.some_or]

theorem Tracks.delete (h : Tracks base current deletes upserts touched) (hk : ¬ touched k) :
    Tracks base (current.erase k) (deletes.insert k) upserts fun key => key = k ∨ touched key where
  current_eq := by
    have hnone : upserts[k]? = none := not_mem_iff.1 fun hmem => hk (h.upserted k hmem)
    refine ExtTreeMap.ext_getElem? fun key => ?_
    rw [getElem?_erase, getElem?_applied, h.lookup]
    by_cases hkey : key = k
    · rw [if_pos hkey, hkey, hnone, Option.none_or, if_pos (mem_insert.2 (Or.inl rfl))]
    · rw [if_neg hkey]
      simp only [mem_insert, hkey, false_or]
  deleted key hkey := (mem_insert.1 hkey).imp_right (h.deleted key)
  upserted key hkey := Or.inr (h.upserted key hkey)
  disjoint key hkey := by
    rcases mem_insert.1 hkey with rfl | hkey
    · exact fun hmem => hk (h.upserted _ hmem)
    · exact h.disjoint key hkey

theorem Tracks.upsert (h : Tracks base current deletes upserts touched) (hk : ¬ touched k) :
    Tracks base (current.insert k v) deletes (upserts.insert k v)
      fun key => key = k ∨ touched key where
  current_eq := by
    refine ExtTreeMap.ext_getElem? fun key => ?_
    rw [getElem?_insert, getElem?_applied, getElem?_insert, h.lookup]
    by_cases hkey : key = k
    · rw [if_pos hkey, if_pos hkey, Option.some_or]
    · rw [if_neg hkey, if_neg hkey]
  deleted key hkey := Or.inr (h.deleted key hkey)
  upserted key hkey := by
    rw [ExtTreeMap.mem_insert, Std.compare_eq_iff_eq, eq_comm] at hkey
    exact hkey.imp_right (h.upserted key)
  disjoint key hkey := by
    rw [ExtTreeMap.mem_insert, Std.compare_eq_iff_eq, eq_comm, not_or]
    refine ⟨?_, h.disjoint key hkey⟩
    rintro rfl
    exact hk (h.deleted _ hkey)

/-- Every recorded change is to an allowed key. -/
structure ChangesOnly (deletes : ExtTreeSet K) (upserts : ExtTreeMap K V) (allowed : K → Prop) :
    Prop where
  deleted : ∀ k ∈ deletes, allowed k
  upserted : ∀ k ∈ upserts, allowed k

variable {allowed allowed' : K → Prop}

omit [LawfulEqOrd K] [DecidableEq K] in
theorem ChangesOnly.start : ChangesOnly (∅ : ExtTreeSet K) (∅ : ExtTreeMap K V) allowed where
  deleted _ hk := absurd hk ExtTreeSet.not_mem_empty
  upserted _ hk := absurd hk ExtTreeMap.not_mem_empty

omit [LawfulEqOrd K] [DecidableEq K] in
theorem ChangesOnly.mono (h : ChangesOnly deletes upserts allowed)
    (hsub : ∀ k, allowed k → allowed' k) : ChangesOnly deletes upserts allowed' where
  deleted k hk := hsub k (h.deleted k hk)
  upserted k hk := hsub k (h.upserted k hk)

omit [DecidableEq K] in
theorem ChangesOnly.delete (h : ChangesOnly deletes upserts allowed) (hk : allowed k) :
    ChangesOnly (deletes.insert k) upserts allowed where
  deleted key hkey := by
    rcases mem_insert.1 hkey with rfl | hkey
    · exact hk
    · exact h.deleted key hkey
  upserted := h.upserted

omit [DecidableEq K] in
theorem ChangesOnly.upsert (h : ChangesOnly deletes upserts allowed) (hk : allowed k) :
    ChangesOnly deletes (upserts.insert k v) allowed where
  deleted := h.deleted
  upserted key hkey := by
    rw [ExtTreeMap.mem_insert, Std.compare_eq_iff_eq, eq_comm] at hkey
    rcases hkey with rfl | hkey
    · exact hk
    · exact h.upserted key hkey

/-- A key that must not change has its first value. -/
theorem Tracks.kept (h : Tracks base current deletes upserts touched)
    (honly : ChangesOnly deletes upserts allowed) (hkey : ¬ allowed key) :
    current[key]? = base[key]? :=
  Tracks.untouched { h with deleted := honly.deleted, upserted := honly.upserted } hkey

/-! With names for the keys: the touched keys are those with a touched name. -/

variable {N : Type} {name : K → N} {named : N → Prop}

theorem Tracks.delete_named (h : Tracks base current deletes upserts fun key => named (name key))
    (hk : ¬ named (name k)) :
    Tracks base (current.erase k) (deletes.insert k) upserts
      fun key => name key = name k ∨ named (name key) :=
  (h.delete hk).mono fun _ => Or.imp_left (congrArg name)

theorem Tracks.upsert_named (h : Tracks base current deletes upserts fun key => named (name key))
    (hk : ¬ named (name k)) :
    Tracks base (current.insert k v) deletes (upserts.insert k v)
      fun key => name key = name k ∨ named (name key) :=
  (h.upsert hk).mono fun _ => Or.imp_left (congrArg name)

end Changes

end OrderedMap
