import Depgraph.Protocol.Graph
import Depgraph.Store.Record
import Mathlib.Data.List.Perm.Lattice

/-!
# Differences of two lists of records

`diff_records` sorts the records of both sides by their identities and joins them.

* `diffLoop_mirror`: the other direction gives the mirror image.
* `Compares` says what the difference consists of, and `diffRecords_compares` that this is what is
  computed; `diffRecords_congr` that the order of the records does not matter.
* `Compares.same`: applying the difference to the first list gives the second.
-/

namespace Store

open Json Protocol Fallible SortDedup Lookup

variable {T : Type} [SnapshotRecord T]

structure ChangedRecord (T : Type) where
  id : String
  changedFields : List String
  before : T
  after : T

structure RecordDiff (T : Type) where
  added : List T
  removed : List T
  changed : List (ChangedRecord T)

def changedFields (before after : T) : List String :=
  let before := SnapshotRecord.members before
  let after := SnapshotRecord.members after
  (exact id ((before ++ after).map Prod.fst)).filter fun field =>
    before.lookup field != after.lookup field

/-- The loop of `diff_records`. -/
def diffLoop : List (String × T) → List (String × T) → RecordDiff T
  | [], to' => ⟨to'.map Prod.snd, [], []⟩
  | before :: from', [] => ⟨[], (before :: from').map Prod.snd, []⟩
  | before :: from', after :: to' =>
    if before.1 < after.1 then
      let rest := diffLoop from' (after :: to')
      { rest with removed := before.2 :: rest.removed }
    else if after.1 < before.1 then
      let rest := diffLoop (before :: from') to'
      { rest with added := after.2 :: rest.added }
    else
      let rest := diffLoop from' to'
      if before.2 != after.2 then
        { rest with changed :=
            ⟨before.1, changedFields before.2 after.2, before.2, after.2⟩ :: rest.changed }
      else rest
termination_by from' to' => from'.length + to'.length

def ensureUniqueKeys : List (String × T) → Except String Unit
  | first :: second :: rest =>
    if first.1 = second.1 then
      .error ("snapshot diff input contains duplicate identity " ++ debugStr first.1)
    else ensureUniqueKeys (second :: rest)
  | _ => .ok ()

/-- `keyed_records`, sorted by the identity. -/
def keyedRecords (identity : T → String) (records : List T) : List (String × T) :=
  sortByKey Prod.fst (records.map fun record => (identity record, record))

def diffRecords (identity : T → String) (from' to' : List T) : Except String (RecordDiff T) := do
  let from' := keyedRecords identity from'
  let to' := keyedRecords identity to'
  ensureUniqueKeys from'
  ensureUniqueKeys to'
  return diffLoop from' to'

/-! ### The other direction -/

def ChangedRecord.mirror (c : ChangedRecord T) : ChangedRecord T :=
  ⟨c.id, c.changedFields, c.after, c.before⟩

/-- The difference in the other direction. -/
def RecordDiff.mirror (d : RecordDiff T) : RecordDiff T :=
  ⟨d.removed, d.added, d.changed.map ChangedRecord.mirror⟩

theorem changedFields_comm (before after : T) :
    changedFields before after = changedFields after before := by
  have hfields :
      exact id ((SnapshotRecord.members before ++ SnapshotRecord.members after).map Prod.fst) =
        exact id ((SnapshotRecord.members after ++ SnapshotRecord.members before).map Prod.fst) :=
    exact_congr Function.injective_id fun a => by simp [or_comm]
  simp only [changedFields, hfields]
  refine List.filter_congr fun field _ => ?_
  rw [bne, bne, CommBEq.comm]

theorem bne_comm (before after : T) : (before != after) = (after != before) := by
  rw [bne, bne, CommBEq.comm]

section Loop

variable {before after : String × T} {from' to' : List (String × T)}

theorem diffLoop_less (h : before.1 < after.1) :
    diffLoop (before :: from') (after :: to') =
      { diffLoop from' (after :: to') with
        removed := before.2 :: (diffLoop from' (after :: to')).removed } := by
  rw [diffLoop, if_pos h]

theorem diffLoop_greater (h : after.1 < before.1) :
    diffLoop (before :: from') (after :: to') =
      { diffLoop (before :: from') to' with
        added := after.2 :: (diffLoop (before :: from') to').added } := by
  rw [diffLoop, if_neg h.not_gt, if_pos h]

/-- What the loop records of two records with one identity. -/
def recordChange (id : String) (before after : T) (rest : RecordDiff T) : RecordDiff T :=
  if before != after then
    { rest with changed := ⟨id, changedFields before after, before, after⟩ :: rest.changed }
  else rest

theorem diffLoop_equal (h : before.1 = after.1) :
    diffLoop (before :: from') (after :: to') =
      recordChange before.1 before.2 after.2 (diffLoop from' to') := by
  rw [diffLoop, if_neg (h ▸ lt_irrefl _), if_neg (h ▸ lt_irrefl _)]
  rfl

theorem recordChange_mirror (id : String) (before after : T) (rest : RecordDiff T) :
    recordChange id after before rest.mirror = (recordChange id before after rest).mirror := by
  unfold recordChange
  rw [bne_comm after before, changedFields_comm after before]
  split_ifs <;> rfl

/-- **The loop is symmetric.** -/
theorem diffLoop_mirror (from' to' : List (String × T)) :
    diffLoop to' from' = (diffLoop from' to').mirror := by
  induction from', to' using diffLoop.induct with
  | case1 to' => cases to' <;> simp [diffLoop, RecordDiff.mirror]
  | case2 before from' => simp [diffLoop, RecordDiff.mirror]
  | case3 before from' after to' hlt ih =>
    rw [diffLoop_greater hlt, diffLoop_less hlt, ih]
    rfl
  | case4 before from' after to' hge hlt ih =>
    rw [diffLoop_less hlt, diffLoop_greater hlt, ih]
    rfl
  | case5 before from' after to' hge hle hne ih | case6 before from' after to' hge hle heq ih =>
    have hid : before.1 = after.1 := le_antisymm (not_lt.1 hle) (not_lt.1 hge)
    rw [diffLoop_equal hid, diffLoop_equal hid.symm, ih, ← hid, recordChange_mirror]

/-! ### What the loop finds -/

/-- The identities of a keyed list increase. -/
def Increasing (l : List (String × T)) : Prop := l.Pairwise fun a b => a.1 < b.1

omit [SnapshotRecord T] in
theorem Increasing.ne_of_lt {l : List (String × T)} {k : String} (h : Increasing (after :: l))
    (hk : k < after.1) : ∀ entry ∈ after :: l, entry.1 ≠ k := by
  intro entry hentry
  rcases List.mem_cons.1 hentry with rfl | hentry
  · exact hk.ne'
  · exact (hk.trans (List.rel_of_pairwise_cons h hentry)).ne'

omit [SnapshotRecord T] in
theorem Increasing.ne_head {l : List (String × T)} (h : Increasing (after :: l)) :
    ∀ entry ∈ l, entry.1 ≠ after.1 := fun _ hentry => (List.rel_of_pairwise_cons h hentry).ne'

/-- No record of the list has this identity. -/
def absent (l : List (String × T)) (id : String) : Bool := (l.lookup id).isNone

/-- **The removed records are those on the left side only**, in the order of their identities. -/
theorem removed_loop (hfrom : Increasing from') (hto : Increasing to') :
    (diffLoop from' to').removed =
      (from'.filter fun entry => absent to' entry.1).map Prod.snd := by
  induction from', to' using diffLoop.induct with
  | case1 to' => simp [diffLoop]
  | case2 before from' => simp [diffLoop, absent]
  | case3 before from' after to' hlt ih =>
    have habsent : absent (after :: to') before.1 = true :=
      Option.isNone_iff_eq_none.2 (lookup_eq_none (hto.ne_of_lt hlt))
    have hfilter := List.filter_cons_of_pos (p := fun entry => absent (after :: to') entry.1)
      (a := before) (l := from') habsent
    rw [diffLoop_less hlt, ih hfrom.of_cons hto, hfilter, List.map_cons]
  | case4 before from' after to' hge hlt ih =>
    rw [diffLoop_greater hlt, ih hfrom hto.of_cons]
    refine congrArg (List.map Prod.snd) (List.filter_congr fun entry hentry => ?_)
    rw [absent, absent, lookup_cons_of_ne (hfrom.ne_of_lt hlt entry hentry)]
  | case5 before from' after to' hge hle hne ih | case6 before from' after to' hge hle heq ih =>
    have hid : before.1 = after.1 := le_antisymm (not_lt.1 hle) (not_lt.1 hge)
    have hrest : (diffLoop (before :: from') (after :: to')).removed =
        (diffLoop from' to').removed := by
      rw [diffLoop_equal hid, recordChange]
      split_ifs
      rfl
    have hpresent : absent (after :: to') before.1 = false := by
      rw [absent, hid, lookup_cons_self]
      rfl
    have hfilter := List.filter_cons_of_neg (p := fun entry => absent (after :: to') entry.1)
      (a := before) (l := from') (by rw [hpresent]; decide)
    rw [hrest, ih hfrom.of_cons hto.of_cons, hfilter]
    refine congrArg (List.map Prod.snd) (List.filter_congr fun entry hentry => ?_)
    rw [absent, absent, lookup_cons_of_ne (hid ▸ hfrom.ne_head entry hentry)]

/-- What is recorded of a record of the left side that has a counterpart. -/
def changeOf (to' : List (String × T)) (before : String × T) : Option (ChangedRecord T) :=
  (to'.lookup before.1).bind fun after =>
    if before.2 != after then
      some ⟨before.1, changedFields before.2 after, before.2, after⟩
    else none

/-- **The changed records are those with a different counterpart.** -/
theorem changed_loop (hfrom : Increasing from') (hto : Increasing to') :
    (diffLoop from' to').changed = from'.filterMap (changeOf to') := by
  induction from', to' using diffLoop.induct with
  | case1 to' => simp [diffLoop]
  | case2 before from' =>
    rw [diffLoop]
    exact (List.filterMap_eq_nil_iff.2 fun entry _ => rfl).symm
  | case3 before from' after to' hlt ih =>
    have hnone : changeOf (after :: to') before = none := by
      rw [changeOf, lookup_eq_none (hto.ne_of_lt hlt), Option.bind_none]
    rw [diffLoop_less hlt, ih hfrom.of_cons hto, List.filterMap_cons_none hnone]
  | case4 before from' after to' hge hlt ih =>
    rw [diffLoop_greater hlt, ih hfrom hto.of_cons]
    refine List.filterMap_congr fun entry hentry => ?_
    rw [changeOf, changeOf, lookup_cons_of_ne (hfrom.ne_of_lt hlt entry hentry)]
  | case5 before from' after to' hge hle hne ih | case6 before from' after to' hge hle heq ih =>
    have hid : before.1 = after.1 := le_antisymm (not_lt.1 hle) (not_lt.1 hge)
    have hrest : from'.filterMap (changeOf (after :: to')) = from'.filterMap (changeOf to') := by
      refine List.filterMap_congr fun entry hentry => ?_
      rw [changeOf, changeOf, lookup_cons_of_ne (hid ▸ hfrom.ne_head entry hentry)]
    have hlookup : (after :: to').lookup before.1 = some after.2 := by
      rw [hid, lookup_cons_self]
    rw [diffLoop_equal hid, recordChange, List.filterMap_cons, hrest,
      ← ih hfrom.of_cons hto.of_cons, changeOf, hlookup, Option.bind_some]
    split_ifs
    rfl

end Loop

/-! ### Records with distinct identities -/

section Compare

variable {identity : T → String} {from' to' : List T}

omit [SnapshotRecord T] in
theorem keyedRecords_increasing (h : (from'.map identity).Nodup) :
    Increasing (keyedRecords identity from') :=
  sortByKey_strict Prod.fst (by rwa [List.map_map])

omit [SnapshotRecord T] in
theorem mem_keyedRecords {entry : String × T} :
    entry ∈ keyedRecords identity from' ↔ entry.2 ∈ from' ∧ entry.1 = identity entry.2 := by
  rw [keyedRecords, mem_sortByKey, List.mem_map]
  constructor
  · rintro ⟨record, hmem, rfl⟩
    exact ⟨hmem, rfl⟩
  · rintro ⟨hmem, hid⟩
    exact ⟨entry.2, hmem, Prod.ext hid.symm rfl⟩

omit [SnapshotRecord T] in
theorem ensureUniqueKeys_of_increasing {l : List (String × T)} (h : Increasing l) :
    ensureUniqueKeys l = .ok () := by
  induction l using ensureUniqueKeys.induct with
  | case1 first second rest heq =>
    exact absurd heq (List.rel_of_pairwise_cons h List.mem_cons_self).ne
  | case2 first second rest hne ih =>
    rw [ensureUniqueKeys, if_neg hne]
    exact ih h.of_cons
  | case3 l hl =>
    unfold ensureUniqueKeys
    split
    · next first second rest => exact absurd rfl (hl first second rest)
    · rfl

/-- **Records with distinct identities are compared**, by the loop over the sorted lists. -/
theorem diffRecords_eq (hfrom : (from'.map identity).Nodup) (hto : (to'.map identity).Nodup) :
    diffRecords identity from' to' =
      .ok (diffLoop (keyedRecords identity from') (keyedRecords identity to')) := by
  unfold diffRecords
  refine (bind_of_ok (ensureUniqueKeys_of_increasing (keyedRecords_increasing hfrom)) _).trans ?_
  exact bind_of_ok (ensureUniqueKeys_of_increasing (keyedRecords_increasing hto)) _

/-- What the difference of two lists of records consists of. -/
structure Compares (identity : T → String) (from' to' : List T) (d : RecordDiff T) : Prop where
  mem_removed : ∀ r, r ∈ d.removed ↔ r ∈ from' ∧ ∀ s ∈ to', identity s ≠ identity r
  mem_added : ∀ r, r ∈ d.added ↔ r ∈ to' ∧ ∀ s ∈ from', identity s ≠ identity r
  mem_changed : ∀ c, c ∈ d.changed ↔ ∃ before ∈ from', ∃ after ∈ to',
    identity before = identity after ∧ (before != after) = true ∧
      c = ⟨identity before, changedFields before after, before, after⟩
  removed_nodup : (d.removed.map identity).Nodup
  added_nodup : (d.added.map identity).Nodup
  changed_nodup : (d.changed.map ChangedRecord.id).Nodup

omit [SnapshotRecord T] in
theorem keyedRecords_lookup (h : (to'.map identity).Nodup) {id : String} {record : T} :
    (keyedRecords identity to').lookup id = some record ↔
      record ∈ to' ∧ identity record = id := by
  have hnodup : ((keyedRecords identity to').map Prod.fst).Nodup :=
    List.pairwise_map.2 ((keyedRecords_increasing h).imp ne_of_lt)
  rw [lookup_eq_some_iff hnodup, mem_keyedRecords]
  exact and_congr_right fun _ => eq_comm

omit [SnapshotRecord T] in
theorem keyedRecords_absent {id : String} :
    absent (keyedRecords identity to') id = true ↔ ∀ s ∈ to', identity s ≠ id := by
  rw [absent, Option.isNone_iff_eq_none, List.lookup_eq_none_iff]
  constructor
  · intro h s hs
    exact (bne_iff_ne.1 (h (identity s, s) (mem_keyedRecords.2 ⟨hs, rfl⟩))).symm
  · intro h entry hentry
    obtain ⟨hmem, hid⟩ := mem_keyedRecords.1 hentry
    exact bne_iff_ne.2 (hid ▸ (h entry.2 hmem).symm)

theorem mem_removed_keyed (hfrom : (from'.map identity).Nodup) (hto : (to'.map identity).Nodup)
    (r : T) : r ∈ (diffLoop (keyedRecords identity from') (keyedRecords identity to')).removed ↔
      r ∈ from' ∧ ∀ s ∈ to', identity s ≠ identity r := by
  rw [removed_loop (keyedRecords_increasing hfrom) (keyedRecords_increasing hto), List.mem_map]
  simp only [List.mem_filter, mem_keyedRecords, keyedRecords_absent]
  constructor
  · rintro ⟨entry, ⟨⟨hmem, hid⟩, hnone⟩, rfl⟩
    exact ⟨hmem, hid ▸ hnone⟩
  · rintro ⟨hmem, hnone⟩
    exact ⟨(identity r, r), ⟨⟨hmem, rfl⟩, hnone⟩, rfl⟩

theorem removed_keyed_nodup (hfrom : (from'.map identity).Nodup)
    (hto : (to'.map identity).Nodup) :
    ((diffLoop (keyedRecords identity from') (keyedRecords identity to')).removed.map
      identity).Nodup := by
  rw [removed_loop (keyedRecords_increasing hfrom) (keyedRecords_increasing hto), List.map_map]
  have hkeys : ((keyedRecords identity from').map Prod.fst).Nodup :=
    List.pairwise_map.2 ((keyedRecords_increasing hfrom).imp ne_of_lt)
  refine (List.map_congr_left fun entry hentry => ?_) ▸
    hkeys.sublist (List.filter_sublist.map Prod.fst)
  exact (mem_keyedRecords.1 (List.mem_filter.1 hentry).1).2

theorem mem_changed_keyed (hfrom : (from'.map identity).Nodup) (hto : (to'.map identity).Nodup)
    (c : ChangedRecord T) :
    c ∈ (diffLoop (keyedRecords identity from') (keyedRecords identity to')).changed ↔
      ∃ before ∈ from', ∃ after ∈ to', identity before = identity after ∧
        (before != after) = true ∧
          c = ⟨identity before, changedFields before after, before, after⟩ := by
  rw [changed_loop (keyedRecords_increasing hfrom) (keyedRecords_increasing hto),
    List.mem_filterMap]
  constructor
  · rintro ⟨entry, hentry, hchange⟩
    obtain ⟨hmem, hid⟩ := mem_keyedRecords.1 hentry
    obtain ⟨after, hlookup, hchange⟩ := Option.bind_eq_some_iff.1 hchange
    obtain ⟨hafter, hsame⟩ := (keyedRecords_lookup hto).1 hlookup
    split_ifs at hchange with hne
    refine ⟨entry.2, hmem, after, hafter, (hsame.trans hid).symm, hne, ?_⟩
    rw [← Option.some.inj hchange, hid]
  · rintro ⟨before, hbefore, after, hafter, hid, hne, rfl⟩
    refine ⟨(identity before, before), mem_keyedRecords.2 ⟨hbefore, rfl⟩, ?_⟩
    rw [changeOf, (keyedRecords_lookup hto).2 ⟨hafter, hid.symm⟩, Option.bind_some, if_pos hne]

theorem changed_keyed_nodup (hfrom : (from'.map identity).Nodup)
    (hto : (to'.map identity).Nodup) :
    ((diffLoop (keyedRecords identity from') (keyedRecords identity to')).changed.map
      ChangedRecord.id).Nodup := by
  rw [changed_loop (keyedRecords_increasing hfrom) (keyedRecords_increasing hto)]
  have hincreasing := keyedRecords_increasing hfrom
  refine List.pairwise_map.2 (List.Pairwise.filterMap _ (fun a b hab c hc d hd => ?_) hincreasing)
  have hid {entry : String × T} {c : ChangedRecord T}
      (hc : c ∈ changeOf (keyedRecords identity to') entry) : c.id = entry.1 := by
    obtain ⟨after, -, hchange⟩ := Option.bind_eq_some_iff.1 hc
    split_ifs at hchange
    rw [← Option.some.inj hchange]
  rw [hid hc, hid hd]
  exact hab.ne

/-- **The difference of two lists of records with distinct identities.** -/
theorem diffRecords_compares (hfrom : (from'.map identity).Nodup)
    (hto : (to'.map identity).Nodup) :
    ∃ d, diffRecords identity from' to' = .ok d ∧ Compares identity from' to' d := by
  have hmirror := diffLoop_mirror (keyedRecords identity to') (keyedRecords identity from')
  refine ⟨_, diffRecords_eq hfrom hto, mem_removed_keyed hfrom hto, fun r => ?_,
    mem_changed_keyed hfrom hto, removed_keyed_nodup hfrom hto, ?_, changed_keyed_nodup hfrom hto⟩
  · rw [hmirror]
    exact mem_removed_keyed hto hfrom r
  · rw [hmirror]
    exact removed_keyed_nodup hto hfrom

/-- The difference in the other direction is the mirror image. -/
theorem diffRecords_mirror (hfrom : (from'.map identity).Nodup)
    (hto : (to'.map identity).Nodup) {d : RecordDiff T}
    (h : diffRecords identity from' to' = .ok d) :
    diffRecords identity to' from' = .ok d.mirror := by
  obtain rfl := Except.ok.inj ((diffRecords_eq hfrom hto).symm.trans h)
  rw [diffRecords_eq hto hfrom, diffLoop_mirror]

/-- The order of the records does not matter. -/
theorem diffRecords_congr {from'' to'' : List T} (hfrom : (from'.map identity).Nodup)
    (hto : (to'.map identity).Nodup) (hpermFrom : from'.Perm from'') (hpermTo : to'.Perm to'') :
    diffRecords identity from'' to'' = diffRecords identity from' to' := by
  have hkeyed {l l' : List T} (hl : (l.map identity).Nodup) (hperm : l.Perm l') :
      keyedRecords identity l' = keyedRecords identity l :=
    (sortByKey_congr Prod.fst (by rwa [List.map_map]) (hperm.map _)).symm
  unfold diffRecords
  rw [hkeyed hfrom hpermFrom, hkeyed hto hpermTo]

/-! ### Applying a difference -/

/-- The first list without what is removed, with what is changed replaced, and with what is
added. -/
def RecordDiff.apply (identity : T → String) (d : RecordDiff T) (from' : List T) : List T :=
  (from'.filter fun record => d.removed.all fun removed => identity removed != identity record).map
    (fun record => (d.changed.find? fun c => c.id == identity record).elim record
      ChangedRecord.after) ++ d.added

/-- The two lists have the same records, in any order; records are compared by `==`. -/
def SameRecords (l l' : List T) : Prop :=
  ∃ m : List T, m.Perm l' ∧ List.Forall₂ (fun a b => (a == b) = true) l m

omit [SnapshotRecord T] in
theorem eq_of_identity (h : (from'.map identity).Nodup) {r s : T} (hr : r ∈ from')
    (hs : s ∈ from') (hid : identity r = identity s) : r = s :=
  List.inj_on_of_nodup_map h hr hs hid

section Apply

variable {d : RecordDiff T}

/-- A record stays unless it has no counterpart. -/
theorem Compares.kept_iff (h : Compares identity from' to' d) {r : T} (hr : r ∈ from') :
    (d.removed.all fun removed => identity removed != identity r) = true ↔
      ∃ s ∈ to', identity s = identity r := by
  rw [List.all_eq_true]
  constructor
  · intro hall
    by_contra hnone
    have hremoved : r ∈ d.removed :=
      (h.mem_removed r).2 ⟨hr, fun s hs hid => hnone ⟨s, hs, hid⟩⟩
    exact bne_iff_ne.1 (hall r hremoved) rfl
  · rintro ⟨s, hs, hid⟩ removed hremoved
    exact bne_iff_ne.2 fun hsame => ((h.mem_removed removed).1 hremoved).2 s hs (hid.trans hsame.symm)

/-- What stays in place of a record is equal to its counterpart. -/
theorem Compares.replaced (h : Compares identity from' to' d)
    (hto : (to'.map identity).Nodup) {r s : T} (hr : r ∈ from') (hs : s ∈ to')
    (hid : identity s = identity r) :
    ((d.changed.find? fun c => c.id == identity r).elim r ChangedRecord.after == s) = true := by
  cases hfind : d.changed.find? fun c => c.id == identity r with
  | none =>
    by_contra hne
    have hdiffers : (r != s) = true := by
      rw [bne, show (r == s) = false from Bool.eq_false_iff.2 hne]
      rfl
    have hchanged := (h.mem_changed _).2 ⟨r, hr, s, hs, hid.symm, hdiffers, rfl⟩
    exact absurd (beq_self_eq_true _) (List.find?_eq_none.1 hfind _ hchanged)
  | some c =>
    obtain ⟨before, hbefore, after, hafter, hsame, -, hc⟩ :=
      (h.mem_changed c).1 (List.mem_of_find?_eq_some hfind)
    have hcid : identity before = identity r := by
      have := List.find?_some hfind
      rw [hc] at this
      exact beq_iff_eq.1 this
    obtain rfl := eq_of_identity hto hafter hs (hsame.symm.trans (hcid.trans hid.symm))
    rw [hc]
    exact beq_self_eq_true after

/-- The counterpart of a record in a list. -/
def counterpart (identity : T → String) (to' : List T) (r : T) : T :=
  (to'.find? fun s => identity s == identity r).getD r

omit [SnapshotRecord T] in
theorem counterpart_spec {r s : T} (hs : s ∈ to') (hid : identity s = identity r) :
    counterpart identity to' r ∈ to' ∧ identity (counterpart identity to' r) = identity r := by
  unfold counterpart
  cases hfind : to'.find? fun s => identity s == identity r with
  | none => exact absurd (beq_iff_eq.2 hid) (List.find?_eq_none.1 hfind s hs)
  | some s' =>
    have hsame := List.find?_some hfind
    exact ⟨List.mem_of_find?_eq_some hfind, beq_iff_eq.1 hsame⟩

/-- **Applying a difference to the first list gives the second.** -/
theorem Compares.same (h : Compares identity from' to' d) (hfrom : (from'.map identity).Nodup)
    (hto : (to'.map identity).Nodup) : SameRecords (d.apply identity from') to' := by
  have hkept {r : T} (hmem : r ∈ from'.filter fun record =>
      d.removed.all fun removed => identity removed != identity record) :
      r ∈ from' ∧ counterpart identity to' r ∈ to' ∧
        identity (counterpart identity to' r) = identity r := by
    obtain ⟨hr, hall⟩ := List.mem_filter.1 hmem
    obtain ⟨s, hs, hid⟩ := (h.kept_iff hr).1 hall
    exact ⟨hr, counterpart_spec hs hid⟩
  refine ⟨(from'.filter fun record =>
    d.removed.all fun removed => identity removed != identity record).map
      (counterpart identity to') ++ d.added, ?_, ?_⟩
  · refine (List.perm_ext_iff_of_nodup (List.Nodup.of_map identity ?_)
      (List.Nodup.of_map identity hto)).2 fun s => ?_
    · have hids := List.map_congr_left (f := identity ∘ counterpart identity to') (g := identity)
        fun r hr => (hkept hr).2.2
      rw [List.map_append, List.map_map, hids, List.nodup_append]
      refine ⟨hfrom.sublist (List.filter_sublist.map identity), h.added_nodup, ?_⟩
      rintro id hid _ hadded rfl
      obtain ⟨r, hr, rfl⟩ := List.mem_map.1 hid
      obtain ⟨s, hs, hsame⟩ := List.mem_map.1 hadded
      exact ((h.mem_added s).1 hs).2 r (hkept hr).1 hsame.symm
    · rw [List.mem_append, List.mem_map, h.mem_added]
      constructor
      · rintro (⟨r, hr, rfl⟩ | ⟨hs, -⟩)
        · exact (hkept hr).2.1
        · exact hs
      · intro hs
        by_cases hnew : ∀ r ∈ from', identity r ≠ identity s
        · exact Or.inr ⟨hs, hnew⟩
        · push Not at hnew
          obtain ⟨r, hr, hid⟩ := hnew
          have hmem : r ∈ from'.filter fun record =>
              d.removed.all fun removed => identity removed != identity record :=
            List.mem_filter.2 ⟨hr, (h.kept_iff hr).2 ⟨s, hs, hid.symm⟩⟩
          obtain ⟨-, hcounter, hsame⟩ := hkept hmem
          exact Or.inl ⟨r, hmem, eq_of_identity hto hcounter hs (hsame.trans hid)⟩
  · refine List.rel_append ?_ (List.forall₂_same.2 fun s _ => beq_self_eq_true s)
    rw [List.forall₂_map_left_iff, List.forall₂_map_right_iff]
    refine List.forall₂_same.2 fun r hr => ?_
    obtain ⟨hmem, hcounter, hsame⟩ := hkept hr
    exact h.replaced hto hmem hcounter hsame

end Apply

end Compare

end Store
