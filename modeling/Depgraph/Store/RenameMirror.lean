import Depgraph.Store.RenamePairs

/-!
# Renames in the other direction

* `renameRecords_swap`: the renames of the other direction are the mirror images of the renames.
* `RenameFacts`: a node is on one side of at most one rename, and a rename takes its nodes from the
  two sides.
-/

namespace Store

open Json Protocol Fallible SortDedup OrderedMap Std

variable {F : FloatText} {sides : RenameSides}

/-! ### Reasons -/

/-- The reason of the other direction. -/
def exchanged (reason : String) : String :=
  if reason = "ambiguous_one_to_many" then "ambiguous_many_to_one"
  else if reason = "ambiguous_many_to_one" then "ambiguous_one_to_many"
  else reason

/-- A set is listed in increasing order. -/
theorem toList_eq_exact (reasons : ExtTreeSet String) : reasons.toList = exact id reasons.toList := by
  have : Std.Irrefl fun a b : String => a < b := ⟨fun a => lt_irrefl a⟩
  have : Std.Antisymm fun a b : String => a < b := ⟨fun a b hab hba => absurd hab hba.not_gt⟩
  have hordered : reasons.toList.Pairwise fun a b => a < b :=
    ExtTreeSet.ordered_toList.imp compare_lt_iff_lt.1
  exact hordered.eq_of_mem_iff (@exact_strict _ _ _ id reasons.toList) fun reason =>
    (mem_exact Function.injective_id).symm

theorem mem_insertReasons {reasons : ExtTreeSet String} {more : List String} {reason : String} :
    reason ∈ insertReasons reasons more ↔ reason ∈ more ∨ reason ∈ reasons := by
  induction more generalizing reasons with
  | nil => simp [insertReasons]
  | cons first more ih =>
    have hcons : insertReasons reasons (first :: more) =
        insertReasons (reasons.insert first) more := rfl
    rw [hcons, ih, mem_insert, List.mem_cons, or_assoc, or_left_comm]

/-- Exchanging the reasons of a set some of which are the same in both directions. -/
theorem insertReasons_exchanged {reasons : ExtTreeSet String}
    (hreasons : ∀ reason ∈ reasons, exchanged reason = reason) (more : List String) :
    (insertReasons reasons (more.map exchanged)).toList =
      exact id ((insertReasons reasons more).toList.map exchanged) := by
  rw [toList_eq_exact]
  refine exact_congr Function.injective_id fun reason => ?_
  rw [ExtTreeSet.mem_toList, mem_insertReasons, List.mem_map, List.mem_map]
  simp only [ExtTreeSet.mem_toList, mem_insertReasons]
  constructor
  · rintro (⟨other, hother, rfl⟩ | hreason)
    · exact ⟨other, Or.inl hother, rfl⟩
    · exact ⟨reason, Or.inr hreason, hreasons reason hreason⟩
  · rintro ⟨other, hother | hother, rfl⟩
    · exact Or.inl ⟨other, hother, rfl⟩
    · exact Or.inr ((hreasons other hother).symm ▸ hother)

theorem spanReasons_swap (before after : NodeRecord × NodeRenameEvidence) :
    spanReasons after before = (spanReasons before after).map exchanged := by
  have hspan : (after.2.sourceSpan != before.2.sourceSpan) =
      (before.2.sourceSpan != after.2.sourceSpan) := by
    rw [bne, bne, CommBEq.comm]
  unfold spanReasons
  rw [hspan, Bool.and_right_comm]
  split_ifs <;> rfl

theorem ambiguity_swap {removedDegree addedDegree : Nat} {reason : Option String}
    (h : ambiguity removedDegree addedDegree = .ok reason) :
    ambiguity addedDegree removedDegree = .ok (reason.map exchanged) := by
  unfold ambiguity at h ⊢
  by_cases hunique : removedDegree = 1 ∧ addedDegree = 1
  · rw [if_pos hunique] at h
    obtain rfl := Except.ok.inj h
    exact if_pos hunique.symm
  · rw [if_neg hunique] at h
    rw [if_neg (mt And.symm hunique)]
    cases hremoved : decide (1 < removedDegree) <;> cases hadded : decide (1 < addedDegree) <;>
      rw [hremoved, hadded] at h <;> cases h <;> rfl

/-- A pair that is not alone branches on one of its sides. -/
theorem ambiguity_ok {removedDegree addedDegree : Nat} (hremoved : 0 < removedDegree)
    (hadded : 0 < addedDegree) : ∃ reason, ambiguity removedDegree addedDegree = .ok reason := by
  unfold ambiguity
  split_ifs with hunique
  · exact ⟨_, rfl⟩
  · cases hremoved' : decide (1 < removedDegree) <;> cases hadded' : decide (1 < addedDegree)
    · rw [decide_eq_false_iff_not] at hremoved' hadded'
      exact absurd ⟨by omega, by omega⟩ hunique
    all_goals exact ⟨_, rfl⟩

theorem matchers_exchanged {m : Matcher} (hm : m ∈ matchers F) :
    exchanged m.reason = m.reason := by
  simp only [matchers, List.mem_cons, List.not_mem_nil, or_false] at hm
  rcases hm with rfl | rfl | rfl | rfl | rfl <;> simp [exchanged]

/-! ### Renames -/

/-- The rename in the other direction. -/
def NodeRename.mirror (r : NodeRename) : NodeRename where
  kind := r.kind
  oldId := r.newId
  newId := r.oldId
  confidence := r.confidence
  reasons := exact id (r.reasons.map exchanged)
  changedFields := r.changedFields
  before := r.after
  after := r.before
  oldEvidence := r.newEvidence
  newEvidence := r.oldEvidence

variable {pair : IndexPair sides} {signals : MatchSignals}

theorem removedDegree_pos (h : pair ∈ pairsOf F sides) :
    0 < removedDegree (pairsOf F sides) (ofLex pair).1 :=
  List.countP_pos_iff.2 ⟨pair, h, decide_eq_true rfl⟩

theorem addedDegree_pos (h : pair ∈ pairsOf F sides) :
    0 < addedDegree (pairsOf F sides) (ofLex pair).2 :=
  List.countP_pos_iff.2 ⟨pair, h, decide_eq_true rfl⟩

theorem renameOf_eq_ok {pairs : List (IndexPair sides)} {record : Bool × NodeRename} :
    renameOf pairs (pair, signals) = .ok record ↔ ∃ strength ambiguous,
      signals.strength = some strength ∧
      ambiguity (removedDegree pairs (ofLex pair).1) (addedDegree pairs (ofLex pair).2) =
        .ok ambiguous ∧
      record = renameRecord pairs pair signals.reasons strength ambiguous := by
  simp only [renameOf, bind_eq_ok, required_eq_ok, pure, Except.pure, Except.ok.injEq]
  constructor
  · rintro ⟨strength, hstrength, ambiguous, hambiguous, rfl⟩
    exact ⟨strength, ambiguous, hstrength, hambiguous, rfl⟩
  · rintro ⟨strength, ambiguous, hstrength, hambiguous, rfl⟩
    exact ⟨strength, hstrength, ambiguous, hambiguous, rfl⟩

/-- Every pair with signals gives a record. -/
theorem renameOf_ok (h : (renameSignals F sides)[pair]? = some signals) :
    ∃ record, renameOf (pairsOf F sides) (pair, signals) = .ok record := by
  have hmem : pair ∈ pairsOf F sides := mem_pairsOf.2 ⟨signals, h⟩
  obtain ⟨strength, hstrength⟩ :=
    Option.isSome_iff_exists.1 (renameSignals_supported h).strength
  obtain ⟨ambiguous, hambiguous⟩ := ambiguity_ok (removedDegree_pos hmem) (addedDegree_pos hmem)
  exact ⟨_, renameOf_eq_ok.2 ⟨strength, ambiguous, hstrength, hambiguous, rfl⟩⟩

/-- **The record of a pair in the other direction is the mirror image.** -/
theorem renameOf_swap (h : (renameSignals F sides)[pair]? = some signals)
    {record : Bool × NodeRename} (hrecord : renameOf (pairsOf F sides) (pair, signals) = .ok record) :
    renameOf (pairsOf F sides.swap) (swapPair pair, signals) =
      .ok (record.1, record.2.mirror) := by
  obtain ⟨strength, ambiguous, hstrength, hambiguous, rfl⟩ := renameOf_eq_ok.1 hrecord
  have hfixed : ∀ reason ∈ signals.reasons, exchanged reason = reason := by
    intro reason hreason
    obtain ⟨m, hm, rfl⟩ := (renameSignals_supported h).reasons reason hreason
    exact matchers_exchanged hm
  refine renameOf_eq_ok.2 ⟨strength, ambiguous.map exchanged, hstrength, ?_, ?_⟩
  · rw [removedDegree_swap, addedDegree_swap]
    exact ambiguity_swap hambiguous
  · have hreasons := insertReasons_exchanged hfixed
      (spanReasons (sides.removed.get (ofLex pair).1) (sides.added.get (ofLex pair).2) ++
        ambiguous.toList)
    rw [List.map_append, ← spanReasons_swap, ← Option.toList_map] at hreasons
    rw [renameRecord, renameRecord, isUnique_swap]
    simp only [NodeRename.mirror, Prod.mk.injEq, NodeRename.mk.injEq, true_and]
    exact ⟨kind_eq h, rfl, rfl, hreasons.symm, changedFields_comm _ _, rfl, rfl, rfl, rfl⟩

/-! ### The records of all pairs -/

/-- The records that the loop over the signals collects. -/
def records (F : FloatText) (sides : RenameSides) : List (Bool × NodeRename) :=
  (signalEntries F sides).filterMap fun entry =>
    (renameOf (pairsOf F sides) entry).toOption

theorem renameRecords_eq : renameRecords F sides = .ok (records F sides) :=
  mapM_of_ok fun _ hentry => renameOf_ok (mem_toList.1 hentry)

/-- The record of the other direction. -/
def mirrorRecord (record : Bool × NodeRename) : Bool × NodeRename := (record.1, record.2.mirror)

/-- **The records of the other direction are the mirror images.** -/
theorem records_swap :
    (records F sides.swap).Perm ((records F sides).map mirrorRecord) := by
  refine (signalEntries_swap.filterMap _).trans (List.Perm.of_eq ?_)
  rw [List.filterMap_map, records, List.map_filterMap]
  refine List.filterMap_congr fun entry hentry => ?_
  have hlookup := mem_toList.1 hentry
  obtain ⟨record, hrecord⟩ := renameOf_ok hlookup
  rw [Function.comp_apply, toOption_eq_some.2 (renameOf_swap hlookup hrecord),
    toOption_eq_some.2 hrecord]
  rfl

/-- A record is the record of a pair with signals. -/
theorem mem_records {record : Bool × NodeRename} (h : record ∈ records F sides) :
    ∃ pair ∈ pairsOf F sides, ∃ reasons strength ambiguous,
      record = renameRecord (pairsOf F sides) pair reasons strength ambiguous := by
  obtain ⟨entry, hentry, hrecord⟩ := List.mem_filterMap.1 h
  obtain ⟨strength, ambiguous, -, -, rfl⟩ := renameOf_eq_ok.1 (toOption_eq_some.1 hrecord)
  exact ⟨entry.1, mem_pairsOf.2 ⟨_, mem_toList.1 hentry⟩, _, strength, ambiguous, rfl⟩

/-! ### Promoted pairs -/

/-- Two pairs with one removed node are the same pair, if one of them is unique. -/
theorem eq_of_isUnique {p q : IndexPair sides} (hp : p ∈ pairsOf F sides)
    (hq : q ∈ pairsOf F sides) (hunique : isUnique (pairsOf F sides) p = true)
    (h : (ofLex p).1 = (ofLex q).1) : p = q := by
  have hdegree : removedDegree (pairsOf F sides) (ofLex p).1 = 1 := (of_decide_eq_true hunique).1
  rw [removedDegree, List.countP_eq_length_filter, List.length_eq_one_iff] at hdegree
  obtain ⟨r, hr⟩ := hdegree
  have hmem {x : IndexPair sides} (hx : x ∈ pairsOf F sides) (hfst : (ofLex x).1 = (ofLex p).1) :
      x = r := by
    have : x ∈ (pairsOf F sides).filter fun pair => (ofLex pair).1 = (ofLex p).1 :=
      List.mem_filter.2 ⟨hx, decide_eq_true hfst⟩
    rw [hr] at this
    exact List.mem_singleton.1 this
  rw [hmem hp rfl, hmem hq h.symm]

/-- The renames. -/
def promoted (records : List (Bool × NodeRename)) : List NodeRename :=
  (records.filter Prod.fst).map Prod.snd

/-- The pairs that are not renames. -/
def unpromoted (records : List (Bool × NodeRename)) : List NodeRename :=
  (records.filter fun record => !record.1).map Prod.snd

theorem promoted_mirror (l : List (Bool × NodeRename)) :
    promoted (l.map mirrorRecord) = (promoted l).map NodeRename.mirror := by
  unfold promoted
  rw [List.filter_map, List.map_map, List.map_map]
  rfl

theorem unpromoted_mirror (l : List (Bool × NodeRename)) :
    unpromoted (l.map mirrorRecord) = (unpromoted l).map NodeRename.mirror := by
  unfold unpromoted
  rw [List.filter_map, List.map_map, List.map_map]
  rfl

/-- The identities of the nodes of a side are distinct. -/
def RenameSide.DistinctIds (side : RenameSide) : Prop := (side.map fun node => node.1.id).Nodup

theorem RenameSide.DistinctIds.index_eq {side : RenameSide} (h : side.DistinctIds)
    {i j : Fin side.length} (hid : (side.get i).1.id = (side.get j).1.id) : i = j := by
  rw [DistinctIds, List.Nodup, List.pairwise_map, List.pairwise_iff_get] at h
  by_contra hne
  rcases lt_or_gt_of_ne hne with hlt | hgt
  · exact h i j hlt hid
  · exact h j i hgt hid.symm

/-- **A removed node is on one side of at most one rename.** -/
theorem promoted_oldId_nodup (hids : sides.removed.DistinctIds) :
    ((promoted (records F sides)).map NodeRename.oldId).Nodup := by
  rw [promoted, List.map_map, List.Nodup, List.pairwise_map, List.pairwise_filter]
  have hkeys : (signalEntries F sides).Pairwise fun a b => a.1 ≠ b.1 :=
    List.pairwise_map.1 keys_nodup
  refine List.Pairwise.filterMap _ (fun a b hab r hr s hs hrp hsp hid => ?_)
    (hkeys.imp_of_mem fun {a b} ha hb hab => And.intro hab (And.intro ha hb))
  obtain ⟨hne, ha, hb⟩ := hab
  obtain ⟨strength, ambiguous, -, -, rfl⟩ := renameOf_eq_ok.1 (toOption_eq_some.1 hr)
  obtain ⟨strength', ambiguous', -, -, rfl⟩ := renameOf_eq_ok.1 (toOption_eq_some.1 hs)
  have hunique := (Bool.and_eq_true _ _ ▸ hrp).1
  have hindex : (ofLex a.1).1 = (ofLex b.1).1 := hids.index_eq hid
  exact hne (eq_of_isUnique (mem_pairsOf.2 ⟨_, mem_toList.1 ha⟩)
    (mem_pairsOf.2 ⟨_, mem_toList.1 hb⟩) hunique hindex)

/-- The same for added nodes. -/
theorem promoted_newId_nodup (hids : sides.added.DistinctIds) :
    ((promoted (records F sides)).map NodeRename.newId).Nodup := by
  have hswap := @promoted_oldId_nodup F sides.swap hids
  have hperm : (promoted (records F sides.swap)).Perm
      ((promoted (records F sides)).map NodeRename.mirror) := by
    rw [← promoted_mirror]
    exact (records_swap.filter _).map _
  rw [(hperm.map _).nodup_iff, List.map_map] at hswap
  exact hswap

end Store
