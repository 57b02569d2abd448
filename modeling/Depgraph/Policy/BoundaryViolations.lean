import Depgraph.Library.ListMap
import Depgraph.Library.SortDedup
import Mathlib.Data.Multiset.Count
import Mathlib.Data.Multiset.UnionInter
import Mathlib.Data.String.Basic

/-!
# New boundary violations

`new_boundary_violation_ids` compares two policy results. Violations of the boundary rules that are not
suppressed are grouped by their semantic key, without edges and positions. Under every key the ids that
are on both sides are paired first, what is left of the before side is paired with any ids of the after
side, and the surplus is new. The charges of work end a comparison early and are left out.
-/

namespace Policy

open Std OrderedMap SortDedup

/-! ### Results -/

inductive PolicyRuleKind
  | layerBoundary
  | forbiddenDependency
  | cycle
  | dependencyDepth
  | fanIn
  | fanOut
  | publicApiChange
  | runtimeBoundary
deriving DecidableEq

structure PolicyRule where
  id : String
  kind : PolicyRuleKind

structure PolicyConfig where
  rules : List PolicyRule

structure PolicyPathStep where
  sourceId : String
  edgeId : String
  targetId : String

structure AppliedPolicySuppression where
  id : String
  reason : String

/-- A violation; `sourceId` and `targetId` are the ids of its entities. -/
structure PolicyViolation where
  id : String
  ruleId : String
  sourceId : String
  targetId : String
  dependencyPath : List PolicyPathStep
  profileId : Option String
  suppression : Option AppliedPolicySuppression

structure PolicyResult where
  violations : List PolicyViolation

/-! ### The comparison -/

def PolicyRuleKind.isBoundary : PolicyRuleKind → Bool
  | layerBoundary | forbiddenDependency | runtimeBoundary => true
  | _ => false

def boundaryRuleIds (config : PolicyConfig) : ExtTreeSet String :=
  config.rules.foldl (fun ids rule => if rule.kind.isBoundary then ids.insert rule.id else ids) ∅

/-- `BoundaryViolationComparisonKey`: the rule, the source, the target, the profile and the nodes of the
path. -/
abbrev BoundaryViolationComparisonKey : Type :=
  String ×ₗ String ×ₗ String ×ₗ Option String ×ₗ List (String ×ₗ String)

instance decidableEqComparisonKey : DecidableEq BoundaryViolationComparisonKey := fun a b =>
  decidable_of_iff (compare a b = .eq) Std.compare_eq_iff_eq

def boundaryViolationComparisonKey (violation : PolicyViolation) : BoundaryViolationComparisonKey :=
  toLex (violation.ruleId, toLex (violation.sourceId, toLex (violation.targetId,
    toLex (violation.profileId,
      violation.dependencyPath.map fun step => toLex (step.sourceId, step.targetId)))))

/-- A violation that is compared. -/
def isCompared (ruleIds : ExtTreeSet String) (violation : PolicyViolation) : Bool :=
  violation.suppression.isNone && ruleIds.contains violation.ruleId

/-- `before_by_key` and `after_by_key`. -/
def idsByKey (ruleIds : ExtTreeSet String) (violations : List PolicyViolation) :
    ExtTreeMap BoundaryViolationComparisonKey (List String) :=
  violations.foldl (fun groups violation =>
    if isCompared ruleIds violation then
      appendUnder groups (boundaryViolationComparisonKey violation, violation.id)
    else groups) ∅

/-- The counters of one key. -/
structure Matching where
  beforeIdCounts : ExtTreeMap String Nat
  remainingBefore : Nat
  unmatchedAfter : List String

/-- The first loop over the ids of a key; no list is long enough for the counters to saturate. -/
def countBefore (ids : List String) : Matching :=
  ids.foldl (fun state id =>
    { state with
      beforeIdCounts := state.beforeIdCounts.insert id (state.beforeIdCounts[id]?.getD 0 + 1)
      remainingBefore := state.remainingBefore + 1 }) ⟨∅, 0, []⟩

/-- A turn of the second loop. -/
def matchAfter (state : Matching) (id : String) : Matching :=
  match state.beforeIdCounts[id]? with
  | some (count + 1) =>
    { state with
      beforeIdCounts := state.beforeIdCounts.insert id count
      remainingBefore := state.remainingBefore - 1 }
  | some 0 | none => { state with unmatchedAfter := state.unmatchedAfter ++ [id] }

/-- The new ids of one key. -/
def newIdsOfKey (before after : List String) : List String :=
  let state := (sortByKey id after).foldl matchAfter (countBefore before)
  let movedContinuing := min state.remainingBefore state.unmatchedAfter.length
  state.unmatchedAfter.drop movedContinuing

/-- `new_boundary_violation_ids`. The keys of the after side are distinct, so that nothing asks for a key
that has been removed from the before side. -/
def newBoundaryViolationIds (before after : PolicyResult) (config : PolicyConfig) :
    ExtTreeSet String :=
  let beforeByKey := idsByKey (boundaryRuleIds config) before.violations
  (idsByKey (boundaryRuleIds config) after.violations).toList.foldl (fun newIds group =>
    (newIdsOfKey (beforeByKey[group.1]?.getD []) group.2).foldl (fun ids id => ids.insert id)
      newIds) ∅

/-! ### The sides of the comparison -/

/-- The ids that a result has under a key: of violations of boundary rules that are not suppressed. -/
def sideIds (config : PolicyConfig) (result : PolicyResult) (key : BoundaryViolationComparisonKey) :
    List String :=
  (result.violations.filter fun violation => violation.suppression.isNone &&
    (config.rules.any fun rule => rule.kind.isBoundary && rule.id == violation.ruleId) &&
    decide (boundaryViolationComparisonKey violation = key)).map PolicyViolation.id

theorem mem_boundaryRuleIds {config : PolicyConfig} {id : String} :
    id ∈ boundaryRuleIds config ↔ ∃ rule ∈ config.rules, rule.kind.isBoundary = true ∧ rule.id = id := by
  have hfold : ∀ (rules : List PolicyRule) (ids : ExtTreeSet String),
      id ∈ rules.foldl (fun ids rule => if rule.kind.isBoundary then ids.insert rule.id else ids) ids ↔
        id ∈ ids ∨ ∃ rule ∈ rules, rule.kind.isBoundary = true ∧ rule.id = id := by
    intro rules
    induction rules with
    | nil => exact fun ids => by simp
    | cons rule rules ih =>
      intro ids
      rw [List.foldl_cons, ih]
      by_cases hrule : rule.kind.isBoundary = true
      · rw [if_pos hrule, mem_insert]
        simp only [List.mem_cons, exists_eq_or_imp, hrule, true_and]
        grind
      · simp [hrule]
  rw [boundaryRuleIds, hfold]
  exact or_iff_right ExtTreeSet.not_mem_empty

theorem isCompared_boundaryRuleIds (config : PolicyConfig) (violation : PolicyViolation) :
    isCompared (boundaryRuleIds config) violation = (violation.suppression.isNone &&
      config.rules.any fun rule => rule.kind.isBoundary && rule.id == violation.ruleId) := by
  rw [isCompared]
  refine congrArg _ (Bool.eq_iff_iff.2 ?_)
  rw [ExtTreeSet.contains_iff_mem, mem_boundaryRuleIds]
  simp

/-- **What is grouped under a key.** -/
theorem getElem?_idsByKey (config : PolicyConfig) (result : PolicyResult)
    (key : BoundaryViolationComparisonKey) :
    (idsByKey (boundaryRuleIds config) result.violations)[key]? =
      inhabitedList (sideIds config result key) := by
  rw [sideIds]
  obtain ⟨violations⟩ := result
  induction violations using List.reverseRecOn with
  | nil => simp [idsByKey, inhabitedList]
  | append_singleton violations violation ih =>
    rw [idsByKey, List.foldl_append, List.foldl_cons, List.foldl_nil, ← idsByKey, List.filter_append,
      List.map_append]
    simp only at ih
    by_cases hcompared : isCompared (boundaryRuleIds config) violation = true
    · rw [if_pos hcompared, appendUnder, getElem?_alter]
      rw [isCompared_boundaryRuleIds] at hcompared
      by_cases hkey : boundaryViolationComparisonKey violation = key
      · subst hkey
        rw [if_pos rfl, ih, getD_inhabitedList, List.filter_singleton, hcompared, decide_eq_true rfl]
        exact (inhabitedList_append _ _).symm
      · rw [if_neg (Ne.symm hkey), ih, List.filter_singleton, hcompared, decide_eq_false hkey]
        simp
    · rw [if_neg hcompared, ih, List.filter_singleton, ← isCompared_boundaryRuleIds,
        Bool.eq_false_iff.2 hcompared]
      simp

/-! ### Matching under one key -/

/-- What the counters hold when the ids `ids` of the after side have been matched with `before`. -/
structure Matched (before ids : List String) (state : Matching) : Prop where
  counts : ∀ id : String, state.beforeIdCounts[id]? =
    if id ∈ before then some (Multiset.count id (before - ids : Multiset String)) else none
  remaining : state.remainingBefore = Multiset.card (before - ids : Multiset String)
  unmatched : (state.unmatchedAfter : Multiset String) = (ids - before : Multiset String)
  sublist : state.unmatchedAfter.Sublist ids

theorem countBefore_append (ids : List String) (id : String) :
    countBefore (ids ++ [id]) = { countBefore ids with
      beforeIdCounts := (countBefore ids).beforeIdCounts.insert id
        ((countBefore ids).beforeIdCounts[id]?.getD 0 + 1)
      remainingBefore := (countBefore ids).remainingBefore + 1 } := by
  rw [countBefore, List.foldl_append]
  rfl

theorem countBefore_counts (before : List String) (id : String) :
    (countBefore before).beforeIdCounts[id]? =
      if id ∈ before then some (before.count id) else none := by
  induction before using List.reverseRecOn with
  | nil => simp [countBefore]
  | append_singleton before last ih =>
    rw [countBefore_append, getElem?_insert, List.count_append, List.count_singleton]
    by_cases hid : id = last
    · subst hid
      rw [if_pos rfl, ih, if_pos (List.mem_append_right _ List.mem_cons_self), beq_self_eq_true]
      by_cases hmem : id ∈ before
      · simp [hmem]
      · simp [hmem, List.count_eq_zero_of_not_mem hmem]
    · rw [if_neg hid, ih, beq_eq_false_iff_ne.2 (Ne.symm hid)]
      simp [hid]

theorem countBefore_remaining (before : List String) :
    (countBefore before).remainingBefore = before.length ∧
      (countBefore before).unmatchedAfter = [] := by
  induction before using List.reverseRecOn with
  | nil => exact ⟨rfl, rfl⟩
  | append_singleton before last ih =>
    rw [countBefore_append, List.length_append]
    exact ⟨congrArg (· + 1) ih.1, ih.2⟩

theorem Matched.start (before : List String) : Matched before [] (countBefore before) where
  counts id := by simp [countBefore_counts]
  remaining := by simp [(countBefore_remaining before).1]
  unmatched := by
    rw [(countBefore_remaining before).2]
    exact Multiset.ext.2 fun id => by simp
  sublist := by simp [(countBefore_remaining before).2]

/-- An element that is not left over is added to the other side. -/
theorem sub_of_count_eq_zero {s t : Multiset String} {a : String}
    (h : Multiset.count a (s - t) = 0) : s - a ::ₘ t = s - t ∧ a ::ₘ t - s = a ::ₘ (t - s) := by
  rw [Multiset.count_sub] at h
  constructor
  all_goals
    ext b
    simp only [Multiset.count_sub, Multiset.count_cons]
    split_ifs with heq
    · subst heq
      omega
    · rfl

/-- An element that is left over is taken away. -/
theorem sub_of_count_eq_succ {s t : Multiset String} {a : String} {n : ℕ}
    (h : Multiset.count a (s - t) = n + 1) : s - t = a ::ₘ (s - a ::ₘ t) ∧ a ::ₘ t - s = t - s := by
  rw [Multiset.count_sub] at h
  constructor
  all_goals
    ext b
    simp only [Multiset.count_sub, Multiset.count_cons]
    split_ifs with heq
    · subst heq
      omega
    · rfl

theorem matchAfter_unmatched {before ids : List String} {state : Matching}
    (h : Matched before ids state) {id : String}
    (hcount : Multiset.count id (before - ids : Multiset String) = 0) :
    matchAfter state id = { state with unmatchedAfter := state.unmatchedAfter ++ [id] } := by
  have hlookup := h.counts id
  rw [hcount] at hlookup
  rw [matchAfter, hlookup]
  split_ifs <;> rfl

theorem matchAfter_matched {before ids : List String} {state : Matching}
    (h : Matched before ids state) {id : String} {count : Nat}
    (hcount : Multiset.count id (before - ids : Multiset String) = count + 1) :
    matchAfter state id = { state with
      beforeIdCounts := state.beforeIdCounts.insert id count
      remainingBefore := state.remainingBefore - 1 } := by
  have hmem : id ∈ before := by
    have hpos : 0 < Multiset.count id (before - ids : Multiset String) := by omega
    exact Multiset.mem_coe.1 (Multiset.mem_of_le (Multiset.sub_le_self _ _)
      (Multiset.count_pos.1 hpos))
  have hlookup := h.counts id
  rw [hcount, if_pos hmem] at hlookup
  rw [matchAfter, hlookup]

/-- One id is paired with an equal one of the before side, or is left unmatched. -/
theorem Matched.step {before ids : List String} {state : Matching} (h : Matched before ids state)
    (id : String) : Matched before (ids ++ [id]) (matchAfter state id) := by
  have hids : ((ids ++ [id] : List String) : Multiset String) = id ::ₘ (ids : Multiset String) :=
    Multiset.coe_eq_coe.2 (List.perm_append_singleton id ids)
  cases hcount : Multiset.count id (before - ids : Multiset String) with
  | zero =>
    obtain ⟨hbefore, hafter⟩ := sub_of_count_eq_zero hcount
    rw [matchAfter_unmatched h hcount]
    exact {
      counts other := by rw [hids, hbefore]; exact h.counts other
      remaining := by rw [hids, hbefore]; exact h.remaining
      unmatched := by
        rw [hids, hafter, ← h.unmatched]
        exact Multiset.coe_eq_coe.2 (List.perm_append_singleton id _)
      sublist := h.sublist.append (List.Sublist.refl _) }
  | succ count =>
    obtain ⟨hbefore, hafter⟩ := sub_of_count_eq_succ hcount
    rw [matchAfter_matched h hcount]
    rw [hbefore, Multiset.count_cons_self, Nat.succ_inj] at hcount
    exact {
      counts other := by
        rw [hids, getElem?_insert, h.counts other, hbefore, Multiset.count_cons]
        by_cases heq : other = id
        · have hmem : id ∈ before := Multiset.mem_coe.1 (Multiset.mem_of_le (Multiset.sub_le_self _ _)
            (hbefore ▸ Multiset.mem_cons_self id _))
          rw [if_pos heq, heq, if_pos hmem, hcount]
        · rw [if_neg heq, if_neg heq, Nat.add_zero]
      remaining := by
        rw [hids, h.remaining, hbefore, Multiset.card_cons, Nat.add_sub_cancel]
      unmatched := by rw [hids, hafter, ← h.unmatched]
      sublist := h.sublist.trans (List.sublist_append_left _ _) }

theorem matched_foldl (before ids : List String) :
    Matched before ids (ids.foldl matchAfter (countBefore before)) := by
  induction ids using List.reverseRecOn with
  | nil => exact .start before
  | append_singleton ids id ih =>
    rw [List.foldl_append]
    exact ih.step id

/-- **As many ids are new as the after side has more of.** -/
theorem length_newIdsOfKey (before after : List String) :
    (newIdsOfKey before after).length = after.length - before.length := by
  have hmatched := matched_foldl before (sortByKey id after)
  -- both sides hold every id as often as the side that has more of it
  have hunion : (before - after : Multiset String) + after = (after - before) + before := by
    ext id
    rw [Multiset.count_add, Multiset.count_add, Multiset.count_sub, Multiset.count_sub]
    omega
  have hcard := congrArg Multiset.card hunion
  have hlength := congrArg Multiset.card hmatched.unmatched
  have hremaining := hmatched.remaining
  have hsort : (sortByKey id after : Multiset String) = after :=
    Multiset.coe_eq_coe.2 (sortByKey_perm _ _)
  rw [hsort] at hlength hremaining
  rw [Multiset.card_add, Multiset.card_add, Multiset.coe_card, Multiset.coe_card] at hcard
  rw [Multiset.coe_card] at hlength
  rw [newIdsOfKey, List.length_drop]
  omega

theorem newIdsOfKey_sublist (before after : List String) :
    (newIdsOfKey before after).Sublist (sortByKey id after) :=
  (List.drop_sublist _ _).trans (matched_foldl before (sortByKey id after)).sublist

/-- The new ids are after-side ids that are not of the before side. -/
theorem mem_of_mem_newIdsOfKey {before after : List String} (hnodup : after.Nodup) {new : String}
    (h : new ∈ newIdsOfKey before after) : new ∈ after ∧ new ∉ before := by
  have hmatched := matched_foldl before (sortByKey id after)
  have hafter : new ∈ after := (mem_sortByKey id).1 ((newIdsOfKey_sublist before after).subset h)
  refine ⟨hafter, fun hbefore => ?_⟩
  have hunmatched : new ∈ (sortByKey id after - before : Multiset String) := by
    rw [← hmatched.unmatched]
    exact Multiset.mem_coe.2 (List.mem_of_mem_drop h)
  have hcount := Multiset.count_pos.2 hunmatched
  -- an id of both sides is left over when the after side has it twice
  have hone : (sortByKey id after).count new ≤ 1 :=
    List.nodup_iff_count_le_one.1 ((sortByKey_perm id after).nodup_iff.2 hnodup) new
  have hpos : 0 < before.count new := List.count_pos_iff.2 hbefore
  rw [Multiset.count_sub, Multiset.coe_count, Multiset.coe_count] at hcount
  omega

/-- The order of the ids does not matter. -/
theorem newIdsOfKey_perm {before before' after after' : List String} (hnodup : after.Nodup)
    (hbefore : before'.Perm before) (hafter : after'.Perm after) :
    newIdsOfKey before' after' = newIdsOfKey before after := by
  have hsort : sortByKey id after' = sortByKey id after :=
    (sortByKey_congr id (by rwa [List.map_id]) hafter.symm).symm
  have hcount : countBefore before' = countBefore before := by
    have hcounts : (countBefore before').beforeIdCounts = (countBefore before).beforeIdCounts := by
      refine ExtTreeMap.ext_getElem? fun other => ?_
      rw [countBefore_counts, countBefore_counts, hbefore.count_eq]
      simp only [hbefore.mem_iff]
    obtain ⟨hremaining, hunmatched⟩ := countBefore_remaining before
    obtain ⟨hremaining', hunmatched'⟩ := countBefore_remaining before'
    have hlength := hbefore.length_eq
    generalize countBefore before' = state' at *
    generalize countBefore before = state at *
    obtain ⟨counts, remaining, unmatched⟩ := state
    obtain ⟨counts', remaining', unmatched'⟩ := state'
    simp only at hcounts hremaining hremaining' hunmatched hunmatched'
    rw [hcounts, hremaining, hremaining', hunmatched, hunmatched', hlength]
  rw [newIdsOfKey, newIdsOfKey, hsort, hcount]

theorem newIdsOfKey_nil (before : List String) : newIdsOfKey before [] = [] :=
  List.length_eq_zero_iff.1 (by rw [length_newIdsOfKey, List.length_nil, Nat.zero_sub])

/-! ### The result -/

theorem mem_foldl_insert {ids : List String} {known : ExtTreeSet String} {id : String} :
    id ∈ ids.foldl (fun ids id => ids.insert id) known ↔ id ∈ ids ∨ id ∈ known := by
  induction ids generalizing known with
  | nil => simp
  | cons first ids ih =>
    rw [List.foldl_cons, ih, mem_insert, List.mem_cons, or_left_comm, or_assoc]

theorem mem_foldl_groups {α : Type} {groups : List α} {ids : α → List String}
    {known : ExtTreeSet String} {id : String} :
    id ∈ groups.foldl (fun newIds group => (ids group).foldl (fun ids id => ids.insert id) newIds)
      known ↔ (∃ group ∈ groups, id ∈ ids group) ∨ id ∈ known := by
  induction groups generalizing known with
  | nil => simp
  | cons first groups ih =>
    rw [List.foldl_cons, ih, mem_foldl_insert]
    simp only [List.mem_cons, exists_eq_or_imp, or_assoc]
    exact or_left_comm

section

variable {before after : PolicyResult} {config : PolicyConfig}

/-- **The result holds the new ids of every key.** -/
theorem mem_newBoundaryViolationIds {id : String} :
    id ∈ newBoundaryViolationIds before after config ↔
      ∃ key, id ∈ newIdsOfKey (sideIds config before key) (sideIds config after key) := by
  rw [newBoundaryViolationIds, mem_foldl_groups, or_iff_left ExtTreeSet.not_mem_empty]
  constructor
  · rintro ⟨⟨key, ids⟩, hmem, hid⟩
    have hids := mem_toList.1 hmem
    rw [getElem?_idsByKey] at hids
    rw [getElem?_idsByKey, getD_inhabitedList] at hid
    exact ⟨key, (inhabitedList_eq_some.1 hids).1 ▸ hid⟩
  · rintro ⟨key, hid⟩
    refine ⟨(key, sideIds config after key), mem_toList.2 ?_, ?_⟩
    · rw [getElem?_idsByKey]
      refine inhabitedList_eq_some.2 ⟨rfl, fun hnil => ?_⟩
      rw [hnil, newIdsOfKey_nil] at hid
      exact List.not_mem_nil hid
    · rwa [getElem?_idsByKey, getD_inhabitedList]

theorem sideIds_nodup (hnodup : (after.violations.map PolicyViolation.id).Nodup)
    (key : BoundaryViolationComparisonKey) : (sideIds config after key).Nodup :=
  hnodup.sublist (List.filter_sublist.map _)

/-- An id belongs to one key. -/
theorem key_unique (hnodup : (after.violations.map PolicyViolation.id).Nodup) {id : String}
    {key key' : BoundaryViolationComparisonKey} (h : id ∈ sideIds config after key)
    (h' : id ∈ sideIds config after key') : key = key' := by
  obtain ⟨violation, hviolation, rfl⟩ := List.mem_map.1 h
  obtain ⟨violation', hviolation', hid⟩ := List.mem_map.1 h'
  rw [List.mem_filter, Bool.and_eq_true, decide_eq_true_eq] at hviolation hviolation'
  have hsame := List.inj_on_of_nodup_map hnodup hviolation'.1 hviolation.1 hid
  exact hviolation.2.2.symm.trans (hsame ▸ hviolation'.2.2)

theorem mem_newIdsOfKey_iff (hnodup : (after.violations.map PolicyViolation.id).Nodup) {id : String}
    {key : BoundaryViolationComparisonKey} :
    id ∈ newIdsOfKey (sideIds config before key) (sideIds config after key) ↔
      id ∈ sideIds config after key ∧ id ∈ newBoundaryViolationIds before after config := by
  rw [mem_newBoundaryViolationIds]
  constructor
  · exact fun h => ⟨(mem_of_mem_newIdsOfKey (sideIds_nodup hnodup key) h).1, key, h⟩
  · rintro ⟨hside, key', h⟩
    have hside' := (mem_of_mem_newIdsOfKey (sideIds_nodup hnodup key') h).1
    rwa [key_unique hnodup hside hside']

theorem newBoundaryViolationIds_perm {before' after' : PolicyResult}
    (hnodup : (after.violations.map PolicyViolation.id).Nodup)
    (hbefore : before'.violations.Perm before.violations)
    (hafter : after'.violations.Perm after.violations) :
    newBoundaryViolationIds before' after' config = newBoundaryViolationIds before after config := by
  refine ExtTreeSet.ext_mem fun id => ?_
  rw [mem_newBoundaryViolationIds, mem_newBoundaryViolationIds]
  refine exists_congr fun key => ?_
  have hsides {result result' : PolicyResult} (h : result'.violations.Perm result.violations) :
      (sideIds config result' key).Perm (sideIds config result key) := (h.filter _).map _
  rw [newIdsOfKey_perm (sideIds_nodup hnodup key) (hsides hbefore) (hsides hafter)]

/-- **Under every key as many ids are new as the after side has more of; they are not of the before
side; and the order of the violations does not matter.** -/
theorem newBoundaryViolationIds_counts
    (hnodup : (after.violations.map PolicyViolation.id).Nodup) :
    (∀ key, ((sideIds config after key).filter fun id =>
        decide (id ∈ newBoundaryViolationIds before after config)).length =
      (sideIds config after key).length - (sideIds config before key).length) ∧
    (∀ id ∈ newBoundaryViolationIds before after config, ∃ key,
      id ∈ sideIds config after key ∧ id ∉ sideIds config before key) ∧
    (∀ key, ∀ id ∈ sideIds config before key, id ∈ sideIds config after key →
      id ∉ newBoundaryViolationIds before after config) ∧
    newBoundaryViolationIds after after config = ∅ ∧
    ∀ before' after' : PolicyResult, before'.violations.Perm before.violations →
      after'.violations.Perm after.violations →
      newBoundaryViolationIds before' after' config =
        newBoundaryViolationIds before after config := by
  refine ⟨fun key => ?_, fun id hid => ?_, fun key id hbefore hafter hid => ?_, ?_,
    fun before' after' => newBoundaryViolationIds_perm hnodup⟩
  · have hside : (sideIds config after key).Nodup := sideIds_nodup hnodup key
    have hperm : ((sideIds config after key).filter fun id =>
        decide (id ∈ newBoundaryViolationIds before after config)).Perm
        (newIdsOfKey (sideIds config before key) (sideIds config after key)) := by
      refine (List.perm_ext_iff_of_nodup (hside.filter _) ?_).2 fun id => ?_
      · exact ((sortByKey_perm id _).nodup_iff.2 hside).sublist (newIdsOfKey_sublist _ _)
      · rw [mem_newIdsOfKey_iff hnodup, List.mem_filter, decide_eq_true_eq]
    rw [hperm.length_eq, length_newIdsOfKey]
  · obtain ⟨key, hkey⟩ := mem_newBoundaryViolationIds.1 hid
    exact ⟨key, mem_of_mem_newIdsOfKey (sideIds_nodup hnodup key) hkey⟩
  · have hnew := (mem_newIdsOfKey_iff hnodup).2 ⟨hafter, hid⟩
    exact (mem_of_mem_newIdsOfKey (sideIds_nodup hnodup key) hnew).2 hbefore
  · refine ExtTreeSet.ext_mem fun id => iff_of_false (fun hid => ?_) ExtTreeSet.not_mem_empty
    obtain ⟨key, hkey⟩ := mem_newBoundaryViolationIds.1 hid
    have hmem := mem_of_mem_newIdsOfKey (sideIds_nodup hnodup key) hkey
    exact hmem.2 hmem.1

end

/-! ### Ids that are on both sides -/

namespace ViolationSample

def config : PolicyConfig := ⟨[⟨"ui", .layerBoundary⟩]⟩

def violation (target : String) (suppression : Option AppliedPolicySuppression) : PolicyViolation where
  id := "policy-violation"
  ruleId := "ui"
  sourceId := "a"
  targetId := target
  dependencyPath := [⟨"a", "e", target⟩]
  profileId := none
  suppression := suppression

/-- The violation is on both sides. It was suppressed, or it had another target. -/
theorem returned_on_both_sides :
    (newBoundaryViolationIds ⟨[violation "b" (some ⟨"s", "legacy"⟩)]⟩ ⟨[violation "b" none]⟩
      config).toList = ["policy-violation"] ∧
    (newBoundaryViolationIds ⟨[violation "b" none]⟩ ⟨[violation "c" none]⟩ config).toList =
      ["policy-violation"] ∧
    (violation "b" (some ⟨"s", "legacy"⟩)).id = (violation "b" none).id ∧
    (violation "b" none).id = (violation "c" none).id := by
  decide +kernel

/-- One of some parallel violations. -/
def occurrence (id : String) : PolicyViolation := { violation "c" none with id := id }

/-- Two parallel violations. -/
def before : PolicyResult := ⟨[occurrence "first", occurrence "second"]⟩

/-- One of the two has moved, and there is a third one. -/
def after : PolicyResult := ⟨[occurrence "first", occurrence "moved", occurrence "third"]⟩

def key : BoundaryViolationComparisonKey := boundaryViolationComparisonKey (occurrence "first")

theorem ids_distinct : (after.violations.map PolicyViolation.id).Nodup := by decide

/-- One violation is new, although two ids are. -/
theorem newBoundaryViolationIds_counts_added :
    ((sideIds config after key).filter fun id =>
        decide (id ∈ newBoundaryViolationIds before after config)).length = 3 - 2 ∧
      newBoundaryViolationIds after after config = ∅ := by
  have hbefore : (sideIds config before key).length = 2 := by decide +kernel
  have hafter : (sideIds config after key).length = 3 := by decide +kernel
  refine ⟨?_, (@newBoundaryViolationIds_counts before _ _ ids_distinct).2.2.2.1⟩
  rw [(newBoundaryViolationIds_counts ids_distinct).1 key, hbefore, hafter]

end ViolationSample

end Policy
