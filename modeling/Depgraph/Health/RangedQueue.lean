import Depgraph.Health.RangedExact
import Mathlib.Data.List.TakeDrop

/-!
# The queue of ranges

The ranges of a cut, in any order and with any of them replaced by their halves, have every subject
once (`RangeHistory.covers`). The loop takes each range from its queue for one of four fates
(`turn_cases`), so that it ends with every range counted, and without a lost range it has analysed
every subject once.
-/

namespace Health

open Json Protocol Store SortDedup Blocks Fallible

variable (L : Libraries) {snapshot : GraphSnapshot}

/-! ### Blocks of subjects -/

/-- The range of a block of subjects. -/
def HealthRange.of (block : List String) : HealthRange :=
  ⟨block.head?.getD "", block.getLast?.getD ""⟩

/-- A block of consecutive subjects. -/
def IsBlock (snapshot : GraphSnapshot) (block : List String) : Prop :=
  block ≠ [] ∧ ∃ front back, subjectIds snapshot = front ++ block ++ back

theorem HealthRange.holds_of {block : List String} (hne : block ≠ []) (nodeId : String) :
    (HealthRange.of block).holds nodeId =
      (decide (block.head hne ≤ nodeId) && decide (nodeId ≤ block.getLast hne)) := by
  simp only [HealthRange.holds, HealthRange.of, List.head?_eq_some_head hne,
    List.getLast?_eq_some_getLast hne, Option.getD_some]

section Plain

variable (hplain : snapshot.Plain L.toStableIds)

include hplain

theorem subjects_strict : (sortByKey (·.id) (snapshot.nodes.filter isSubject)).Pairwise
    fun a b => a.id < b.id :=
  sortByKey_strict _ (hplain.nodes.sublist (List.filter_sublist.map _))

theorem subjectIds_strict : (subjectIds snapshot).Pairwise (· < ·) :=
  List.pairwise_map.2 (subjects_strict L hplain)

theorem subjectIds_nodup : (subjectIds snapshot).Nodup :=
  (subjectIds_strict L hplain).imp fun hlt => hlt.ne

theorem rangeSubjects_eq (range : HealthRange) : rangeSubjects snapshot range =
    (sortByKey (·.id) (snapshot.nodes.filter isSubject)).filter fun node => range.holds node.id := by
  have hsplit : snapshot.nodes.filter (fun node => isSubject node && range.holds node.id) =
      (snapshot.nodes.filter isSubject).filter fun node => range.holds node.id := by
    rw [List.filter_filter]
    exact List.filter_congr fun node _ => Bool.and_comm _ _
  have hids : ((snapshot.nodes.filter fun node => isSubject node && range.holds node.id).map
      (·.id)).Nodup := hplain.nodes.sublist (List.filter_sublist.map _)
  have hperm : (snapshot.nodes.filter fun node => isSubject node && range.holds node.id).Perm
      ((sortByKey (·.id) (snapshot.nodes.filter isSubject)).filter fun node =>
        range.holds node.id) := by
    rw [hsplit]
    exact ((sortByKey_perm _ _).filter _).symm
  rw [rangeSubjects, sortByKey_congr _ hids hperm, sortByKey_filter (subjects_strict L hplain)]

/-- The subjects of the range of a block are the block. -/
theorem healthRangeSubjectIds_of {block : List String} (h : IsBlock snapshot block) :
    healthRangeSubjectIds snapshot (.of block) = block := by
  obtain ⟨hne, front, back, hids⟩ := h
  have hfilter : healthRangeSubjectIds snapshot (.of block) =
      (subjectIds snapshot).filter (HealthRange.of block).holds := by
    rw [healthRangeSubjectIds, rangeSubjects_eq L hplain, subjectIds, List.filter_map]
    rfl
  have hstrict := subjectIds_strict L hplain
  rw [hids] at hstrict
  rw [hfilter, hids, funext (HealthRange.holds_of hne)]
  exact filter_between hstrict hne

end Plain

/-- The halves of a block are blocks, and put together they are the block. -/
theorem resplit_blocks {block : List String} (h : IsBlock snapshot block) {left right : HealthRange}
    (hhalves : resplitHealthRange block = some (left, right)) :
    ∃ leftIds rightIds, IsBlock snapshot leftIds ∧ IsBlock snapshot rightIds ∧
      left = .of leftIds ∧ right = .of rightIds ∧ leftIds ++ rightIds = block := by
  obtain ⟨-, front, back, hids⟩ := h
  rw [resplitHealthRange] at hhalves
  split_ifs at hhalves with hshort
  obtain ⟨rfl, rfl⟩ := Prod.mk.inj (Option.some.inj hhalves)
  have hjoin : block.take (block.length / 2) ++ block.drop (block.length / 2) = block :=
    List.take_append_drop _ _
  refine ⟨_, _, ⟨?_, front, block.drop (block.length / 2) ++ back, ?_⟩,
    ⟨?_, front ++ block.take (block.length / 2), back, ?_⟩, rfl, rfl, hjoin⟩
  · rw [← List.length_pos_iff, List.length_take]
    omega
  · rw [hids, List.append_assoc, List.append_assoc, ← List.append_assoc (block.take _), hjoin]
  · rw [← List.length_pos_iff, List.length_drop]
    omega
  · rw [hids, List.append_assoc front (block.take _), hjoin]

/-- Ranges of blocks that have every subject once. -/
structure Covers (snapshot : GraphSnapshot) (ranges : List HealthRange) : Prop where
  blocks : ∀ range ∈ ranges, ∃ block, IsBlock snapshot block ∧ range = .of block
  once : (ranges.flatMap (healthRangeSubjectIds snapshot)).Perm (subjectIds snapshot)

theorem Covers.perm {ranges ranges' : List HealthRange} (h : Covers snapshot ranges)
    (hperm : ranges'.Perm ranges) : Covers snapshot ranges' where
  blocks range hrange := h.blocks range (hperm.mem_iff.1 hrange)
  once := (hperm.flatMap_right _).trans h.once

/-- The ranges a cut leads to: in any order, and with any of them replaced by its halves. -/
inductive RangeHistory (snapshot : GraphSnapshot) : List HealthRange → Prop
  | cut {blocks : List (List String)} (hne : ∀ block ∈ blocks, block ≠ [])
      (hcut : blocks.flatten = subjectIds snapshot) : RangeHistory snapshot (blocks.map .of)
  | reorder {ranges ranges' : List HealthRange} (h : RangeHistory snapshot ranges)
      (hperm : ranges'.Perm ranges) : RangeHistory snapshot ranges'
  | halve {front back : List HealthRange} {range left right : HealthRange}
      (h : RangeHistory snapshot (front ++ range :: back))
      (hhalves : resplitHealthRange (healthRangeSubjectIds snapshot range) = some (left, right)) :
      RangeHistory snapshot (front ++ left :: right :: back)

section Plain

variable (hplain : snapshot.Plain L.toStableIds)

include hplain

theorem covers_cut {blocks : List (List String)} (hne : ∀ block ∈ blocks, block ≠ [])
    (hcut : blocks.flatten = subjectIds snapshot) : Covers snapshot (blocks.map .of) := by
  have hblocks : ∀ block ∈ blocks, IsBlock snapshot block := by
    intro block hblock
    obtain ⟨front, back, rfl⟩ := List.append_of_mem hblock
    refine ⟨hne block hblock, front.flatten, back.flatten, ?_⟩
    rw [← hcut, List.flatten_append, List.flatten_cons, List.append_assoc]
  refine ⟨fun range hrange => ?_, .of_eq ?_⟩
  · obtain ⟨block, hblock, rfl⟩ := List.mem_map.1 hrange
    exact ⟨block, hblocks block hblock, rfl⟩
  · rw [List.flatMap_map, ← hcut, ← List.flatMap_id]
    exact List.flatMap_congr fun block hblock =>
      healthRangeSubjectIds_of L hplain (hblocks block hblock)

theorem Covers.halve {front back : List HealthRange} {range left right : HealthRange}
    (h : Covers snapshot (front ++ range :: back))
    (hhalves : resplitHealthRange (healthRangeSubjectIds snapshot range) = some (left, right)) :
    Covers snapshot (front ++ left :: right :: back) := by
  obtain ⟨block, hblock, rfl⟩ := h.blocks range (by simp)
  rw [healthRangeSubjectIds_of L hplain hblock] at hhalves
  obtain ⟨leftIds, rightIds, hleft, hright, rfl, rfl, hjoin⟩ :=
    resplit_blocks hblock hhalves
  refine ⟨fun other hother => ?_, ?_⟩
  · rcases List.mem_append.1 hother with hfront | htail
    · exact h.blocks other (List.mem_append_left _ hfront)
    · rcases List.mem_cons.1 htail with rfl | htail
      · exact ⟨leftIds, hleft, rfl⟩
      · rcases List.mem_cons.1 htail with rfl | hback
        · exact ⟨rightIds, hright, rfl⟩
        · exact h.blocks other (List.mem_append_right _ (List.mem_cons_of_mem _ hback))
  · have honce := h.once
    rw [List.flatMap_append, List.flatMap_cons, healthRangeSubjectIds_of L hplain hblock] at honce
    rw [List.flatMap_append, List.flatMap_cons, List.flatMap_cons,
      healthRangeSubjectIds_of L hplain hleft, healthRangeSubjectIds_of L hplain hright,
      ← List.append_assoc leftIds, hjoin]
    exact honce

/-- **The ranges of a cut have every subject once, in any order and however often they are halved.** -/
theorem RangeHistory.covers {ranges : List HealthRange} (h : RangeHistory snapshot ranges) :
    Covers snapshot ranges := by
  induction h with
  | cut hne hcut => exact covers_cut L hplain hne hcut
  | reorder _ hperm ih => exact ih.perm hperm
  | halve _ hhalves ih => exact ih.halve L hplain hhalves

end Plain

/-! ### A turn of the loop -/

section Loop

variable {limits : HealthRangeLimits} {allowPartial : Bool} {checkpoints : Checkpoints}

/-- A range has failed. -/
def RangedRun.fail (run : RangedRun) : RangedRun :=
  { run with failed := run.failed + 1, stop := run.stop.or (some .resourceExhausted) }

/-- A range has been replaced by its halves. -/
def RangedRun.halve (run : RangedRun) (left right : HealthRange) (depth : Nat) : RangedRun :=
  { run with
    resplit := run.resplit + 1
    total := run.total + 1
    queue := (left, depth + 1) :: (right, depth + 1) :: run.queue }

/-- The fates of the range that a turn takes from the queue. -/
inductive RangedRun.Taken (snapshot : GraphSnapshot) (limits : HealthRangeLimits)
    (checkpoints : Checkpoints) (rest : RangedRun) (range : HealthRange) (depth : Nat) :
    RangedRun → Prop
  | interrupted (stop : Option HealthAnalysisError) :
      Taken snapshot limits checkpoints rest range depth (rest.interrupt stop)
  | completed (found : List HealthFinding)
      (hfound : checkpoints range = some found ∨ found = rangeFindings L snapshot range) :
      Taken snapshot limits checkpoints rest range depth (rest.complete range found)
  | failed : Taken snapshot limits checkpoints rest range depth rest.fail
  | halved (left right : HealthRange) (hdepth : depth < limits.maxResplitDepth)
      (hhalves : resplitHealthRange (healthRangeSubjectIds snapshot range) = some (left, right)) :
      Taken snapshot limits checkpoints rest range depth (rest.halve left right depth)

/-- An overrun range is halved or has failed. -/
theorem overrun_taken (rest : RangedRun) (range : HealthRange) (depth : Nat) :
    RangedRun.Taken L snapshot limits checkpoints rest range depth
      (rest.overrun snapshot limits range depth) := by
  cases hhalves : halvesOf snapshot limits rest range depth with
  | none =>
    rw [RangedRun.overrun, hhalves]
    exact .failed
  | some halves =>
    obtain ⟨left, right⟩ := halves
    rw [RangedRun.overrun, hhalves]
    rw [halvesOf] at hhalves
    split_ifs at hhalves with hlimits
    exact .halved left right hlimits.1 hhalves

/-- **A turn takes the range at the head of the queue for one of its four fates.** -/
theorem turn_taken {run : RangedRun} {range : HealthRange} {depth : Nat}
    {queue : List (HealthRange × Nat)} (hqueue : run.queue = (range, depth) :: queue)
    (answer : RangeAnswer) :
    RangedRun.Taken L snapshot limits checkpoints { run with queue } range depth
      (run.turn L snapshot limits allowPartial checkpoints answer) := by
  rw [RangedRun.turn]
  split
  · rename_i hnil
    rw [hnil] at hqueue
    cases hqueue
  · rename_i range' depth' queue' hcons
    rw [hqueue] at hcons
    obtain ⟨⟨rfl, rfl⟩, rfl⟩ : (range = range' ∧ depth = depth') ∧ queue = queue' := by simpa using hcons
    dsimp only
    split_ifs
    · exact .interrupted _
    · exact .interrupted _
    · cases hfound : checkpoints range with
      | some found => exact .completed found (.inl hfound)
      | none =>
        cases answer with
        | overrun => exact overrun_taken L _ _ _
        | cancelled => exact .interrupted _
        | cancelledBefore => exact .completed _ (.inr rfl)
        | completed => exact .completed _ (.inr rfl)

/-! ### Runs -/

/-- What every turn keeps: the ranges that are analysed, lost and waiting have every subject once, and
each of them is counted. -/
structure RangedRun.Inv (snapshot : GraphSnapshot) (run : RangedRun) (lost : List HealthRange) :
    Prop where
  covers : Covers snapshot (run.analysed ++ lost ++ run.queue.map Prod.fst)
  completed : run.completed = run.analysed.length
  lost : run.failed + run.interrupted = lost.length
  total : run.completed + run.failed + run.interrupted + run.queue.length = run.total

theorem Covers.append_cons {analysed lost waiting : List HealthRange} {range : HealthRange}
    (h : Covers snapshot (analysed ++ lost ++ range :: waiting)) :
    Covers snapshot (analysed ++ (lost ++ [range]) ++ waiting) := by
  rw [← List.append_assoc, List.append_assoc _ [range], List.singleton_append]
  exact h

theorem Covers.cons_append {analysed lost waiting : List HealthRange} {range : HealthRange}
    (h : Covers snapshot (analysed ++ lost ++ range :: waiting)) :
    Covers snapshot (analysed ++ [range] ++ lost ++ waiting) := by
  refine h.perm ?_
  rw [List.append_assoc analysed, List.append_assoc analysed, List.append_assoc analysed]
  refine List.Perm.append_left _ ?_
  rw [List.append_assoc, List.singleton_append]
  exact List.perm_middle.symm

/-- A turn keeps the invariant. A range that was interrupted or has failed is lost. -/
theorem RangedRun.Inv.taken (hplain : snapshot.Plain L.toStableIds) {run next : RangedRun}
    {lost : List HealthRange} {range : HealthRange} {depth : Nat} {queue : List (HealthRange × Nat)}
    (h : run.Inv snapshot lost) (hqueue : run.queue = (range, depth) :: queue)
    (htaken : Taken L snapshot limits checkpoints { run with queue } range depth next) :
    ∃ lost', next.Inv snapshot lost' := by
  obtain ⟨hcovers, hcompleted, hlost, htotal⟩ := h
  rw [hqueue] at hcovers htotal
  rw [List.map_cons] at hcovers
  rw [List.length_cons] at htotal
  cases htaken with
  | interrupted stop =>
    refine ⟨lost ++ [range], hcovers.append_cons, hcompleted, ?_, ?_⟩
    · rw [List.length_append, List.length_singleton, ← hlost]
      exact (Nat.add_assoc _ _ 1).symm
    · dsimp only [interrupt]
      omega
  | completed found hfound =>
    refine ⟨lost, hcovers.cons_append, ?_, hlost, ?_⟩
    · dsimp only [complete]
      rw [hcompleted, List.length_append, List.length_singleton]
    · dsimp only [complete]
      omega
  | failed =>
    refine ⟨lost ++ [range], hcovers.append_cons, hcompleted, ?_, ?_⟩
    · rw [List.length_append, List.length_singleton, ← hlost]
      dsimp only [fail]
      omega
    · dsimp only [fail]
      omega
  | halved left right _ hhalves =>
    -- the range is no longer planned and its halves are, so the total grows by one
    refine ⟨lost, hcovers.halve L hplain hhalves, hcompleted, hlost, ?_⟩
    dsimp only [halve]
    rw [List.length_cons, List.length_cons]
    omega

theorem turn_of_nil {run : RangedRun} (hqueue : run.queue = []) (answer : RangeAnswer) :
    run.turn L snapshot limits allowPartial checkpoints answer = run := by
  rw [RangedRun.turn, hqueue]

theorem RangedRun.Inv.turn (hplain : snapshot.Plain L.toStableIds) {run : RangedRun}
    {lost : List HealthRange} (h : run.Inv snapshot lost) (answer : RangeAnswer) :
    ∃ lost', (run.turn L snapshot limits allowPartial checkpoints answer).Inv snapshot lost' := by
  cases hqueue : run.queue with
  | nil =>
    rw [turn_of_nil L hqueue]
    exact ⟨lost, h⟩
  | cons entry queue => exact h.taken L hplain hqueue (turn_taken L hqueue answer)

theorem RangedRun.Inv.run (hplain : snapshot.Plain L.toStableIds) {run : RangedRun}
    {lost : List HealthRange} (h : run.Inv snapshot lost) (answers : List RangeAnswer) :
    ∃ lost', (answers.foldl (RangedRun.turn L snapshot limits allowPartial checkpoints) run).Inv
      snapshot lost' := by
  induction answers generalizing run lost with
  | nil => exact ⟨lost, h⟩
  | cons answer answers ih =>
    obtain ⟨lost', h'⟩ := h.turn L hplain answer
    exact ih h'

theorem start_inv {ranges : List HealthRange} (hcovers : Covers snapshot ranges) :
    (RangedRun.start ranges).Inv snapshot [] := by
  refine ⟨?_, rfl, rfl, ?_⟩
  · have hqueue : (RangedRun.start ranges).queue.map Prod.fst = ranges := by
      rw [RangedRun.start, List.map_map]
      exact List.map_id ranges
    rw [hqueue]
    exact hcovers
  · rw [RangedRun.start, List.length_map]
    exact Nat.zero_add _

/-- The findings are those of the analysed ranges, where a checkpoint has the findings of its range. -/
theorem findings_run (hcheckpoints : ∀ range found, checkpoints range = some found →
      found = rangeFindings L snapshot range) (answers : List RangeAnswer) {run : RangedRun}
    (h : run.findings = run.analysed.flatMap (rangeFindings L snapshot)) :
    let next := answers.foldl (RangedRun.turn L snapshot limits allowPartial checkpoints) run
    next.findings = next.analysed.flatMap (rangeFindings L snapshot) := by
  induction answers generalizing run with
  | nil => exact h
  | cons answer answers ih =>
    refine ih ?_
    cases hqueue : run.queue with
    | nil =>
      rw [turn_of_nil L hqueue]
      exact h
    | cons entry queue =>
      have htaken : RangedRun.Taken L snapshot limits checkpoints { run with queue } entry.1 entry.2
          (run.turn L snapshot limits allowPartial checkpoints answer) := turn_taken L hqueue answer
      revert htaken
      generalize run.turn L snapshot limits allowPartial checkpoints answer = next
      intro htaken
      cases htaken with
      | interrupted stop => exact h
      | completed found hfound =>
        obtain rfl : found = rangeFindings L snapshot entry.1 :=
          hfound.elim (hcheckpoints _ _) id
        dsimp only [RangedRun.complete]
        rw [h, List.flatMap_append, List.flatMap_singleton]
      | failed => exact h
      | halved left right hdepth hhalves => exact h

/-! ### The end of the loop -/

/-- The turns that a range can lead to. -/
def turnsOf (limits : HealthRangeLimits) (depth : Nat) : Nat :=
  2 ^ (limits.maxResplitDepth - depth + 1) - 1

theorem turnsOf_pos (depth : Nat) : 0 < turnsOf limits depth := by
  have hpow : 2 ^ 1 ≤ 2 ^ (limits.maxResplitDepth - depth + 1) :=
    Nat.pow_le_pow_right (by decide) (Nat.le_add_left 1 _)
  rw [turnsOf]
  omega

/-- The halves of a range lead to fewer turns than the range. -/
theorem turnsOf_succ {depth : Nat} (hdepth : depth < limits.maxResplitDepth) :
    turnsOf limits (depth + 1) + turnsOf limits (depth + 1) < turnsOf limits depth := by
  have hexp : limits.maxResplitDepth - depth + 1 = limits.maxResplitDepth - (depth + 1) + 1 + 1 := by
    omega
  have hpos : 0 < 2 ^ (limits.maxResplitDepth - (depth + 1) + 1) := Nat.pow_pos (by decide)
  rw [turnsOf, turnsOf, hexp, Nat.pow_succ _ (limits.maxResplitDepth - (depth + 1) + 1)]
  omega

/-- The turns that a queue can lead to. -/
def turnsLeft (limits : HealthRangeLimits) (run : RangedRun) : Nat :=
  (run.queue.map fun entry => turnsOf limits entry.2).sum

theorem turnsLeft_taken {run next : RangedRun} {range : HealthRange} {depth : Nat}
    {queue : List (HealthRange × Nat)} (hqueue : run.queue = (range, depth) :: queue)
    (htaken : RangedRun.Taken L snapshot limits checkpoints { run with queue } range depth next) :
    turnsLeft limits next < turnsLeft limits run := by
  have hpos : 0 < turnsOf limits depth := turnsOf_pos depth
  rw [turnsLeft, turnsLeft, hqueue, List.map_cons, List.sum_cons]
  cases htaken with
  | interrupted stop => exact Nat.lt_add_of_pos_left hpos
  | completed found hfound => exact Nat.lt_add_of_pos_left hpos
  | failed => exact Nat.lt_add_of_pos_left hpos
  | halved left right hdepth hhalves =>
    have hless := turnsOf_succ hdepth
    dsimp only [RangedRun.halve]
    rw [List.map_cons, List.map_cons, List.sum_cons, List.sum_cons]
    dsimp only
    omega

/-- **The loop ends**: with so many turns the queue is empty. -/
theorem queue_run {answers : List RangeAnswer} {run : RangedRun}
    (h : turnsLeft limits run ≤ answers.length) :
    (answers.foldl (RangedRun.turn L snapshot limits allowPartial checkpoints) run).queue = [] := by
  induction answers generalizing run with
  | nil =>
    cases hqueue : run.queue with
    | nil => exact hqueue
    | cons entry queue =>
      rw [turnsLeft, hqueue, List.map_cons, List.sum_cons, List.length_nil] at h
      have hpos : 0 < turnsOf limits entry.2 := turnsOf_pos entry.2
      omega
  | cons answer answers ih =>
    refine ih ?_
    cases hqueue : run.queue with
    | nil =>
      rw [turn_of_nil L hqueue, turnsLeft, hqueue]
      exact Nat.zero_le _
    | cons entry queue =>
      have htaken : RangedRun.Taken L snapshot limits checkpoints { run with queue } entry.1 entry.2
          (run.turn L snapshot limits allowPartial checkpoints answer) := turn_taken L hqueue answer
      have hless := turnsLeft_taken L hqueue htaken
      rw [List.length_cons] at h
      omega

theorem turnsLeft_start (ranges : List HealthRange) :
    turnsLeft limits (.start ranges) = ranges.length * (2 ^ (limits.maxResplitDepth + 1) - 1) := by
  induction ranges with
  | nil => rw [List.length_nil, Nat.zero_mul]; rfl
  | cons range ranges ih =>
    rw [turnsLeft, RangedRun.start] at ih ⊢
    rw [List.map_cons, List.map_cons, List.sum_cons, ih, List.length_cons, Nat.succ_mul, turnsOf,
      Nat.sub_zero, Nat.add_comm]

end Loop

/-! ### The result -/

theorem partialResult_whole {allowPartial : Bool} {run : RangedRun}
    (h : run.partialResult allowPartial = .ok false) : run.failed + run.interrupted = 0 := by
  rw [RangedRun.partialResult] at h
  by_cases hnone : run.failed + run.interrupted = 0
  · exact hnone
  · rw [if_neg hnone] at h
    dsimp only at h
    split_ifs at h
    · cases Except.ok.inj h

/-- A run with a result that is not partial has lost no range. -/
theorem outcome_complete {S : StableIds} {allowPartial : Bool} {maximumFindings : Nat}
    {run : RangedRun} {outcome : RangedUnusedOutcome}
    (houtcome : run.outcome S allowPartial maximumFindings = .ok outcome)
    (hwhole : outcome.isPartial = false) : run.failed + run.interrupted = 0 ∧
      (run.findings.map (·.id)).Nodup ∧ outcome.findings = sortByKey (·.id) run.findings := by
  obtain ⟨isPartial, hpartial, houtcome⟩ := bind_eq_ok.1 houtcome
  dsimp only at houtcome
  split_ifs at houtcome with hnodup hmany hflag
  · obtain rfl := Except.ok.inj houtcome
    exact absurd (hflag.symm.trans hwhole) (by decide)
  · obtain rfl := Except.ok.inj houtcome
    refine ⟨?_, ((sortByKey_perm _ _).map _).nodup_iff.1 hnodup, rfl⟩
    rw [eq_false_of_ne_true hflag] at hpartial
    exact partialResult_whole hpartial

/-- **Ranged analysis is the analysis of the whole snapshot.** Whatever cut, order and halving the ranges
come from, their findings put together are those of `analyze_unused`, in the same order where the ids of
findings are distinct. In every run of the queue each turn takes a range for one of its four fates, all
ranges are counted, the queue empties, and a result that is not partial rests on an analysis of every
subject exactly once. -/
theorem analyzeUnusedRanged_exact (snapshot : GraphSnapshot)
    (hplain : snapshot.Plain L.toStableIds) {ranges : List HealthRange}
    (hranges : RangeHistory snapshot ranges) :
    ((ranges.flatMap (rangeFindings L snapshot)).Perm (analyzeUnused L snapshot) ∧
      (((ranges.flatMap (rangeFindings L snapshot)).map (·.id)).Nodup →
        sortByKey (·.id) (ranges.flatMap (rangeFindings L snapshot)) = analyzeUnused L snapshot)) ∧
    ∀ (limits : HealthRangeLimits) (allowPartial : Bool) (checkpoints : Checkpoints)
        (answers : List RangeAnswer),
      let run := rangedRun L snapshot limits allowPartial checkpoints ranges answers
      (∀ range depth queue answer, run.queue = (range, depth) :: queue →
        RangedRun.Taken L snapshot limits checkpoints { run with queue } range depth
          (run.turn L snapshot limits allowPartial checkpoints answer)) ∧
      run.completed + run.failed + run.interrupted + run.queue.length = run.total ∧
      (ranges.length * (2 ^ (limits.maxResplitDepth + 1) - 1) ≤ answers.length → run.queue = []) ∧
      (run.queue = [] → ∀ maximumFindings outcome,
        run.outcome L.toStableIds allowPartial maximumFindings = .ok outcome →
        outcome.isPartial = false →
        (run.analysed.flatMap (healthRangeSubjectIds snapshot)).Nodup ∧
        (run.analysed.flatMap (healthRangeSubjectIds snapshot)).Perm (subjectIds snapshot) ∧
        ((∀ range found, checkpoints range = some found → found = rangeFindings L snapshot range) →
          outcome.findings = analyzeUnused L snapshot)) := by
  have hcovers := hranges.covers L hplain
  refine ⟨ranges_exact L hplain hcovers.once, fun limits allowPartial checkpoints answers => ?_⟩
  intro run
  obtain ⟨lost, hinv⟩ : ∃ lost, run.Inv snapshot lost :=
    (start_inv hcovers).run L hplain answers
  refine ⟨fun range depth queue answer hqueue => turn_taken L hqueue answer, hinv.total,
    fun henough => queue_run L ((turnsLeft_start ranges).trans_le henough), ?_⟩
  intro hqueue maximumFindings outcome houtcome hwhole
  obtain ⟨hnone, hnodup, hfindings⟩ := outcome_complete houtcome hwhole
  -- nothing is lost and nothing waits, so the analysed ranges alone have every subject once
  obtain rfl : lost = [] := List.length_eq_zero_iff.1 (hinv.lost.symm.trans hnone)
  have honce := hinv.covers.once
  rw [hqueue, List.map_nil, List.append_nil, List.append_nil] at honce
  refine ⟨honce.nodup_iff.2 (subjectIds_nodup L hplain), honce, fun hcheckpoints => ?_⟩
  have hanalysed : run.findings = run.analysed.flatMap (rangeFindings L snapshot) :=
    findings_run L hcheckpoints answers rfl
  rw [hanalysed] at hnodup hfindings
  exact hfindings.trans ((ranges_exact L hplain honce).2 hnodup)

namespace RangedSample

def noMembers : Proper := .object [] List.nodup_nil

theorem members_nodup (language path : Proper) :
    ([("language", language), ("path", path)].map Prod.fst).Nodup :=
  (by decide : ["language", "path"].Nodup)

def file (name path : String) : NodeRecord where
  id := name
  kind := "file"
  locator := path
  displayName := name
  properties := .object _ (members_nodup (.string "rust") (.string path))

/-- The first file imports the second. -/
def edge : EdgeRecord where
  id := "edge"
  siteId := none
  source := "a"
  target := "b"
  kind := "imports"
  phase := "build"
  environment := "default"
  profileId := "profile"
  resolutionStatus := "resolved"
  precision := "exact"
  condition := noMembers
  generated := false

def profile : ProfileRecord where
  id := "profile"
  language := "rust"
  toolchain := none
  command := none
  target := none
  features := []
  environment := noMembers
  sourceRevision := none
  properties := noMembers
  coverage := none

def digest (bytes : List UInt8) : Digest := ⟨bytes.takeD 32 0, List.takeD_length _ _ _⟩

/-- SHA-256 on the four texts that are hashed here, told apart by their lengths: those of the effective
input and the effective profile, and those of the finding and its fingerprint. -/
def libraries : Libraries where
  floatText := .plain
  sha256 text :=
    if text.length = 66 then digest [37, 138, 195, 204, 134, 62, 116, 124, 130, 191, 194, 118, 207, 6,
      243, 134, 239, 191, 167, 58, 214, 16, 239, 197, 217, 189, 137, 184, 2, 89, 252, 53]
    else if text.length = 149 then digest [217, 114, 22, 121, 15, 132, 253, 101, 13, 8, 176, 123, 180,
      1, 132, 127, 210, 8, 31, 27, 172, 62, 96, 141, 122, 163, 126, 115, 182, 141, 75, 176]
    else if text.length = 143 then digest [157, 198, 186, 135, 52, 37, 212, 94, 198, 192, 224, 243, 174,
      23, 232, 151, 255, 206, 11, 180, 221, 111, 10, 32, 155, 180, 1, 13, 161, 243, 95, 229]
    else digest [36, 250, 190, 34, 51, 205, 117, 168, 5, 43, 248, 85, 35, 226, 169, 112, 193, 41, 63,
      121, 151, 37, 215, 191, 91, 232, 15, 212, 118, 45, 39, 1]
  decodeCondition _ := none

def graph : GraphSnapshot where
  profiles := [profile]
  nodes := [file "b" "b.rs", file "a" "a.rs"]
  sites := []
  edges := [edge]
  evidence := []
  coverage := ⟨1, 2, 2, 0, 0, 0, 0, 0, 0, 0, false, [], []⟩
  scanStatus := "completed"
  fileCoverage := []
  matrixEntries := profileMatrixEntries libraries.toStableIds [profile]
  analysisDependencyCoverage := none

def matrixLibraries : ProfileMatrix.Libraries where
  toStableIds := libraries.toStableIds
  decodeCondition _ := none

def matrixSource : ProfileMatrix.MatrixSource := ⟨[profile], graph.sites, graph.edges, graph.evidence⟩

theorem graph_matrixEntries :
    graph.matrixEntries = (matrixSource.entries matrixLibraries).map .ofEntry := by
  rw [entries_read]
  rfl

theorem graph_plain : graph.Plain libraries.toStableIds where
  nodes := by decide
  edges := List.pairwise_singleton _ _
  sites := .nil
  matrix := ⟨matrixLibraries, matrixSource, rfl, rfl, graph_matrixEntries⟩

/-- One range has both files. It overruns its budget and its halves are analysed. -/
def run : RangedRun :=
  rangedRun libraries graph ⟨4, 2⟩ false (fun _ => none) [.of ["a", "b"]]
    [.overrun, .completed, .completed]

/-- What a reader sees of a result. -/
def summary (outcome : RangedUnusedOutcome) : Bool × List (String × String) :=
  (outcome.isPartial, outcome.findings.map fun finding => (finding.id, finding.subjectId))

theorem history : RangeHistory graph [.of ["a", "b"]] :=
  @RangeHistory.cut graph [["a", "b"]] (by decide) (by decide +kernel)

theorem run_result :
    (run.outcome libraries.toStableIds false 10).toOption.map summary = some (false,
      [("finding:sha256:9dc6ba873425d45ec6c0e0f3ae17e897ffce0bb4dd6f0a209bb4010da1f35fe5", "a")]) ∧
      run.queue = [] ∧ (run.completed, run.total) = (2, 2) := by
  decide +kernel

end RangedSample

open RangedSample in
theorem analyzeUnusedRanged_exact_halved : ∃ outcome,
    run.outcome libraries.toStableIds false 10 = .ok outcome ∧
      (run.analysed.flatMap (healthRangeSubjectIds graph)).Perm (subjectIds graph) ∧
      outcome.findings = analyzeUnused libraries graph := by
  obtain ⟨hresult, hqueue, -⟩ := run_result
  obtain ⟨outcome, houtcome, hsummary⟩ := Option.map_eq_some_iff.1 hresult
  have hok : run.outcome libraries.toStableIds false 10 = .ok outcome := by
    cases h : run.outcome libraries.toStableIds false 10 with
    | error error =>
      rw [h] at houtcome
      cases houtcome
    | ok found =>
      rw [h] at houtcome
      exact congrArg _ (Option.some.inj houtcome)
  obtain ⟨-, honce, hfindings⟩ := ((analyzeUnusedRanged_exact libraries graph graph_plain
    history).2 ⟨4, 2⟩ false (fun _ => none) [.overrun, .completed, .completed]).2.2.2 hqueue 10 outcome
      hok (congrArg Prod.fst hsummary)
  exact ⟨outcome, hok, honce, hfindings fun _ _ hnone => absurd hnone (Option.some_ne_none _).symm⟩

end Health
