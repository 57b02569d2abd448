import Depgraph.Library.SortDedup
import Depgraph.Library.Fallible
import Mathlib.Data.Finset.Card
import Mathlib.Data.List.Dedup
import Mathlib.Data.String.Basic

/-!
# Coverage of the analysis units

The ledger has a row for every chunk of every stage of a unit. A unit is complete when its rows
join: the chunks of a stage are numbered without a gap, their sources are a partition of the sources
that the unit owns, and all stages saw one context.

## Main results

* `validChunks_iff`: the chunks of a stage are accepted exactly when they are complete.
-/

namespace Store

open Fallible SortDedup

/-! ### Sets -/

/-- The members of a `BTreeSet` collected from a list, in their order. -/
def btreeSet {α : Type} [LinearOrder α] (l : List α) : List α := exact id l

section Sets

variable {α : Type} [LinearOrder α] {l l' : List α}

@[simp] theorem mem_btreeSet {a : α} : a ∈ btreeSet l ↔ a ∈ l := mem_exact Function.injective_id

theorem nodup_btreeSet : (btreeSet l).Nodup := (exact_strict l).imp fun h => ne_of_lt h

theorem btreeSet_eq_iff : btreeSet l = btreeSet l' ↔ ∀ a, a ∈ l ↔ a ∈ l' := by
  constructor
  · intro h a
    rw [← mem_btreeSet, h, mem_btreeSet]
  · exact exact_congr Function.injective_id

/-- A sorted list without repetitions is a set as it is. -/
theorem btreeSet_eq_self (h : l.Pairwise (· < ·)) : btreeSet l = l := by
  have hle : l.Pairwise fun a b => id a ≤ id b := h.imp fun hlt => le_of_lt hlt
  have hchain : Distinct (sameKey id) l :=
    h.isChain.imp fun a b hlt => decide_eq_false (ne_of_gt hlt)
  exact sortDedup_eq_self hle hchain

/-- A set has as many members as the list exactly when the list repeats nothing. -/
theorem length_btreeSet_eq_iff : (btreeSet l).length = l.length ↔ l.Nodup := by
  have hcard : (btreeSet l).length = l.dedup.length := by
    rw [← List.toFinset_card_of_nodup nodup_btreeSet, ← List.card_toFinset]
    congr 1
    ext a
    simp
  rw [hcard]
  constructor
  · intro h
    exact List.dedup_eq_self.1 ((List.dedup_sublist l).eq_of_length h)
  · intro h
    rw [List.dedup_eq_self.2 h]

/-- A set with one member consists of it. -/
theorem btreeSet_eq_singleton {a : α} : btreeSet l = [a] ↔ l ≠ [] ∧ ∀ b ∈ l, b = a := by
  have hself : btreeSet [a] = [a] := btreeSet_eq_self (List.pairwise_singleton _ a)
  rw [← hself, btreeSet_eq_iff]
  constructor
  · intro h
    refine ⟨?_, fun b hb => List.mem_singleton.1 ((h b).1 hb)⟩
    rintro rfl
    exact absurd ((h a).2 List.mem_cons_self) List.not_mem_nil
  · rintro ⟨hne, hall⟩ b
    rw [List.mem_singleton]
    refine ⟨hall b, ?_⟩
    rintro rfl
    obtain ⟨c, hc⟩ := List.exists_mem_of_ne_nil l hne
    exact hall c hc ▸ hc

end Sets

/-! ### Ledger rows -/

structure AnalysisUnitLedgerRecord where
  contractVersion : String
  unitId : String
  adapter : String
  unitRoot : String
  stage : String
  chunkId : String
  chunkIndex : Option Nat
  chunkCount : Option Nat
  status : String
  sourcePaths : List String
  contextPaths : List String
  contextFingerprint : Option String
  unknownDependencies : Bool

/-- The slot of a row lies below its own count, and the count is not above the expected one. -/
def AnalysisUnitLedgerRecord.hasSlot (row : AnalysisUnitLedgerRecord) (expected : Nat) : Bool :=
  row.chunkCount.any fun count =>
    decide (0 < count) && decide (count ≤ expected) && row.chunkIndex.any fun index => index < count

/-- A turn of the loop over the rows of a stage, with the indices and the ids seen so far. -/
def chunkSlot (expected : Nat) (seen : List Nat × List String) (row : AnalysisUnitLedgerRecord) :
    Except String (List Nat × List String) := do
  let emptyManifestBatch := expected = 1 ∧ row.sourcePaths = [] ∧ row.contextPaths = []
  check (row.hasSlot expected ∧ row.chunkId ≠ "" ∧ (emptyManifestBatch ∨ row.contextPaths ≠ []))
    "analysis-unit-chunk-metadata"
  check (row.chunkIndex.getD 0 ∉ seen.1 ∧ row.chunkId ∉ seen.2) "analysis-unit-duplicate-chunk"
  return (row.chunkIndex.getD 0 :: seen.1, row.chunkId :: seen.2)

/-- `valid_chunks`. The error is the reason that is inserted. -/
def validChunks (rows : List AnalysisUnitLedgerRecord) : Except String Unit := do
  check (rows ≠ []) "analysis-unit-missing-stage"
  let expected ← required (rows.filterMap (·.chunkCount)).max? "analysis-unit-chunk-metadata"
  check (expected ≠ 0 ∧ rows.length = expected) "analysis-unit-chunk-count-mismatch"
  let seen ← rows.foldlM (chunkSlot expected) ([], [])
  check (btreeSet seen.1 = List.range expected) "analysis-unit-chunk-index-gap"

/-! ### Complete chunks -/

/-- A row of a stage with `n` chunks says which one it is, and lists its context. -/
structure ChunkRow (n : Nat) (row : AnalysisUnitLedgerRecord) : Prop where
  slot : ∃ index count, row.chunkIndex = some index ∧ row.chunkCount = some count ∧
    index < count ∧ count ≤ n
  named : row.chunkId ≠ ""
  /-- An empty context is left to a single chunk without sources. -/
  context : row.contextPaths = [] → n = 1 ∧ row.sourcePaths = []

/-- The rows of a stage are all its chunks. -/
structure CompleteChunks (rows : List AnalysisUnitLedgerRecord) : Prop where
  nonempty : rows ≠ []
  row : ∀ row ∈ rows, ChunkRow rows.length row
  /-- The number of the rows is the largest count. -/
  newest : ∃ row ∈ rows, row.chunkCount = some rows.length
  ids : (rows.map (·.chunkId)).Nodup
  indices : (rows.map (·.chunkIndex)).Perm ((List.range rows.length).map some)

theorem hasSlot_iff {row : AnalysisUnitLedgerRecord} {expected : Nat} :
    row.hasSlot expected = true ↔ ∃ index count, row.chunkIndex = some index ∧
      row.chunkCount = some count ∧ index < count ∧ count ≤ expected := by
  unfold AnalysisUnitLedgerRecord.hasSlot
  rw [Option.any_eq_true]
  constructor
  · rintro ⟨count, hcount, h⟩
    rw [Bool.and_eq_true, Bool.and_eq_true, decide_eq_true_eq, decide_eq_true_eq,
      Option.any_eq_true] at h
    obtain ⟨⟨-, hle⟩, index, hindex, hlt⟩ := h
    exact ⟨index, count, hindex, hcount, of_decide_eq_true hlt, hle⟩
  · rintro ⟨index, count, hindex, hcount, hlt, hle⟩
    refine ⟨count, hcount, ?_⟩
    rw [hindex]
    simp only [Option.any_some, Bool.and_eq_true, decide_eq_true_eq]
    exact ⟨⟨by omega, hle⟩, hlt⟩

/-- A turn is taken exactly for a proper row with a new index and a new id. -/
theorem chunkSlot_eq_ok {expected : Nat} {seen seen' : List Nat × List String}
    {row : AnalysisUnitLedgerRecord} :
    chunkSlot expected seen row = .ok seen' ↔ ChunkRow expected row ∧
      (row.chunkIndex.getD 0 ∉ seen.1 ∧ row.chunkId ∉ seen.2) ∧
        (row.chunkIndex.getD 0 :: seen.1, row.chunkId :: seen.2) = seen' := by
  unfold chunkSlot
  simp only [bind_eq_ok, check_eq_ok, exists_const, hasSlot_iff, pure, Except.pure,
    Except.ok.injEq]
  have hrow : ((∃ index count, row.chunkIndex = some index ∧ row.chunkCount = some count ∧
      index < count ∧ count ≤ expected) ∧ row.chunkId ≠ "" ∧
      ((expected = 1 ∧ row.sourcePaths = [] ∧ row.contextPaths = []) ∨ row.contextPaths ≠ [])) ↔
      ChunkRow expected row := by
    constructor
    · rintro ⟨hslot, hnamed, hcontext⟩
      refine ⟨hslot, hnamed, fun hempty => ?_⟩
      rcases hcontext with ⟨hone, hsources, -⟩ | hne
      · exact ⟨hone, hsources⟩
      · exact absurd hempty hne
    · rintro ⟨hslot, hnamed, hcontext⟩
      refine ⟨hslot, hnamed, ?_⟩
      by_cases hempty : row.contextPaths = []
      · exact .inl ⟨(hcontext hempty).1, (hcontext hempty).2, hempty⟩
      · exact .inr hempty
  rw [hrow]

/-- The loop over the rows: the rows are proper, and no index and no id occurs twice. -/
theorem chunkSlots_eq_ok {expected : Nat} {rows : List AnalysisUnitLedgerRecord}
    {seen seen' : List Nat × List String} :
    rows.foldlM (chunkSlot expected) seen = .ok seen' ↔ (∀ row ∈ rows, ChunkRow expected row) ∧
      ((rows.map fun row => row.chunkIndex.getD 0).Nodup ∧
        ∀ row ∈ rows, row.chunkIndex.getD 0 ∉ seen.1) ∧
      ((rows.map (·.chunkId)).Nodup ∧ ∀ row ∈ rows, row.chunkId ∉ seen.2) ∧
      ((rows.map fun row => row.chunkIndex.getD 0).reverse ++ seen.1,
        (rows.map (·.chunkId)).reverse ++ seen.2) = seen' := by
  induction rows generalizing seen with
  | nil => simp [pure, Except.pure]
  | cons row rows ih =>
    rw [List.foldlM_cons, bind_eq_ok]
    simp only [chunkSlot_eq_ok, ih, List.forall_mem_cons, List.map_cons, List.nodup_cons,
      List.reverse_cons, List.append_assoc, List.singleton_append, List.mem_map, not_exists,
      not_and]
    constructor
    · rintro ⟨-, ⟨hrow, ⟨hindex, hid⟩, rfl⟩, hrows, ⟨hindices, hnew⟩, ⟨hids, hfresh⟩, heq⟩
      refine ⟨⟨hrow, hrows⟩, ⟨⟨fun other hother h => ?_, hindices⟩, hindex, fun other hother => ?_⟩,
        ⟨⟨fun other hother h => ?_, hids⟩, hid, fun other hother => ?_⟩, heq⟩
      · exact hnew other hother (h ▸ List.mem_cons_self)
      · exact fun h => hnew other hother (List.mem_cons_of_mem _ h)
      · exact hfresh other hother (h ▸ List.mem_cons_self)
      · exact fun h => hfresh other hother (List.mem_cons_of_mem _ h)
    · rintro ⟨⟨hrow, hrows⟩, ⟨⟨hne, hindices⟩, hindex, hnew⟩, ⟨⟨hneId, hids⟩, hid, hfresh⟩, heq⟩
      refine ⟨_, ⟨hrow, ⟨hindex, hid⟩, rfl⟩, hrows, ⟨hindices, fun other hother => ?_⟩,
        ⟨hids, fun other hother => ?_⟩, heq⟩
      · rw [List.mem_cons, not_or]
        exact ⟨hne other hother, hnew other hother⟩
      · rw [List.mem_cons, not_or]
        exact ⟨hneId other hother, hfresh other hother⟩

/-- The count that the rows expect is the largest one. -/
theorem expected_iff {rows : List AnalysisUnitLedgerRecord}
    (hrows : ∀ row ∈ rows, ChunkRow rows.length row) :
    (rows.filterMap (·.chunkCount)).max? = some rows.length ↔
      ∃ row ∈ rows, row.chunkCount = some rows.length := by
  rw [List.max?_eq_some_iff, List.mem_filterMap]
  refine ⟨fun h => h.1, fun h => ⟨h, fun count hcount => ?_⟩⟩
  obtain ⟨row, hrow, heq⟩ := List.mem_filterMap.1 hcount
  obtain ⟨-, count', -, hcount', -, hle⟩ := (hrows row hrow).slot
  rw [heq] at hcount'
  exact Option.some.inj hcount' ▸ hle

/-- Proper rows with the indices `0, …, n - 1`. -/
theorem indices_iff {rows : List AnalysisUnitLedgerRecord} {n : Nat}
    (hrows : ∀ row ∈ rows, ChunkRow n row) :
    ((rows.map fun row => row.chunkIndex.getD 0).Nodup ∧
      btreeSet (rows.map fun row => row.chunkIndex.getD 0).reverse = List.range n) ↔
      (rows.map (·.chunkIndex)).Perm ((List.range n).map some) := by
  have hsome : rows.map (·.chunkIndex) = (rows.map fun row => row.chunkIndex.getD 0).map some := by
    rw [List.map_map]
    refine List.map_congr_left fun row hrow => ?_
    obtain ⟨index, -, hindex, -, -⟩ := (hrows row hrow).slot
    rw [Function.comp_apply, hindex, Option.getD_some]
  have hrange : btreeSet (List.range n) = List.range n := btreeSet_eq_self List.pairwise_lt_range
  rw [hsome, List.map_perm_map_iff (Option.some_injective _), ← hrange, btreeSet_eq_iff, hrange]
  constructor
  · rintro ⟨hnodup, hmem⟩
    refine (List.perm_ext_iff_of_nodup hnodup List.nodup_range).2 fun index => ?_
    rw [← hmem index, List.mem_reverse]
  · intro hperm
    refine ⟨hperm.nodup_iff.2 List.nodup_range, fun index => ?_⟩
    rw [List.mem_reverse, hperm.mem_iff]

/-- **The rows of a stage are accepted exactly when they are all its chunks.** -/
theorem validChunks_iff {rows : List AnalysisUnitLedgerRecord} {u : Unit} :
    validChunks rows = .ok u ↔ CompleteChunks rows := by
  unfold validChunks
  simp only [bind_eq_ok, check_eq_ok, required_eq_ok, chunkSlots_eq_ok, exists_const]
  constructor
  · rintro ⟨hne, expected, hmax, ⟨-, rfl⟩, seen, ⟨hrows, ⟨hindices, -⟩, ⟨hids, -⟩, rfl⟩, hset⟩
    rw [List.append_nil] at hset
    exact ⟨hne, hrows, (expected_iff hrows).1 hmax, hids, (indices_iff hrows).1 ⟨hindices, hset⟩⟩
  · rintro ⟨hne, hrows, hnewest, hids, hindices⟩
    obtain ⟨hnodup, hset⟩ := (indices_iff hrows).2 hindices
    refine ⟨hne, rows.length, (expected_iff hrows).2 hnewest,
      ⟨fun h => hne (List.length_eq_zero_iff.1 h), rfl⟩, _,
      ⟨hrows, ⟨hnodup, by simp⟩, ⟨hids, by simp⟩, rfl⟩, ?_⟩
    rw [List.append_nil]
    exact hset

/-- The chunks of a stage are complete in every order of the rows. -/
theorem CompleteChunks.perm {rows rows' : List AnalysisUnitLedgerRecord} (h : CompleteChunks rows)
    (hperm : rows.Perm rows') : CompleteChunks rows' where
  nonempty hnil := h.nonempty (List.perm_nil.1 (hnil ▸ hperm))
  row row hrow := hperm.length_eq ▸ h.row row (hperm.mem_iff.2 hrow)
  newest := by
    obtain ⟨row, hrow, hcount⟩ := h.newest
    exact ⟨row, hperm.mem_iff.1 hrow, hperm.length_eq ▸ hcount⟩
  ids := (hperm.map _).nodup_iff.1 h.ids
  indices := hperm.length_eq ▸ (hperm.map _).symm.trans h.indices

end Store
