import Depgraph.Store.AnalysisCoverage
import Mathlib.Data.List.Perm.Subperm

/-!
# Batch numbers

A batch has an index and the count of the batches when it was made. A split gives the index to the
first half and the next free one to the second; both halves take the new count, and the other
batches keep theirs.

## Main results

* `numbered_initial`, `Numbered.split`: every sequence of splits leaves the indexes without a gap.
* `Numbered.not_completeChunks`: no proper part of the batches looks like all of them.
-/

namespace Analysis

open Store

/-- The numbers of the batches of a stage that was partitioned into `initial` batches. -/
structure Numbered (initial : Nat) (numbers : List (Nat × Nat)) : Prop where
  initial_pos : 0 < initial
  initial_le : initial ≤ numbers.length
  indices : (numbers.map Prod.fst).Perm (List.range numbers.length)
  slot : ∀ number ∈ numbers, number.1 < number.2 ∧ number.2 ≤ numbers.length
  newest : ∃ number ∈ numbers, number.2 = numbers.length
  generation : ∀ number ∈ numbers, initial ≤ number.2
  /-- The split that made the index `n` gave a smaller index a larger count. -/
  superseded : ∀ n, initial ≤ n → n < numbers.length → ∃ number ∈ numbers,
    number.1 < n ∧ n < number.2

/-- The numbers of a partition. -/
def initialNumbers (count : Nat) : List (Nat × Nat) :=
  (List.range count).map fun index => (index, max count 1)

theorem numbered_initial {count : Nat} (hpos : 0 < count) :
    Numbered count (initialNumbers count) := by
  have hlength : (initialNumbers count).length = count := by simp [initialNumbers]
  have hmem {number : Nat × Nat} (hnumber : number ∈ initialNumbers count) :
      number.1 < count ∧ number.2 = count := by
    obtain ⟨index, hindex, rfl⟩ := List.mem_map.1 hnumber
    exact ⟨List.mem_range.1 hindex, max_eq_left hpos⟩
  refine
    { initial_pos := hpos
      initial_le := hlength.ge
      indices := ?_
      slot := fun number hnumber => ?_
      newest := ?_
      generation := fun number hnumber => (hmem hnumber).2.ge
      superseded := fun n hle hlt => absurd (hlength ▸ hlt) (Nat.not_lt.2 hle) }
  · rw [hlength, initialNumbers, List.map_map]
    exact List.Perm.of_eq (List.map_id' _)
  · rw [hlength]
    exact ⟨(hmem hnumber).2 ▸ (hmem hnumber).1, (hmem hnumber).2.le⟩
  · rw [hlength]
    exact ⟨(0, max count 1), List.mem_map.2 ⟨0, List.mem_range.2 hpos, rfl⟩, max_eq_left hpos⟩

section Split

variable {initial : Nat} {before after : List (Nat × Nat)} {number : Nat × Nat}

/-- The index after the largest one is the number of the batches. -/
theorem Numbered.next_index (h : Numbered initial (before ++ number :: after)) {next : Nat}
    (hnext : ((before ++ after).map Prod.fst ++ [number.1]).max? = some next) :
    next + 1 = (before ++ number :: after).length := by
  have hperm : ((before ++ after).map Prod.fst ++ [number.1]).Perm
      (List.range (before ++ number :: after).length) := by
    refine List.Perm.trans ?_ h.indices
    rw [← List.map_singleton, ← List.map_append, List.append_assoc]
    exact (List.perm_append_comm.append_left before).map Prod.fst
  have hpos : 0 < (before ++ number :: after).length := by simp
  obtain ⟨hmem, hle⟩ := List.max?_eq_some_iff.1 hnext
  have hlt := List.mem_range.1 (hperm.mem_iff.1 hmem)
  have hlast := hle _ (hperm.mem_iff.2 (List.mem_range.2 (Nat.sub_one_lt_of_lt hpos)))
  omega

/-- **A split keeps the numbers.** -/
theorem Numbered.split (h : Numbered initial (before ++ number :: after)) :
    Numbered initial (before ++ (number.1, (before ++ number :: after).length + 1) ::
      ((before ++ number :: after).length, (before ++ number :: after).length + 1) :: after) := by
  generalize hcount : (before ++ number :: after).length = count at h ⊢
  have hlength : (before ++ (number.1, count + 1) :: (count, count + 1) :: after).length =
      count + 1 := by
    rw [← hcount]
    simp only [List.length_append, List.length_cons]
    omega
  have hold {other : Nat × Nat} (hother : other ∈ before ++ after) :
      other ∈ before ++ number :: after := by
    rw [List.mem_append] at hother ⊢
    exact hother.imp_right (List.mem_cons_of_mem _)
  have hmem {other : Nat × Nat} (hother : other ∈ before ++ (number.1, count + 1) ::
      (count, count + 1) :: after) :
      other ∈ before ++ after ∨ other = (number.1, count + 1) ∨ other = (count, count + 1) := by
    simp only [List.mem_append, List.mem_cons] at hother ⊢
    tauto
  have hnumber : number ∈ before ++ number :: after := by simp
  have hlt : number.1 < count := by
    obtain ⟨hslot, hle⟩ := h.slot number hnumber
    omega
  have hinitial := h.initial_le
  rw [hcount] at hinitial
  refine
    { initial_pos := h.initial_pos
      initial_le := by omega
      indices := ?_
      slot := fun other hother => ?_
      newest := ⟨(count, count + 1), by simp, hlength.symm⟩
      generation := fun other hother => ?_
      superseded := fun n hle hn => ?_ }
  · rw [hlength, List.range_succ, ← hcount]
    refine List.Perm.trans ?_ (h.indices.append_right [(before ++ number :: after).length])
    rw [hcount]
    simp only [List.map_append, List.map_cons, List.append_assoc, List.cons_append]
    refine (List.Perm.cons _ ?_).append_left _
    exact (List.perm_append_singleton _ _).symm
  · rw [hlength]
    rcases hmem hother with hother | rfl | rfl
    · obtain ⟨hslot, hle⟩ := h.slot other (hold hother)
      exact ⟨hslot, by omega⟩
    · exact ⟨by dsimp only; omega, le_rfl⟩
    · exact ⟨Nat.lt_succ_self _, le_rfl⟩
  · rcases hmem hother with hother | rfl | rfl
    · exact h.generation other (hold hother)
    · dsimp only
      omega
    · dsimp only
      omega
  · rw [hlength] at hn
    obtain hn | rfl := Nat.lt_succ_iff_lt_or_eq.1 hn
    · obtain ⟨other, hother, hindex, hother_lt⟩ := h.superseded n hle (hcount ▸ hn)
      by_cases heq : other = number
      · refine ⟨(number.1, count + 1), by simp, heq ▸ hindex, ?_⟩
        dsimp only
        omega
      · refine ⟨other, ?_, hindex, hother_lt⟩
        simp only [List.mem_append, List.mem_cons] at hother ⊢
        tauto
    · exact ⟨(number.1, n + 1), by simp, hlt, Nat.lt_succ_self n⟩

end Split

/-! ### What the ledger accepts -/

/-- The number that a row carries. -/
def rowNumber (row : AnalysisUnitLedgerRecord) : Option Nat × Option Nat :=
  (row.chunkIndex, row.chunkCount)

/-- Rows that carry the numbers of batches, each with a name of its own and a context. -/
structure CarriesAll (rows : List AnalysisUnitLedgerRecord) (numbers : List (Nat × Nat)) : Prop where
  numbers : rows.map rowNumber = numbers.map fun number => (some number.1, some number.2)
  ids : (rows.map (·.chunkId)).Nodup
  named : ∀ row ∈ rows, row.chunkId ≠ ""
  context : ∀ row ∈ rows, row.contextPaths ≠ []

section Ledger

variable {initial : Nat} {rows : List AnalysisUnitLedgerRecord} {numbers : List (Nat × Nat)}

theorem CarriesAll.length_eq (h : CarriesAll rows numbers) : rows.length = numbers.length := by
  have hlength := congrArg List.length h.numbers
  simpa using hlength

theorem CarriesAll.exists_number (h : CarriesAll rows numbers) {row : AnalysisUnitLedgerRecord}
    (hrow : row ∈ rows) : ∃ number ∈ numbers, row.chunkIndex = some number.1 ∧
      row.chunkCount = some number.2 := by
  have hmem : rowNumber row ∈ numbers.map fun number => (some number.1, some number.2) :=
    h.numbers ▸ List.mem_map_of_mem hrow
  obtain ⟨number, hnumber, heq⟩ := List.mem_map.1 hmem
  exact ⟨number, hnumber, (congrArg Prod.fst heq).symm, (congrArg Prod.snd heq).symm⟩

theorem CarriesAll.exists_row (h : CarriesAll rows numbers) {number : Nat × Nat}
    (hnumber : number ∈ numbers) : ∃ row ∈ rows, row.chunkIndex = some number.1 ∧
      row.chunkCount = some number.2 := by
  have hmem : (some number.1, some number.2) ∈ rows.map rowNumber := by
    rw [h.numbers]
    exact List.mem_map.2 ⟨number, hnumber, rfl⟩
  obtain ⟨row, hrow, heq⟩ := List.mem_map.1 hmem
  exact ⟨row, hrow, congrArg Prod.fst heq, congrArg Prod.snd heq⟩

/-- **All rows together are accepted.** -/
theorem CarriesAll.completeChunks (h : CarriesAll rows numbers) (hnumbers : Numbered initial numbers) :
    CompleteChunks rows where
  nonempty hnil := by
    have hle := hnumbers.initial_le
    have hpos := hnumbers.initial_pos
    rw [← h.length_eq, hnil, List.length_nil] at hle
    omega
  row row hrow := by
    obtain ⟨number, hnumber, hindex, hcount⟩ := h.exists_number hrow
    obtain ⟨hlt, hle⟩ := hnumbers.slot number hnumber
    exact
      { slot := ⟨number.1, number.2, hindex, hcount, hlt, h.length_eq ▸ hle⟩
        named := h.named row hrow
        context := fun hempty => absurd hempty (h.context row hrow) }
  newest := by
    obtain ⟨number, hnumber, hcount⟩ := hnumbers.newest
    obtain ⟨row, hrow, -, hrowCount⟩ := h.exists_row hnumber
    exact ⟨row, hrow, by rw [hrowCount, hcount, h.length_eq]⟩
  ids := h.ids
  indices := by
    have hmap : rows.map (·.chunkIndex) = (numbers.map Prod.fst).map some := by
      have hfst := congrArg (List.map Prod.fst) h.numbers
      rw [List.map_map, List.map_map] at hfst
      rw [List.map_map]
      exact hfst
    rw [hmap, h.length_eq]
    exact hnumbers.indices.map some

/-- **A proper part of the rows is refused.** -/
theorem CarriesAll.not_completeChunks (h : CarriesAll rows numbers)
    (hnumbers : Numbered initial numbers) {part : List AnalysisUnitLedgerRecord}
    (hpart : part.Subperm rows) (hproper : part.length < rows.length) : ¬ CompleteChunks part := by
  intro hcomplete
  have hcount {row : AnalysisUnitLedgerRecord} (hrow : row ∈ part) {count : Nat}
      (hrowCount : row.chunkCount = some count) : count ≤ part.length := by
    obtain ⟨-, count', -, hcount', -, hle⟩ := (hcomplete.row row hrow).slot
    rw [hrowCount] at hcount'
    exact Option.some.inj hcount' ▸ hle
  by_cases hinitial : initial ≤ part.length
  · -- The index after those of the part was made by a split of one of them.
    obtain ⟨number, hnumber, hindex, hlarge⟩ :=
      hnumbers.superseded part.length hinitial (h.length_eq ▸ hproper)
    have hmem : some number.1 ∈ part.map (·.chunkIndex) :=
      hcomplete.indices.mem_iff.2 (List.mem_map.2 ⟨number.1, List.mem_range.2 hindex, rfl⟩)
    obtain ⟨row, hrow, hrowIndex⟩ := List.mem_map.1 hmem
    obtain ⟨other, hother, hotherIndex, hotherCount⟩ := h.exists_number (hpart.subset hrow)
    have hsame : other = number := by
      have hnodup : (numbers.map Prod.fst).Nodup := hnumbers.indices.nodup_iff.2 List.nodup_range
      have hfst : other.1 = number.1 := Option.some.inj (hotherIndex.symm.trans hrowIndex)
      exact List.inj_on_of_nodup_map hnodup hother hnumber hfst
    have hle := hcount hrow hotherCount
    rw [hsame] at hle
    omega
  · obtain ⟨row, hrow⟩ := List.exists_mem_of_ne_nil _ hcomplete.nonempty
    obtain ⟨number, hnumber, -, hrowCount⟩ := h.exists_number (hpart.subset hrow)
    have hle := hcount hrow hrowCount
    have hgeneration := hnumbers.generation number hnumber
    omega

end Ledger

end Analysis
