import Depgraph.Library.SortDedup
import Mathlib.Data.List.Forall2

/-!
# One element replaced by another

Two lists that differ in one element are sorted alike, and lose the same repeats, when every other
element compares alike with the two and differs from both (`Replaced.sortDedup`).
-/

namespace SortDedup

variable {α β : Type} [LinearOrder β] (key : α → β) (t t' : α)

/-- Equal elements other than the two, or the one and the other. -/
def Replaced (a b : α) : Prop := a = b ∧ a ≠ t ∧ a ≠ t' ∨ a = t ∧ b = t'

/-- An element that differs from both and compares alike with them. -/
def Apart (d : α) : Prop := d ≠ t ∧ d ≠ t' ∧ (key d ≤ key t ↔ key d ≤ key t')

variable {key t t'}

theorem Replaced.orderedInsert {d : α} (hd : Apart key t t' d) {l l' : List α}
    (h : List.Forall₂ (Replaced t t') l l') :
    List.Forall₂ (Replaced t t') (l.orderedInsert (fun a b => key a ≤ key b) d)
      (l'.orderedInsert (fun a b => key a ≤ key b) d) := by
  have hself : Replaced t t' d d := Or.inl ⟨rfl, hd.1, hd.2.1⟩
  induction h with
  | nil => exact .cons hself .nil
  | @cons a b l l' hab hl ih =>
    have hiff : key d ≤ key a ↔ key d ≤ key b := by
      rcases hab with ⟨rfl, -, -⟩ | ⟨rfl, rfl⟩
      · exact Iff.rfl
      · exact hd.2.2
    by_cases hle : key d ≤ key a
    · rw [List.orderedInsert, List.orderedInsert, if_pos hle, if_pos (hiff.1 hle)]
      exact .cons hself (.cons hab hl)
    · rw [List.orderedInsert, List.orderedInsert, if_neg hle, if_neg fun hb => hle (hiff.2 hb)]
      exact .cons hab ih

theorem Replaced.sortByKey {l : List α} (h : ∀ d ∈ l, Apart key t t' d) :
    List.Forall₂ (Replaced t t') (sortByKey key (l ++ [t])) (sortByKey key (l ++ [t'])) := by
  induction l with
  | nil => exact .cons (Or.inr ⟨rfl, rfl⟩) .nil
  | cons d l ih =>
    obtain ⟨hd, hl⟩ := List.forall_mem_cons.1 h
    exact Replaced.orderedInsert hd (ih hl)

theorem Replaced.eq_iff {a b c d : α} (hab : Replaced t t' a b) (hcd : Replaced t t' c d) :
    a = c ↔ b = d := by
  rcases hab with ⟨rfl, hat, hat'⟩ | ⟨rfl, rfl⟩ <;> rcases hcd with ⟨rfl, hct, hct'⟩ | ⟨rfl, rfl⟩
  · exact Iff.rfl
  · exact ⟨fun h => absurd h hat, fun h => absurd h hat'⟩
  · exact ⟨fun h => absurd h.symm hct, fun h => absurd h.symm hct'⟩
  · exact ⟨fun _ => rfl, fun _ => rfl⟩

theorem Replaced.dedupFrom [DecidableEq α] {a b : α} (hab : Replaced t t' a b) {l l' : List α}
    (h : List.Forall₂ (Replaced t t') l l') :
    List.Forall₂ (Replaced t t') (dedupFrom (fun a b => decide (a = b)) a l)
      (dedupFrom (fun a b => decide (a = b)) b l') := by
  induction h generalizing a b with
  | nil => exact .nil
  | @cons c d l l' hcd hl ih =>
    have hiff : decide (c = a) = decide (d = b) := decide_eq_decide.2 (hcd.eq_iff hab)
    rw [SortDedup.dedupFrom, SortDedup.dedupFrom, hiff]
    split_ifs
    · exact ih hab
    · exact .cons hcd (ih hcd)

theorem Replaced.sortDedup [DecidableEq α] {l : List α} (h : ∀ d ∈ l, Apart key t t' d) :
    List.Forall₂ (Replaced t t') (SortDedup.sortDedup key (fun a b => decide (a = b)) (l ++ [t]))
      (SortDedup.sortDedup key (fun a b => decide (a = b)) (l ++ [t'])) := by
  have hsort := Replaced.sortByKey h
  unfold SortDedup.sortDedup
  revert hsort
  generalize SortDedup.sortByKey key (l ++ [t]) = sorted
  generalize SortDedup.sortByKey key (l ++ [t']) = sorted'
  intro hsort
  cases hsort with
  | nil => exact .nil
  | cons hab hl => exact .cons hab (hab.dedupFrom hl)

end SortDedup
