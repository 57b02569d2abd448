import Mathlib.Data.List.Induction
import Mathlib.Data.List.Sort
import Mathlib.Tactic.Common

/-!
# The first elements of a sorted list

Elements enter a list one at a time; after each, the list is sorted and all but the first `n` elements
are dropped. What is left at the end are the first `n` elements of all of them, sorted
(`foldl_enter`); and the same when an element that is equal to one of those kept does not enter
(`foldl_enterNew`), though an element that was dropped may come again.
-/

namespace TopSorted

variable {α : Type*} {r : α → α → Prop} [DecidableRel r]

/-- Puts an element after those that are not greater. -/
def insertLast (r : α → α → Prop) [DecidableRel r] (a : α) : List α → List α
  | [] => [a]
  | b :: l => if r b a then b :: insertLast r a l else a :: b :: l

/-- One more element, of which the first are kept. -/
def enter (r : α → α → Prop) [DecidableRel r] (n : Nat) (l : List α) (a : α) : List α :=
  ((l ++ [a]).insertionSort r).take n

/-- One more element, unless it is equal to one of those kept. -/
def enterNew (same : α → α → Bool) (r : α → α → Prop) [DecidableRel r] (n : Nat) (l : List α)
    (a : α) : List α :=
  if l.any (same · a) then l else enter r n l a

/-- The elements that are not equal to an earlier one. -/
def firsts (same : α → α → Bool) (l : List α) : List α :=
  l.foldl (fun kept a => if kept.any (same · a) then kept else kept ++ [a]) []

theorem firsts_concat (same : α → α → Bool) (l : List α) (a : α) :
    firsts same (l ++ [a]) =
      if (firsts same l).any (same · a) then firsts same l else firsts same l ++ [a] := by
  rw [firsts, List.foldl_append]
  rfl

theorem mem_of_mem_firsts {same : α → α → Bool} {l : List α} {a : α} (h : a ∈ firsts same l) :
    a ∈ l := by
  induction l using List.reverseRecOn with
  | nil => exact h
  | append_singleton l b ih =>
    rw [firsts_concat] at h
    split_ifs at h
    · exact List.mem_append_left _ (ih h)
    · rcases List.mem_append.1 h with h | h
      · exact List.mem_append_left _ (ih h)
      · exact List.mem_append_right _ h

/-- Only the first elements matter for what is put among them. -/
theorem take_insertLast_take (a : α) (n : Nat) (l : List α) :
    (insertLast r a (l.take n)).take n = (insertLast r a l).take n := by
  induction l generalizing n with
  | nil => rw [List.take_nil]
  | cons b l ih =>
    cases n with
    | zero => rw [List.take_zero, List.take_zero]
    | succ n =>
      rw [List.take_succ_cons, insertLast, insertLast]
      split_ifs with h
      · rw [List.take_succ_cons, List.take_succ_cons, ih]
      · cases n with
        | zero => rfl
        | succ n =>
          rw [List.take_succ_cons, List.take_succ_cons, List.take_succ_cons, List.take_succ_cons,
            List.take_take, Nat.min_eq_left (Nat.le_succ n)]

/-- What is not less than any element comes last. -/
theorem insertLast_eq_append {a : α} {l : List α} (h : ∀ b ∈ l, r b a) :
    insertLast r a l = l ++ [a] := by
  induction l with
  | nil => rfl
  | cons b l ih =>
    rw [insertLast, if_pos (h b List.mem_cons_self),
      ih fun c hc => h c (List.mem_cons_of_mem _ hc)]
    rfl

variable [Std.Total r] [IsTrans α r]

/-- The two ways of putting elements into a list commute. -/
theorem orderedInsert_insertLast (a b : α) (l : List α) :
    (insertLast r a l).orderedInsert r b = insertLast r a (l.orderedInsert r b) := by
  induction l with
  | nil =>
    rw [insertLast, List.orderedInsert_nil, List.orderedInsert_cons, insertLast]
    rfl
  | cons c l ih =>
    by_cases hca : r c a
    · rw [insertLast, if_pos hca, List.orderedInsert_cons, List.orderedInsert_cons]
      by_cases hbc : r b c
      · rw [if_pos hbc, if_pos hbc, insertLast, if_pos (IsTrans.trans _ _ _ hbc hca), insertLast,
          if_pos hca]
      · rw [if_neg hbc, if_neg hbc, insertLast, if_pos hca, ih]
    · rw [insertLast, if_neg hca, List.orderedInsert_cons, List.orderedInsert_cons]
      by_cases hbc : r b c
      · rw [if_pos hbc, insertLast, insertLast, if_neg hca]
      · have hcb : r c b := (Std.Total.total b c).resolve_left hbc
        have hba : ¬ r b a := fun hba => hca (IsTrans.trans _ _ _ hcb hba)
        rw [if_neg hbc, insertLast, if_neg hca, if_neg hba]

/-- The last element of a list goes last among its equals. -/
theorem insertionSort_concat (l : List α) (a : α) :
    (l ++ [a]).insertionSort r = insertLast r a (l.insertionSort r) := by
  induction l with
  | nil => rfl
  | cons b l ih =>
    rw [List.cons_append, List.insertionSort_cons, ih, orderedInsert_insertLast,
      List.insertionSort_cons]

/-- An element enters the first ones of a sorted list. -/
theorem enter_take (n : Nat) (l : List α) (a : α) :
    enter r n ((l.insertionSort r).take n) a = ((l ++ [a]).insertionSort r).take n := by
  have hsorted : ((l.insertionSort r).take n).Pairwise r :=
    (List.pairwise_insertionSort r l).sublist (List.take_sublist _ _)
  rw [enter, insertionSort_concat, insertionSort_concat, hsorted.insertionSort_eq,
    take_insertLast_take]

/-- **The first elements are kept.** -/
theorem foldl_enter (n : Nat) (l : List α) :
    l.foldl (enter r n) [] = (l.insertionSort r).take n := by
  induction l using List.reverseRecOn with
  | nil => simp
  | append_singleton l a ih => rw [List.foldl_append, ih]; exact enter_take n l a

/-- **The first of the elements without repetitions are kept.** An element that was dropped is
dropped again when it comes back. -/
theorem foldl_enterNew {same : α → α → Bool} (n : Nat) {l : List α}
    (hsame : ∀ a ∈ l, ∀ b ∈ l, same a b = true → r a b) :
    l.foldl (enterNew same r n) [] = ((firsts same l).insertionSort r).take n := by
  induction l using List.reverseRecOn with
  | nil => simp [firsts]
  | append_singleton l a ih =>
    have hih := ih fun b hb c hc => hsame b (List.mem_append_left _ hb) c (List.mem_append_left _ hc)
    rw [List.foldl_append, hih, List.foldl_cons, List.foldl_nil, firsts_concat, enterNew]
    split_ifs with hkept hmem hmem
    · rfl
    · obtain ⟨b, hb, hsameb⟩ := List.any_eq_true.1 hkept
      exact absurd (List.any_eq_true.2
        ⟨b, (List.mem_insertionSort r).1 (List.mem_of_mem_take hb), hsameb⟩) hmem
    -- the element is equal to one that was dropped, so it comes after all that are kept
    · obtain ⟨b, hb, hsameb⟩ := List.any_eq_true.1 hmem
      have hba : r b a := hsame b (List.mem_append_left _ (mem_of_mem_firsts hb)) a
        (List.mem_append_right _ List.mem_cons_self) hsameb
      have hdropped : b ∈ ((firsts same l).insertionSort r).drop n := by
        have hsplit := (List.mem_insertionSort r).2 hb
        rw [← List.take_append_drop n ((firsts same l).insertionSort r), List.mem_append] at hsplit
        exact hsplit.resolve_left fun htake => hkept (List.any_eq_true.2 ⟨b, htake, hsameb⟩)
      have hsorted := List.pairwise_insertionSort r (firsts same l)
      rw [← List.take_append_drop n ((firsts same l).insertionSort r), List.pairwise_append]
        at hsorted
      have hlast : ∀ c ∈ ((firsts same l).insertionSort r).take n, r c a := fun c hc =>
        IsTrans.trans _ _ _ (hsorted.2.2 c hc b hdropped) hba
      have hlong : (((firsts same l).insertionSort r).take n).length = n := by
        have hpos := List.length_pos_of_mem hdropped
        rw [List.length_drop] at hpos
        rw [List.length_take]
        omega
      rw [enter, insertionSort_concat, hsorted.1.insertionSort_eq, insertLast_eq_append hlast,
        List.take_append_of_le_length hlong.ge, List.take_of_length_le hlong.le]
    · exact enter_take n _ a

end TopSorted
