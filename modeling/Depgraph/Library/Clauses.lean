import Mathlib.Data.List.Basic
import Mathlib.Tactic.Common

/-!
# Alternatives of literals

A formula of conjunctions and disjunctions is a list of alternatives, each of which is a list of
literals that have to hold together.

* `meets_product`, `meets_flatten`: the alternatives of a conjunction and of a disjunction.
* `exists_assignment_iff`: literals that look at one key each hold together under some assignment
  exactly when, key by key, some allowed value meets all literals that look at it.
-/

namespace Clauses

variable {L : Type}

/-- Some alternative holds. -/
def meets (truth : L → Bool) (alternatives : List (List L)) : Bool :=
  alternatives.any fun alternative => alternative.all truth

/-- One alternative of each of the lists. -/
def product : List (List (List L)) → List (List L)
  | [] => [[]]
  | alternatives :: rest => alternatives.flatMap fun alternative =>
      (product rest).map (alternative ++ ·)

variable {truth : L → Bool}

theorem all_congr_of_mem {α : Type} {l : List α} {p q : α → Bool} (h : ∀ a ∈ l, p a = q a) :
    l.all p = l.all q := by
  rw [Bool.eq_iff_iff, List.all_eq_true, List.all_eq_true]
  exact forall₂_congr fun a ha => by rw [h a ha]

theorem any_congr_of_mem {α : Type} {l : List α} {p q : α → Bool} (h : ∀ a ∈ l, p a = q a) :
    l.any p = l.any q := by
  rw [Bool.eq_iff_iff, List.any_eq_true, List.any_eq_true]
  exact exists_congr fun a => and_congr_right fun ha => by rw [h a ha]

theorem meets_iff {alternatives : List (List L)} : meets truth alternatives = true ↔
    ∃ alternative ∈ alternatives, ∀ literal ∈ alternative, truth literal = true := by
  simp only [meets, List.any_eq_true, List.all_eq_true]

theorem meets_singleton (literal : L) : meets truth [[literal]] = truth literal := by
  rw [meets, List.any_cons, List.any_nil, Bool.or_false, List.all_cons, List.all_nil, Bool.and_true]

/-- The alternatives of a disjunction are those of its operands. -/
theorem meets_flatten (operands : List (List (List L))) :
    meets truth operands.flatten = operands.any (meets truth) := by
  rw [Bool.eq_iff_iff, meets_iff, List.any_eq_true]
  simp only [List.mem_flatten, meets_iff]
  constructor
  · rintro ⟨alternative, ⟨operand, hoperand, hmem⟩, hholds⟩
    exact ⟨operand, hoperand, alternative, hmem, hholds⟩
  · rintro ⟨operand, hoperand, alternative, hmem, hholds⟩
    exact ⟨alternative, ⟨operand, hoperand, hmem⟩, hholds⟩

/-- An alternative of a conjunction joins one of every operand. -/
theorem meets_product (operands : List (List (List L))) :
    meets truth (product operands) = operands.all (meets truth) := by
  induction operands with
  | nil => rfl
  | cons operand rest ih =>
    rw [List.all_cons, ← ih, Bool.eq_iff_iff, Bool.and_eq_true, meets_iff, meets_iff, meets_iff]
    constructor
    · rintro ⟨alternative, hmem, hholds⟩
      obtain ⟨first, hfirst, hmem⟩ := List.mem_flatMap.1 hmem
      obtain ⟨last, hlast, rfl⟩ := List.mem_map.1 hmem
      exact ⟨⟨first, hfirst, fun l hl => hholds l (List.mem_append_left _ hl)⟩,
        last, hlast, fun l hl => hholds l (List.mem_append_right _ hl)⟩
    · rintro ⟨⟨first, hfirst, hholds⟩, last, hlast, hholds'⟩
      refine ⟨first ++ last, List.mem_flatMap.2 ⟨first, hfirst, List.mem_map_of_mem hlast⟩, ?_⟩
      exact fun l hl => (List.mem_append.1 hl).elim (hholds l) (hholds' l)

theorem mem_product {operands : List (List (List L))} {alternative : List L}
    (h : alternative ∈ product operands) {literal : L} (hliteral : literal ∈ alternative) :
    ∃ operand ∈ operands, ∃ part ∈ operand, literal ∈ part := by
  induction operands generalizing alternative with
  | nil =>
    rw [product, List.mem_singleton] at h
    rw [h] at hliteral
    cases hliteral
  | cons operand rest ih =>
    obtain ⟨first, hfirst, hmem⟩ := List.mem_flatMap.1 h
    obtain ⟨last, hlast, rfl⟩ := List.mem_map.1 hmem
    rcases List.mem_append.1 hliteral with hliteral | hliteral
    · exact ⟨operand, List.mem_cons_self, first, hfirst, hliteral⟩
    · obtain ⟨operand', hoperand, hrest⟩ := ih hlast hliteral
      exact ⟨operand', List.mem_cons_of_mem _ hoperand, hrest⟩

/-- **An assignment is chosen key by key.** -/
theorem exists_assignment_iff {K V : Type} {literals : List L} (key : L → K) (allowed : K → V → Prop)
    (admits : L → V → Prop) :
    (∃ env : K → V, (∀ k, allowed k (env k)) ∧
        ∀ literal ∈ literals, admits literal (env (key literal))) ↔
      ∀ k, ∃ v, allowed k v ∧ ∀ literal ∈ literals, key literal = k → admits literal v := by
  constructor
  · rintro ⟨env, hallowed, henv⟩ k
    exact ⟨env k, hallowed k, fun literal hliteral hkey => hkey ▸ henv literal hliteral⟩
  · intro h
    choose env hallowed henv using h
    exact ⟨env, hallowed, fun literal hliteral => henv _ literal hliteral rfl⟩

end Clauses
