import Mathlib.Data.List.Nodup
import Mathlib.Tactic.Common

/-!
# Lists with keys

Lookups in a list of pairs whose keys are distinct.
-/

namespace Lookup

variable {K V : Type} [DecidableEq K] {l : List (K × V)} {k : K} {v : V}

theorem mem_of_lookup (h : l.lookup k = some v) : (k, v) ∈ l := by
  induction l with
  | nil => cases h
  | cons entry l ih =>
    obtain ⟨k', v'⟩ := entry
    rw [List.lookup_cons] at h
    split at h
    · next hk =>
      obtain rfl := beq_iff_eq.1 hk
      obtain rfl := Option.some.inj h
      exact List.mem_cons_self
    · exact List.mem_cons_of_mem _ (ih h)

theorem lookup_of_mem (hnodup : (l.map Prod.fst).Nodup) (h : (k, v) ∈ l) :
    l.lookup k = some v := by
  induction l with
  | nil => cases h
  | cons entry l ih =>
    obtain ⟨k', v'⟩ := entry
    rw [List.map_cons, List.nodup_cons] at hnodup
    rw [List.lookup_cons]
    rcases List.mem_cons.1 h with h | h
    · obtain ⟨rfl, rfl⟩ := Prod.mk.inj h
      rw [beq_self_eq_true]
    · have hne : k ≠ k' := fun hk => hnodup.1 (List.mem_map.2 ⟨_, h, hk⟩)
      rw [beq_eq_false_iff_ne.2 hne]
      exact ih hnodup.2 h

theorem lookup_eq_some_iff (hnodup : (l.map Prod.fst).Nodup) :
    l.lookup k = some v ↔ (k, v) ∈ l :=
  ⟨mem_of_lookup, lookup_of_mem hnodup⟩

theorem lookup_eq_none (h : ∀ entry ∈ l, entry.1 ≠ k) : l.lookup k = none :=
  List.lookup_eq_none_iff.2 fun entry hentry => bne_iff_ne.2 (h entry hentry).symm

theorem lookup_cons_of_ne {entry : K × V} (h : k ≠ entry.1) :
    (entry :: l).lookup k = l.lookup k := by
  rw [List.lookup_cons, beq_eq_false_iff_ne.2 h]

theorem lookup_cons_self {entry : K × V} : (entry :: l).lookup entry.1 = some entry.2 := by
  rw [List.lookup_cons, beq_self_eq_true]

end Lookup
