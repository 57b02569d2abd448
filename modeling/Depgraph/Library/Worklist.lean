import Depgraph.Library.DepthFirst
import Depgraph.Library.Drain

/-!
# Searches over a list of pending nodes

A search that takes a node from a list, passes over it if it has been seen, ends if the node is what
it looks for, and else adds the nodes that follow it.

* `Inv` holds between the turns; `Inv.skip` and `Inv.visit` are what a turn does to it, and
  `Inv.not_goal` what it says when nothing is pending.
* `settles`: on finitely many nodes the loop ends, and it finds what it looks for exactly if this
  can be reached.
-/

namespace Worklist

open Relation Charged Drain

variable {K ε : Type}

/-- A node that follows another. -/
def Follows (next : K → List K) (k t : K) : Prop := t ∈ next k

/-- What holds between the turns of a search that has not ended. -/
structure Inv (next : K → List K) (goal : K → Prop) (start : K) (pending : List K)
    (seen : K → Prop) : Prop where
  begun : seen start ∨ start ∈ pending
  reached : ∀ k ∈ pending, ReflTransGen (Follows next) start k
  closed : ∀ k, seen k → ¬ goal k ∧ ∀ t ∈ next k, seen t ∨ t ∈ pending

section Rules

variable {next : K → List K} {goal : K → Prop} {start k : K} {pending : List K} {seen : K → Prop}

theorem Inv.init : Inv next goal start [start] fun _ => False where
  begun := Or.inr List.mem_cons_self
  reached k hk := by
    rw [List.mem_singleton.1 hk]
  closed _ hk := hk.elim

/-- A node that has been seen is passed over. -/
theorem Inv.skip (h : Inv next goal start (k :: pending) seen) (hk : seen k) :
    Inv next goal start pending seen where
  begun := by
    rcases h.begun with hstart | hstart
    · exact .inl hstart
    · rcases List.mem_cons.1 hstart with rfl | hstart
      · exact .inl hk
      · exact .inr hstart
  reached k hk := h.reached k (List.mem_cons_of_mem _ hk)
  closed x hx := by
    obtain ⟨hgoal, hnext⟩ := h.closed x hx
    refine ⟨hgoal, fun t ht => (hnext t ht).elim .inl fun hpending => ?_⟩
    rcases List.mem_cons.1 hpending with rfl | hpending
    · exact .inl hk
    · exact .inr hpending

/-- A node that is not what is looked for is replaced by the nodes that follow it. -/
theorem Inv.visit (h : Inv next goal start (k :: pending) seen) (hgoal : ¬ goal k)
    {pending' : List K} {seen' : K → Prop} (hseen : ∀ y, seen' y ↔ y = k ∨ seen y)
    (hpending : ∀ y, y ∈ pending' ↔ y ∈ next k ∨ y ∈ pending) :
    Inv next goal start pending' seen' where
  begun := by
    rcases h.begun with hstart | hstart
    · exact .inl ((hseen _).2 (.inr hstart))
    · rcases List.mem_cons.1 hstart with rfl | hstart
      · exact .inl ((hseen _).2 (.inl rfl))
      · exact .inr ((hpending _).2 (.inr hstart))
  reached x hx := by
    rcases (hpending x).1 hx with hx | hx
    · exact (h.reached k List.mem_cons_self).tail hx
    · exact h.reached x (List.mem_cons_of_mem _ hx)
  closed x hx := by
    -- what was pending still is, except for the node, which has now been seen
    have hkeep (t : K) (ht : seen t ∨ t ∈ k :: pending) : seen' t ∨ t ∈ pending' := by
      rcases ht with ht | ht
      · exact .inl ((hseen t).2 (.inr ht))
      · rcases List.mem_cons.1 ht with rfl | ht
        · exact .inl ((hseen t).2 (.inl rfl))
        · exact .inr ((hpending t).2 (.inr ht))
    rcases (hseen x).1 hx with rfl | hx
    · exact ⟨hgoal, fun t ht => .inr ((hpending t).2 (.inl ht))⟩
    · obtain ⟨hx, hnext⟩ := h.closed x hx
      exact ⟨hx, fun t ht => hkeep t (hnext t ht)⟩

/-- When nothing is pending, what is looked for cannot be reached. -/
theorem Inv.not_goal (h : Inv next goal start [] seen) {k : K}
    (hk : ReflTransGen (Follows next) start k) : ¬ goal k := by
  have hseen : seen k := by
    induction hk with
    | refl => exact h.begun.resolve_right List.not_mem_nil
    | tail _ hstep ih => exact ((h.closed _ ih).2 _ hstep).resolve_right List.not_mem_nil
  exact (h.closed k hseen).1

end Rules

/-! ### The loop -/

/-- What a turn does with a node that has not been seen: it ends the search or adds nodes. -/
abbrev Visit (K ε : Type) := K → Work ε (Option (List K))

/-- The loop. A step is paid for every node that is taken. -/
def loop [DecidableEq K] (visit : Visit K ε) : Nat → List K → List K → Work ε Bool
  | _, [], _ => pure false
  | 0, _ :: _, _ => stop .outOfFuel
  | fuel + 1, k :: pending, seen => do
    step
    if k ∈ seen then
      loop visit fuel pending seen
    else
      match ← visit k with
      | none => return true
      | some pushed => loop visit fuel (pushed ++ pending) (k :: seen)

section Loop

variable [DecidableEq K] {visit : Visit K ε} {next pushed : K → List K} {goal : K → Prop}
  [DecidablePred goal] {nodes : List K} {start : K}

/-- What has been charged and found when the loop ends. The nodes that are pending or have not been
seen bound its turns. -/
theorem loop_ends (hnodup : nodes.Nodup) (hclosed : ∀ k ∈ nodes, ∀ t ∈ next k, t ∈ nodes)
    (hpushed : ∀ k t, t ∈ pushed k ↔ t ∈ next k)
    (hvisit : ∀ k ∈ nodes, Charges (visit k) (.ok (if goal k then none else some (pushed k))))
    {turns : Nat} {pending seen : List K} (hinv : Inv next goal start pending (· ∈ seen))
    (hpending : ∀ k ∈ pending, k ∈ nodes)
    (hturns : pending.length + DepthFirst.remaining (fun k => (pushed k).length) (· ∈ seen) nodes ≤
      turns) :
    ∃ cost found, (∀ fuel, turns ≤ fuel → loop visit fuel pending seen =
        steps cost >>= fun _ => settle (.ok found)) ∧
      (found = true ↔ ∃ k, ReflTransGen (Follows next) start k ∧ goal k) := by
  induction turns generalizing pending seen with
  | zero =>
    obtain rfl : pending = [] := List.eq_nil_of_length_eq_zero (by omega)
    refine ⟨0, false, fun fuel _ => by cases fuel <;> rfl, ?_⟩
    simpa using fun k hk => hinv.not_goal hk
  | succ turns ih =>
    cases pending with
    | nil =>
      refine ⟨0, false, fun fuel _ => by cases fuel <;> rfl, ?_⟩
      simpa using fun k hk => hinv.not_goal hk
    | cons k pending =>
      have hk := hpending k List.mem_cons_self
      have hrest : ∀ k ∈ pending, k ∈ nodes := fun k hk => hpending k (List.mem_cons_of_mem _ hk)
      rw [List.length_cons] at hturns
      by_cases hseen : k ∈ seen
      · obtain ⟨cost, found, hloop, hfound⟩ := ih (hinv.skip hseen) hrest (by omega)
        refine ⟨cost + 1, found, fun fuel hfuel => ?_, hfound⟩
        obtain ⟨fuel, rfl⟩ : ∃ n, fuel = n + 1 := ⟨fuel - 1, by omega⟩
        rw [loop, if_pos hseen, hloop fuel (by omega), steps, bind_assoc]
      · obtain ⟨paid, hpaid⟩ := hvisit k hk
        by_cases hgoal : goal k
        · rw [if_pos hgoal] at hpaid
          refine ⟨paid + 1, true, fun fuel hfuel => ?_,
            iff_of_true rfl ⟨k, hinv.reached k List.mem_cons_self, hgoal⟩⟩
          obtain ⟨fuel, rfl⟩ : ∃ n, fuel = n + 1 := ⟨fuel - 1, by omega⟩
          rw [loop, if_neg hseen, hpaid, steps, bind_assoc, bind_assoc]
          rfl
        · rw [if_neg hgoal] at hpaid
          have hused : DepthFirst.remaining (fun k => (pushed k).length) (· ∈ seen) nodes =
              (pushed k).length +
                DepthFirst.remaining (fun k => (pushed k).length) (· ∈ k :: seen) nodes :=
            DepthFirst.remaining_visit _ hnodup hk hseen fun y => List.mem_cons
          have hnext : Inv next goal start (pushed k ++ pending) (· ∈ k :: seen) :=
            hinv.visit hgoal (fun y => List.mem_cons) fun y => by rw [List.mem_append, hpushed]
          have hinside : ∀ y ∈ pushed k ++ pending, y ∈ nodes := by
            intro y hy
            rcases List.mem_append.1 hy with hy | hy
            · exact hclosed k hk y ((hpushed k y).1 hy)
            · exact hrest y hy
          obtain ⟨cost, found, hloop, hfound⟩ := ih hnext hinside (by
            rw [List.length_append]
            omega)
          refine ⟨(paid + cost) + 1, found, fun fuel hfuel => ?_, hfound⟩
          obtain ⟨fuel, rfl⟩ : ∃ n, fuel = n + 1 := ⟨fuel - 1, by omega⟩
          rw [loop, if_neg hseen, hpaid, steps, bind_assoc, bind_assoc, steps_add_bind]
          refine bind_congr fun _ => bind_congr fun _ => ?_
          exact hloop fuel (by omega)

/-- **On finitely many nodes the loop ends, and it finds what it looks for exactly if this can be
reached.** -/
theorem settles (hnodup : nodes.Nodup) (hclosed : ∀ k ∈ nodes, ∀ t ∈ next k, t ∈ nodes)
    (hpushed : ∀ k t, t ∈ pushed k ↔ t ∈ next k)
    (hvisit : ∀ k ∈ nodes, Charges (visit k) (.ok (if goal k then none else some (pushed k))))
    (hstart : start ∈ nodes) :
    ∃ found, Settles (fun fuel => loop visit fuel [start] []) (.ok found) ∧
      (found = true ↔ ∃ k, ReflTransGen (Follows next) start k ∧ goal k) := by
  have hinit : Inv next goal start [start] (· ∈ ([] : List K)) := by
    simpa using (Inv.init : Inv next goal start [start] fun _ => False)
  obtain ⟨cost, found, hloop, hfound⟩ := loop_ends hnodup hclosed hpushed hvisit hinit
    (fun k hk => by rwa [List.mem_singleton.1 hk]) (Nat.le_refl _)
  exact ⟨found, ⟨_, cost, hloop⟩, hfound⟩

end Loop

end Worklist
