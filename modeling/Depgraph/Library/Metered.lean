import Depgraph.Library.Fallible
import Depgraph.Library.OrderedMap

/-!
# Metered computations

Computations with a state, such as a counter of the work done, that may fail. `Ensures x P` says
that `x` yields a value with the property `P` whenever it succeeds, whatever state it starts in, and
`FailsOnly x R` that its errors have the property `R`; their rules follow the structure of the
computation.
-/

namespace Metered

variable {σ ε α β : Type}

/-- A computation with a state that may fail. -/
abbrev Work (σ ε : Type) : Type → Type := StateT σ (Except ε)

/-- Counts one item of work and fails when the maximum is used up. -/
def step (maximum : Nat) (error : ε) : Work Nat ε Unit := fun used =>
  if maximum ≤ used then .error error else .ok ((), used + 1)

/-- Fails. -/
def fail (error : ε) : Work σ ε α := fun _ => .error error

/-- What the computation yields when it succeeds has the property. -/
def Ensures (x : Work σ ε α) (P : α → Prop) : Prop := ∀ s a s', x s = .ok (a, s') → P a

variable {x : Work σ ε α} {P Q : α → Prop}

theorem Ensures.mono (h : Ensures x P) (hPQ : ∀ a, P a → Q a) : Ensures x Q :=
  fun s a s' hx => hPQ a (h s a s' hx)

theorem Ensures.trivial : Ensures x fun _ => True := fun _ _ _ _ => True.intro

theorem Ensures.pure {a : α} (h : P a) : Ensures (Pure.pure a : Work σ ε α) P := by
  intro s b s' hb
  obtain ⟨rfl, -⟩ := Prod.mk.inj (Except.ok.inj hb)
  exact h

theorem Ensures.fail {error : ε} : Ensures (fail error : Work σ ε α) P := by
  intro s a s' h
  cases h

theorem Ensures.bind {f : α → Work σ ε β} {R : β → Prop} (h : Ensures x P)
    (hf : ∀ a, P a → Ensures (f a) R) : Ensures (x >>= f) R := by
  intro s b s' hb
  cases hx : x s with
  | error e =>
    rw [show (x >>= f) s = .error e by simp only [Bind.bind, StateT.bind, hx, Except.bind]] at hb
    cases hb
  | ok r =>
    rw [show (x >>= f) s = f r.1 r.2 by simp only [Bind.bind, StateT.bind, hx, Except.bind]] at hb
    exact hf r.1 (h s r.1 r.2 hx) r.2 b s' hb

/-- A part whose value does not matter. -/
theorem Ensures.after {f : α → Work σ ε β} {R : β → Prop} (hf : ∀ a, Ensures (f a) R) :
    Ensures (x >>= f) R :=
  Ensures.trivial.bind fun a _ => hf a

theorem Ensures.ite {c : Prop} [Decidable c] {y : Work σ ε α} (hx : c → Ensures x P)
    (hy : ¬ c → Ensures y P) : Ensures (if c then x else y) P := by
  split_ifs with h
  · exact hx h
  · exact hy h

/-- The rule for a loop over a list. -/
theorem Ensures.foldlM {f : β → α → Work σ ε β} {motive : List α → β → Prop} {l : List α} {b : β}
    (hinit : motive [] b)
    (hstep : ∀ done a acc, done ++ [a] <+: l → motive done acc →
      Ensures (f acc a) (motive (done ++ [a]))) :
    Ensures (l.foldlM f b) (motive l) := by
  suffices ∀ done rest, done ++ rest = l → ∀ b, motive done b →
      Ensures (rest.foldlM f b) (motive l) from this [] l rfl b hinit
  intro done rest
  induction rest generalizing done with
  | nil =>
    rintro rfl b hdone
    rw [List.foldlM_nil]
    exact Ensures.pure (by rwa [List.append_nil])
  | cons a rest ih =>
    intro hl b hdone
    have hl' : done ++ [a] ++ rest = l := by rw [List.append_assoc]; exact hl
    rw [List.foldlM_cons]
    exact (hstep done a b ⟨rest, hl'⟩ hdone).bind fun acc hacc => ih (done ++ [a]) hl' acc hacc

/-- A loop that yields a result for each item. -/
theorem Ensures.mapM_forall₂ {f : α → Work σ ε β} {R : α → β → Prop} {l : List α}
    (h : ∀ a ∈ l, Ensures (f a) (R a)) : Ensures (l.mapM f) (List.Forall₂ R l) := by
  induction l with
  | nil => exact Ensures.pure .nil
  | cons a l ih =>
    rw [List.mapM_cons]
    refine (h a List.mem_cons_self).bind fun b hb => ?_
    refine (ih fun a ha => h a (List.mem_cons_of_mem _ ha)).bind fun bs hbs => ?_
    exact Ensures.pure (.cons hb hbs)

/-- A loop that yields a list of results. -/
theorem Ensures.mapM {f : α → Work σ ε β} {g : α → β} {l : List α}
    (h : ∀ a ∈ l, Ensures (f a) (· = g a)) : Ensures (l.mapM f) (· = l.map g) := by
  refine (Ensures.mapM_forall₂ h).mono fun bs hbs => ?_
  induction hbs with
  | nil => rfl
  | cons hb _ ih => rw [hb, ih fun a ha => h a (List.mem_cons_of_mem _ ha), List.map_cons]

/-- Starts a computation in a state and forgets the state it ends in. -/
def run (x : Work σ ε α) (s : σ) : Except ε α := (x s).map Prod.fst

/-! ### Failures -/

/-- The errors of the computation have the property. -/
def FailsOnly (x : Work σ ε α) (R : ε → Prop) : Prop := ∀ s e, x s = .error e → R e

variable {R : ε → Prop}

theorem FailsOnly.pure {a : α} : FailsOnly (Pure.pure a : Work σ ε α) R := by
  intro s e h
  cases h

theorem FailsOnly.fail {error : ε} (h : R error) :
    FailsOnly (Metered.fail error : Work σ ε α) R := by
  intro s e he
  exact Except.error.inj he ▸ h

theorem FailsOnly.get : FailsOnly (MonadState.get : Work σ ε σ) R := by
  intro s e h
  cases h

theorem FailsOnly.set {s' : σ} : FailsOnly (MonadStateOf.set s' : Work σ ε PUnit) R := by
  intro s e h
  cases h

theorem FailsOnly.bind {f : α → Work σ ε β} (hx : FailsOnly x R) (h : Ensures x P)
    (hf : ∀ a, P a → FailsOnly (f a) R) : FailsOnly (x >>= f) R := by
  intro s e he
  cases hxs : x s with
  | error e' =>
    rw [show (x >>= f) s = .error e' by simp only [Bind.bind, StateT.bind, hxs, Except.bind]] at he
    exact Except.error.inj he ▸ hx s e' hxs
  | ok r =>
    rw [show (x >>= f) s = f r.1 r.2 by simp only [Bind.bind, StateT.bind, hxs, Except.bind]] at he
    exact hf r.1 (h s r.1 r.2 hxs) r.2 e he

/-- A part whose value does not matter. -/
theorem FailsOnly.after {f : α → Work σ ε β} (hx : FailsOnly x R) (hf : ∀ a, FailsOnly (f a) R) :
    FailsOnly (x >>= f) R :=
  hx.bind Ensures.trivial fun a _ => hf a

theorem FailsOnly.ite {c : Prop} [Decidable c] {y : Work σ ε α} (hx : c → FailsOnly x R)
    (hy : ¬ c → FailsOnly y R) : FailsOnly (if c then x else y) R := by
  split_ifs with h
  · exact hx h
  · exact hy h

/-- The rule for a loop over a list. -/
theorem FailsOnly.foldlM {f : β → α → Work σ ε β} {l : List α} {b : β}
    (hf : ∀ a ∈ l, ∀ acc, FailsOnly (f acc a) R) : FailsOnly (l.foldlM f b) R := by
  induction l generalizing b with
  | nil => exact .pure
  | cons a l ih =>
    rw [List.foldlM_cons]
    exact (hf a List.mem_cons_self b).after fun acc =>
      ih fun a ha => hf a (List.mem_cons_of_mem _ ha)

theorem FailsOnly.run (h : FailsOnly x R) {s : σ} {e : ε} (hx : Metered.run x s = .error e) :
    R e := by
  unfold Metered.run at hx
  cases hxs : x s with
  | error e' =>
    rw [hxs] at hx
    exact Except.error.inj hx ▸ h s e' hxs
  | ok r => rw [hxs] at hx; cases hx

section Entries

open Std

variable {K V W : Type} [Ord K] [TransOrd K] [LawfulEqOrd K] [DecidableEq K]

/-- The rule for a loop that makes a new value of each entry of a map. -/
theorem Ensures.foldlM_entries {m : ExtTreeMap K V} {g : V → W}
    {f : ExtTreeMap K W → K × V → Work σ ε (ExtTreeMap K W)}
    (hf : ∀ acc entry, Ensures (f acc entry) (· = acc.insert entry.1 (g entry.2))) :
    Ensures (m.toList.foldlM f ∅) fun made => ∀ k : K, made[k]? = m[k]?.map g := by
  have hmade : Ensures (m.toList.foldlM f ∅)
      (· = OrderedMap.insertAll ∅ (m.toList.map fun entry => (entry.1, g entry.2))) := by
    refine Ensures.foldlM (motive := fun (done : List (K × V)) made =>
      made = OrderedMap.insertAll ∅ (done.map fun entry => (entry.1, g entry.2))) rfl ?_
    rintro done entry made - rfl
    refine (hf _ entry).mono fun next hnext => ?_
    rw [hnext, OrderedMap.insertAll, OrderedMap.insertAll, List.map_append, List.foldl_append]
    rfl
  refine hmade.mono fun made h k => ?_
  have hkeys : ((m.toList.map fun entry => (entry.1, g entry.2)).map Prod.fst) =
      m.toList.map Prod.fst := by
    rw [List.map_map]
    rfl
  rw [h]
  cases hk : m[k]? with
  | none =>
    rw [OrderedMap.getElem?_insertAll_of_not_mem, ExtTreeMap.getElem?_empty, Option.map_none]
    rintro made hmem rfl
    obtain ⟨entry, hentry, rfl⟩ := List.mem_map.1 hmem
    rw [OrderedMap.mem_toList.1 hentry] at hk
    cases hk
  | some v =>
    refine OrderedMap.getElem?_insertAll_of_mem (hkeys ▸ OrderedMap.keys_nodup) ?_
    exact List.mem_map.2 ⟨(k, v), OrderedMap.mem_toList.2 hk, rfl⟩

end Entries

theorem Ensures.run (h : Ensures x P) {s : σ} {a : α} (hx : run x s = .ok a) : P a := by
  unfold Metered.run at hx
  cases hxs : x s with
  | error e => rw [hxs] at hx; cases hx
  | ok r =>
    rw [hxs] at hx
    exact Except.ok.inj hx ▸ h s r.1 r.2 hxs

end Metered
