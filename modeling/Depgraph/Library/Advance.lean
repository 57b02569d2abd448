import Depgraph.Library.Metered

/-!
# Computations that advance

The state of a parser only moves forward: it reads tokens and counts what it finds. An `Advance` says
which states are sound, when a state follows another at a cost, and which errors may occur. Then
`Yields x Q` says that `x`, from any sound state, fails with such an error or ends in a state that
follows, with a value that has the property at its cost. The rules follow the structure of the
computation, and the costs of its parts add up.
-/

namespace Metered

variable {σ ε α β : Type}

/-- How the states of a computation advance. -/
structure Advance (σ ε : Type) where
  /-- The states that a computation may start in. -/
  Sound : σ → Prop
  /-- A state follows another at a cost. -/
  Follows : σ → σ → Nat → Prop
  /-- The errors that may occur. -/
  Fails : ε → Prop
  sound {s s' : σ} {k : Nat} : Follows s s' k → Sound s'
  refl {s : σ} : Sound s → Follows s s 0
  trans {s s' s'' : σ} {k j : Nat} : Follows s s' k → Follows s' s'' j → Follows s s'' (k + j)

namespace Advance

variable (A : Advance σ ε)

/-- How a computation ends from a state. -/
structure YieldsAt (s : σ) (x : Work σ ε α) (Q : Nat → α → Prop) : Prop where
  error (e : ε) : x s = .error e → A.Fails e
  ok (a : α) (s' : σ) : x s = .ok (a, s') → ∃ k, A.Follows s s' k ∧ Q k a

/-- How a computation ends from any sound state. -/
def Yields (x : Work σ ε α) (Q : Nat → α → Prop) : Prop := ∀ s, A.Sound s → A.YieldsAt s x Q

/-- A computation without costs. -/
def Free (x : Work σ ε α) : Prop := A.Yields x fun k _ => k = 0

variable {A} {s : σ} {x : Work σ ε α} {P : Nat → α → Prop} {Q : Nat → β → Prop}

theorem YieldsAt.mono {P' : Nat → α → Prop} (h : A.YieldsAt s x P) (hP : ∀ k a, P k a → P' k a) :
    A.YieldsAt s x P' where
  error := h.error
  ok a s' hx := by
    obtain ⟨k, hfollows, ha⟩ := h.ok a s' hx
    exact ⟨k, hfollows, hP k a ha⟩

theorem YieldsAt.pure {a : α} (hs : A.Sound s) (h : P 0 a) :
    A.YieldsAt s (Pure.pure a : Work σ ε α) P where
  error e he := by cases he
  ok b s' hb := by
    obtain ⟨rfl, rfl⟩ := Prod.mk.inj (Except.ok.inj hb)
    exact ⟨0, A.refl hs, h⟩

theorem YieldsAt.bind {f : α → Work σ ε β} (hx : A.YieldsAt s x P)
    (hf : ∀ k a s', x s = .ok (a, s') → A.Follows s s' k → P k a →
      A.YieldsAt s' (f a) fun j b => Q (k + j) b) :
    A.YieldsAt s (x >>= f) Q := by
  cases hxs : x s with
  | error e =>
    have hbind : (x >>= f) s = .error e := by
      simp only [Bind.bind, StateT.bind, hxs, Except.bind]
    refine ⟨fun e' he => ?_, fun b s' hb => ?_⟩
    · exact Except.error.inj (hbind.symm.trans he) ▸ hx.error e hxs
    · exact nomatch hbind.symm.trans hb
  | ok r =>
    have hbind : (x >>= f) s = f r.1 r.2 := by
      simp only [Bind.bind, StateT.bind, hxs, Except.bind]
    obtain ⟨k, hfollows, ha⟩ := hx.ok r.1 r.2 hxs
    obtain ⟨herror, hok⟩ := hf k r.1 r.2 hxs hfollows ha
    refine ⟨fun e he => herror e (hbind.symm.trans he), fun b s' hb => ?_⟩
    obtain ⟨j, hfollows', hb⟩ := hok b s' (hbind.symm.trans hb)
    exact ⟨k + j, A.trans hfollows hfollows', hb⟩

theorem Yields.mono {P' : Nat → α → Prop} (h : A.Yields x P) (hP : ∀ k a, P k a → P' k a) :
    A.Yields x P' :=
  fun s hs => (h s hs).mono hP

theorem Yields.pure {a : α} (h : P 0 a) : A.Yields (Pure.pure a : Work σ ε α) P :=
  fun _ hs => .pure hs h

theorem Yields.fail {error : ε} (h : A.Fails error) :
    A.Yields (Metered.fail error : Work σ ε α) P := by
  refine fun s _ => ⟨fun e he => ?_, fun a s' ha => ?_⟩
  · exact Except.error.inj he ▸ h
  · cases ha

theorem Yields.bind {f : α → Work σ ε β} (hx : A.Yields x P)
    (hf : ∀ k a, P k a → A.Yields (f a) fun j b => Q (k + j) b) : A.Yields (x >>= f) Q :=
  fun s hs => (hx s hs).bind fun k a s' _ hfollows ha => hf k a ha s' (A.sound hfollows)

theorem Yields.ite {c : Prop} [Decidable c] {y : Work σ ε α} (hx : c → A.Yields x P)
    (hy : ¬ c → A.Yields y P) : A.Yields (if c then x else y) P := by
  split_ifs with h
  · exact hx h
  · exact hy h

/-- A part without costs, whose value does not matter. -/
theorem Free.then {f : α → Work σ ε β} (hx : A.Free x) (hf : ∀ a, A.Yields (f a) Q) :
    A.Yields (x >>= f) Q :=
  Yields.bind hx fun k a hk => (hf a).mono fun j b hb => by rwa [hk, Nat.zero_add]

/-- A last step that changes the value. -/
theorem Yields.map {f : α → β} (hx : A.Yields x P) (hf : ∀ k a, P k a → Q k (f a)) :
    A.Yields (x >>= fun a => Pure.pure (f a)) Q :=
  hx.bind fun k a ha => .pure (hf k a ha)

/-- A computation that is started. -/
theorem Yields.run (h : A.Yields x P) (hs : A.Sound s) :
    (∀ e, Metered.run x s = .error e → A.Fails e) ∧
      ∀ a, Metered.run x s = .ok a → ∃ s' k, A.Follows s s' k ∧ P k a := by
  unfold Metered.run
  cases hxs : x s with
  | error e =>
    refine ⟨fun e' he => ?_, fun a ha => ?_⟩
    · exact Except.error.inj he ▸ (h s hs).error e hxs
    · cases ha
  | ok r =>
    refine ⟨fun e he => ?_, fun a ha => ?_⟩
    · cases he
    · obtain ⟨k, hfollows, hr⟩ := (h s hs).ok r.1 r.2 hxs
      exact ⟨r.2, k, hfollows, Except.ok.inj ha ▸ hr⟩

end Advance

end Metered
