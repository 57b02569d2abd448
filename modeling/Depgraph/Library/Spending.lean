import Depgraph.Library.Metered

/-!
# Spending within a budget

A computation counts what it spends in its state and fails when the count no longer fits.
`Spends b x Q` says that `x`, started where a budget of `b` still fits, does not fail for this
reason, and that it yields a value that has the property at what it has spent. In a loop the budget
is a potential of the accumulator: each round spends at most what the potential falls by.
-/

namespace Metered

variable {σ ε α β : Type}

/-- What is counted, which counts fit, and which errors do not say that a count does not fit. -/
structure Spending (σ ε : Type) where
  count : σ → Nat
  /-- The counts that fit. -/
  Fits : Nat → Prop
  /-- The errors for other reasons. -/
  Other : ε → Prop
  fits {m n : Nat} : m ≤ n → Fits n → Fits m

namespace Spending

variable (A : Spending σ ε)

/-- A computation that spends at most a budget. -/
def Spends (b : Nat) (x : Work σ ε α) (Q : Nat → α → Prop) : Prop :=
  ∀ s, A.Fits (A.count s + b) → (∀ e, x s = .error e → A.Other e) ∧
    ∀ a s', x s = .ok (a, s') → ∃ k ≤ b, A.count s' ≤ A.count s + k ∧ Q k a

/-- A computation that spends nothing. -/
def Idle (x : Work σ ε α) (P : α → Prop) : Prop := A.Spends 0 x fun _ a => P a

variable {A} {b : Nat} {x : Work σ ε α} {P : Nat → α → Prop} {Q : Nat → β → Prop}

theorem Spends.mono {P' : Nat → α → Prop} (h : A.Spends b x P)
    (hP : ∀ k a, k ≤ b → P k a → P' k a) : A.Spends b x P' := by
  intro s hs
  obtain ⟨herror, hok⟩ := h s hs
  refine ⟨herror, fun a s' hx => ?_⟩
  obtain ⟨k, hk, hcount, ha⟩ := hok a s' hx
  exact ⟨k, hk, hcount, hP k a hk ha⟩

/-- More may be spent than is. -/
theorem Spends.weaken {b' : Nat} (h : A.Spends b x P) (hb : b ≤ b') : A.Spends b' x P := by
  intro s hs
  obtain ⟨herror, hok⟩ := h s (A.fits (Nat.add_le_add_left hb _) hs)
  refine ⟨herror, fun a s' hx => ?_⟩
  obtain ⟨k, hk, hcount, ha⟩ := hok a s' hx
  exact ⟨k, Nat.le_trans hk hb, hcount, ha⟩

theorem Spends.pure {a : α} (h : P 0 a) : A.Spends b (Pure.pure a : Work σ ε α) P := by
  refine fun s _ => ⟨fun e he => ?_, fun a' s' ha => ?_⟩
  · cases he
  · obtain ⟨rfl, rfl⟩ := Prod.mk.inj (Except.ok.inj ha)
    exact ⟨0, Nat.zero_le _, Nat.le_refl _, h⟩

theorem Spends.bind {f : α → Work σ ε β} (hx : A.Spends b x P)
    (hf : ∀ k a, k ≤ b → P k a → A.Spends (b - k) (f a) fun j c => Q (k + j) c) :
    A.Spends b (x >>= f) Q := by
  intro s hs
  obtain ⟨herror, hok⟩ := hx s hs
  cases hxs : x s with
  | error e =>
    have hbind : (x >>= f) s = .error e := by
      simp only [Bind.bind, StateT.bind, hxs, Except.bind]
    refine ⟨fun e' he => ?_, fun c s' hc => ?_⟩
    · exact Except.error.inj (hbind.symm.trans he) ▸ herror e hxs
    · exact nomatch hbind.symm.trans hc
  | ok r =>
    have hbind : (x >>= f) s = f r.1 r.2 := by
      simp only [Bind.bind, StateT.bind, hxs, Except.bind]
    obtain ⟨k, hk, hcount, ha⟩ := hok r.1 r.2 hxs
    obtain ⟨herror', hok'⟩ := hf k r.1 hk ha r.2 (A.fits (by omega) hs)
    refine ⟨fun e he => herror' e (hbind.symm.trans he), fun c s' hc => ?_⟩
    obtain ⟨j, hj, hcount', hc⟩ := hok' c s' (hbind.symm.trans hc)
    exact ⟨k + j, by omega, by omega, hc⟩

/-- A part that spends nothing. -/
theorem Idle.then {R : α → Prop} {f : α → Work σ ε β} (hx : A.Idle x R)
    (hf : ∀ a, R a → A.Spends b (f a) Q) : A.Spends b (x >>= f) Q := by
  have hzero : A.Spends 0 x fun k a => k = 0 ∧ R a :=
    hx.mono fun k a hk ha => ⟨Nat.le_zero.1 hk, ha⟩
  refine (hzero.weaken (Nat.zero_le b)).bind fun k a _ h => ?_
  obtain ⟨rfl, ha⟩ := h
  exact (hf a ha).mono fun j c _ hc => by rwa [Nat.zero_add]

theorem Spends.ite {c : Prop} [Decidable c] {y : Work σ ε α} (hx : c → A.Spends b x P)
    (hy : ¬ c → A.Spends b y P) : A.Spends b (if c then x else y) P := by
  split_ifs with h
  · exact hx h
  · exact hy h

/-- What is ensured of a value besides. -/
theorem Spends.ensuring {R : α → Prop} (h : A.Spends b x P) (hR : Ensures x R) :
    A.Spends b x fun k a => P k a ∧ R a := by
  intro s hs
  obtain ⟨herror, hok⟩ := h s hs
  refine ⟨herror, fun a s' hx => ?_⟩
  obtain ⟨k, hk, hcount, ha⟩ := hok a s' hx
  exact ⟨k, hk, hcount, ha, hR s a s' hx⟩

/-- The rule for a loop, with a potential of the accumulator. -/
theorem Spends.foldlM {f : β → α → Work σ ε β} {l : List α} (I : β → Prop) (potential : β → Nat)
    (hf : ∀ a ∈ l, ∀ acc, I acc → A.Spends (potential acc) (f acc a) fun k acc' =>
      I acc' ∧ k + potential acc' ≤ potential acc) {acc : β} (hacc : I acc) :
    A.Spends (potential acc) (l.foldlM f acc) fun k acc' =>
      I acc' ∧ k + potential acc' ≤ potential acc := by
  induction l generalizing acc with
  | nil => exact .pure ⟨hacc, Nat.le_of_eq (Nat.zero_add _)⟩
  | cons a l ih =>
    rw [List.foldlM_cons]
    refine (hf a List.mem_cons_self acc hacc).bind fun k acc' hk h => ?_
    obtain ⟨hacc', hpotential⟩ := h
    refine ((ih (fun a ha => hf a (List.mem_cons_of_mem _ ha)) hacc').weaken (by omega)).mono ?_
    rintro j acc'' - ⟨h, hj⟩
    exact ⟨h, by omega⟩

/-- The rule for a loop of which no round spends more than one price. -/
theorem Spends.foldlM_each {f : β → α → Work σ ε β} {l : List α} {price : Nat}
    (hf : ∀ a ∈ l, ∀ acc, A.Spends price (f acc a) fun _ _ => True) (acc : β) :
    A.Spends (l.length * price) (l.foldlM f acc) fun _ _ => True := by
  induction l generalizing acc with
  | nil => exact .pure trivial
  | cons a l ih =>
    have hfirst : A.Spends price (f acc a) fun k _ => k ≤ price :=
      (hf a List.mem_cons_self acc).mono fun _ _ hk _ => hk
    rw [List.foldlM_cons, List.length_cons, Nat.succ_mul]
    refine (hfirst.weaken (Nat.le_add_left price _)).bind fun k acc' _ hk => ?_
    exact (ih (fun a ha => hf a (List.mem_cons_of_mem _ ha)) acc').weaken (by omega)

/-- A computation that is started. -/
theorem Spends.run (h : A.Spends b x P) {s : σ} (hs : A.Fits (A.count s + b)) {e : ε}
    (hx : Metered.run x s = .error e) : A.Other e := by
  unfold Metered.run at hx
  cases hxs : x s with
  | error e' =>
    rw [hxs] at hx
    exact Except.error.inj hx ▸ (h s hs).1 e' hxs
  | ok r => rw [hxs] at hx; cases hx

end Spending

end Metered
