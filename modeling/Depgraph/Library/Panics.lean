import Depgraph.Library.Fallible
import Mathlib.Algebra.Ring.Nat

/-!
# Panics

Computations that fail with an error or panic: lookups, indices and sums that the program does not
check itself. `NoPanic` says that a computation does not panic, with a rule for each way of putting
computations together.
-/

namespace Panics

open Fallible

/-- How a call ends early. -/
inductive Failure (ε : Type) where
  | rejected (error : ε)
  | panicked (message : String)

variable {ε α β : Type}

/-- The errors of a part that does not panic. -/
def orReject (x : Except ε α) : Except (Failure ε) α := x.mapError .rejected

/-- `expect(message)`. -/
def expected (x : Option α) (message : String) : Except (Failure ε) α :=
  required x (.panicked message)

/-- `items[index]`. -/
def itemAt (items : List α) (index : Nat) : Except (Failure ε) α :=
  expected items[index]? "index out of bounds"

/-- `items[start..]`. -/
def itemsFrom (items : List α) (start : Nat) : Except (Failure ε) (List α) :=
  if start ≤ items.length then .ok (items.drop start)
  else .error (.panicked "range start index out of range")

/-- `a + b` of unsigned 64-bit integers, in a build that checks for overflow or in one that wraps. -/
def addU64 (overflowChecks : Bool) (a b : Nat) : Except (Failure ε) Nat :=
  if a + b < 2 ^ 64 then .ok (a + b)
  else if overflowChecks then .error (.panicked "attempt to add with overflow")
  else .ok ((a + b) % 2 ^ 64)

/-- `iter().sum()`. -/
def sumU64 (overflowChecks : Bool) (items : List Nat) : Except (Failure ε) Nat :=
  items.foldlM (addU64 overflowChecks) 0

theorem addU64_lt {overflowChecks : Bool} {a b sum : Nat}
    (h : (addU64 overflowChecks a b : Except (Failure ε) Nat) = .ok sum) : sum < 2 ^ 64 := by
  unfold addU64 at h
  split_ifs at h with hsmall
  · exact Except.ok.inj h ▸ hsmall
  · exact Except.ok.inj h ▸ Nat.mod_lt _ (Nat.two_pow_pos 64)

/-- Two additions are one. -/
theorem addU64_bind (overflowChecks : Bool) (a b c : Nat) :
    (do
      let sum ← addU64 overflowChecks a b
      addU64 overflowChecks sum c : Except (Failure ε) Nat) = addU64 overflowChecks a (b + c) := by
  unfold addU64
  by_cases hsmall : a + b < 2 ^ 64
  · rw [if_pos hsmall, ok_bind, Nat.add_assoc]
  · have hlarge : ¬ a + (b + c) < 2 ^ 64 := by omega
    rw [if_neg hsmall, if_neg hlarge]
    cases overflowChecks with
    | true => rfl
    | false =>
      simp only [Bool.false_eq_true, if_false, ok_bind, Nat.mod_add_mod, ← Nat.add_assoc]
      split_ifs with hsum
      · exact congrArg _ ((Nat.mod_eq_of_lt hsum).symm.trans (Nat.mod_add_mod _ _ _))
      · rfl

theorem foldlM_addU64 {overflowChecks : Bool} {items : List Nat} {start : Nat}
    (hstart : start < 2 ^ 64) :
    (items.foldlM (addU64 overflowChecks) start : Except (Failure ε) Nat) =
      addU64 overflowChecks start items.sum := by
  induction items generalizing start with
  | nil =>
    rw [List.sum_nil, addU64, Nat.add_zero, if_pos hstart]
    rfl
  | cons item items ih =>
    rw [List.foldlM_cons, List.sum_cons, ← addU64_bind]
    cases hadd : (addU64 overflowChecks start item : Except (Failure ε) Nat) with
    | ok sum => exact ih (addU64_lt hadd)
    | error failure => rfl

/-- A sum does not depend on the order of its items. -/
theorem sumU64_eq (overflowChecks : Bool) (items : List Nat) :
    (sumU64 overflowChecks items : Except (Failure ε) Nat) =
      addU64 overflowChecks 0 items.sum :=
  foldlM_addU64 (Nat.two_pow_pos 64)

/-! ### Computations that do not panic -/

/-- The computation succeeds or is rejected. -/
def NoPanic (x : Except (Failure ε) α) : Prop := ∀ message, x ≠ .error (.panicked message)

theorem NoPanic.ok (a : α) : NoPanic (.ok a : Except (Failure ε) α) := by
  rintro message ⟨⟩

theorem NoPanic.pure (a : α) : NoPanic (pure a : Except (Failure ε) α) :=
  NoPanic.ok a

theorem NoPanic.rejected (error : ε) : NoPanic (.error (.rejected error) : Except (Failure ε) α) := by
  rintro message ⟨⟩

theorem NoPanic.orReject (x : Except ε α) : NoPanic (orReject x) := by
  cases x with
  | ok a => exact NoPanic.ok a
  | error error => exact NoPanic.rejected error

/-- A part that succeeds hands its result on. -/
theorem NoPanic.bind {x : Except (Failure ε) α} {f : α → Except (Failure ε) β} (hx : NoPanic x)
    (hf : ∀ a, x = .ok a → NoPanic (f a)) : NoPanic (x >>= f) := by
  cases x with
  | ok a => exact hf a rfl
  | error failure =>
    rintro message heq
    exact hx message (congrArg Except.error (Except.error.inj heq))

/-- A part that may be rejected hands its result on. -/
theorem NoPanic.bind_orReject {x : Except ε α} {f : α → Except (Failure ε) β}
    (hf : ∀ a, x = .ok a → NoPanic (f a)) : NoPanic (Panics.orReject x >>= f) := by
  refine NoPanic.bind (NoPanic.orReject x) fun a ha => hf a ?_
  cases x with
  | ok b => exact congrArg Except.ok (Except.ok.inj ha)
  | error error => cases ha

/-- A part that is run only under a condition and may be rejected. -/
theorem NoPanic.guard {condition : Prop} [Decidable condition] {x : Except ε Unit}
    {rest : Unit → Except (Failure ε) β} (h : NoPanic (rest ())) :
    NoPanic (if condition then Panics.orReject x >>= rest else rest ()) := by
  split_ifs
  · exact NoPanic.bind_orReject fun _ _ => h
  · exact h

/-- What a sequence needs: its first part does not panic, and neither does the rest after it. -/
theorem noPanic_bind {x : Except (Failure ε) α} {f : α → Except (Failure ε) β} :
    NoPanic (x >>= f) ↔ NoPanic x ∧ ∀ a, x = .ok a → NoPanic (f a) := by
  refine ⟨fun h => ⟨?_, ?_⟩, fun h => NoPanic.bind h.1 h.2⟩
  · rintro message rfl
    exact h message rfl
  · rintro a rfl
    exact h

theorem noPanic_orReject_bind {x : Except ε α} {f : α → Except (Failure ε) β} :
    NoPanic (Panics.orReject x >>= f) ↔ ∀ a, x = .ok a → NoPanic (f a) := by
  refine ⟨?_, NoPanic.bind_orReject⟩
  rintro h a rfl
  exact h

theorem noPanic_orReject_then {x : Except ε Unit} {f : Unit → Except (Failure ε) β} :
    NoPanic (Panics.orReject x >>= f) ↔ (x = .ok () → NoPanic (f ())) :=
  noPanic_orReject_bind.trans ⟨fun h => h (), fun h _ => h⟩

theorem NoPanic.expected {x : Option α} (h : x.isSome = true) (message : String) :
    NoPanic (expected x message : Except (Failure ε) α) := by
  obtain ⟨a, rfl⟩ := Option.isSome_iff_exists.1 h
  exact NoPanic.ok a

theorem NoPanic.itemAt {items : List α} {index : Nat} (h : index < items.length) :
    NoPanic (itemAt items index : Except (Failure ε) α) :=
  NoPanic.expected (by rw [List.getElem?_eq_getElem h]; rfl) _

theorem NoPanic.itemsFrom {items : List α} {start : Nat} (h : start ≤ items.length) :
    NoPanic (itemsFrom items start : Except (Failure ε) (List α)) := by
  rw [Panics.itemsFrom, if_pos h]
  exact NoPanic.ok _

theorem noPanic_addU64 {overflowChecks : Bool} {a b : Nat} :
    NoPanic (addU64 overflowChecks a b : Except (Failure ε) Nat) ↔
      (overflowChecks = true → a + b < 2 ^ 64) := by
  unfold Panics.addU64
  split_ifs with hsmall hchecks
  · exact iff_of_true (NoPanic.ok _) fun _ => hsmall
  · exact iff_of_false (fun h => h _ rfl) fun h => hsmall (h hchecks)
  · exact iff_of_true (NoPanic.ok _) fun h => absurd h hchecks

theorem noPanic_checkedAdd_bind {a b : Nat} {f : Nat → Except (Failure ε) β} :
    NoPanic (addU64 true a b >>= f) ↔ a + b < 2 ^ 64 ∧ NoPanic (f (a + b)) := by
  rw [noPanic_bind, noPanic_addU64]
  constructor
  · rintro ⟨hsum, hf⟩
    exact ⟨hsum rfl, hf _ (if_pos (hsum rfl))⟩
  · rintro ⟨hsum, hf⟩
    refine ⟨fun _ => hsum, fun sum heq => ?_⟩
    rw [addU64, if_pos hsum] at heq
    exact Except.ok.inj heq ▸ hf

theorem NoPanic.wrappingAdd {a b : Nat} :
    NoPanic (addU64 false a b : Except (Failure ε) Nat) :=
  noPanic_addU64.2 fun h => absurd h Bool.false_ne_true

theorem NoPanic.forM {items : List α} {f : α → Except (Failure ε) Unit}
    (h : ∀ a ∈ items, NoPanic (f a)) : NoPanic (items.forM f) := by
  induction items with
  | nil => exact NoPanic.ok ()
  | cons a items ih =>
    exact NoPanic.bind (h a List.mem_cons_self)
      fun _ _ => ih fun b hb => h b (List.mem_cons_of_mem _ hb)

theorem NoPanic.mapM {items : List α} {f : α → Except (Failure ε) β}
    (h : ∀ a ∈ items, NoPanic (f a)) : NoPanic (items.mapM f) := by
  induction items with
  | nil => exact NoPanic.ok []
  | cons a items ih =>
    rw [List.mapM_cons]
    refine NoPanic.bind (h a List.mem_cons_self) fun b _ => ?_
    exact NoPanic.bind (ih fun b hb => h b (List.mem_cons_of_mem _ hb)) fun rest _ =>
      NoPanic.ok _

theorem NoPanic.anyM {items : List α} {f : α → Except (Failure ε) Bool}
    (h : ∀ a ∈ items, NoPanic (f a)) : NoPanic (items.anyM f) := by
  induction items with
  | nil => exact NoPanic.ok false
  | cons a items ih =>
    refine NoPanic.bind (h a List.mem_cons_self) fun found _ => ?_
    cases found with
    | true => exact NoPanic.ok true
    | false => exact ih fun b hb => h b (List.mem_cons_of_mem _ hb)

theorem NoPanic.findM {items : List α} {f : α → Except (Failure ε) Bool}
    (h : ∀ a ∈ items, NoPanic (f a)) : NoPanic (items.findM? f) := by
  induction items with
  | nil => exact NoPanic.ok none
  | cons a items ih =>
    refine NoPanic.bind (h a List.mem_cons_self) fun found _ => ?_
    cases found with
    | true => exact NoPanic.ok (some a)
    | false => exact ih fun b hb => h b (List.mem_cons_of_mem _ hb)

theorem NoPanic.filterM {items : List α} {f : α → Except (Failure ε) Bool}
    (h : ∀ a ∈ items, NoPanic (f a)) : NoPanic (items.filterM f) := by
  suffices ∀ kept : List α, NoPanic (items.filterAuxM f kept) from
    NoPanic.bind (this []) fun kept _ => NoPanic.ok kept.reverse
  induction items with
  | nil => exact fun kept => NoPanic.ok kept
  | cons a items ih =>
    intro kept
    refine NoPanic.bind (h a List.mem_cons_self) fun found _ => ?_
    exact ih (fun b hb => h b (List.mem_cons_of_mem _ hb)) _

/-- A loop with a state that each turn keeps. -/
theorem NoPanic.foldlM {σ : Type} {items : List α} {f : σ → α → Except (Failure ε) σ} {s : σ}
    {Q : σ → Prop} (hs : Q s) (h : ∀ a ∈ items, ∀ s, Q s → NoPanic (f s a) ∧
      ∀ s', f s a = .ok s' → Q s') : NoPanic (items.foldlM f s) := by
  induction items generalizing s with
  | nil => exact NoPanic.ok s
  | cons a items ih =>
    obtain ⟨hstep, hkeep⟩ := h a List.mem_cons_self s hs
    rw [List.foldlM_cons]
    exact NoPanic.bind hstep fun s' hs' =>
      ih (hkeep s' hs') fun b hb => h b (List.mem_cons_of_mem _ hb)

@[simp] theorem orReject_ok (a : α) : orReject (.ok a : Except ε α) = .ok a := rfl

@[simp] theorem orReject_eq_ok {x : Except ε α} {a : α} : orReject x = .ok a ↔ x = .ok a := by
  cases x <;> simp [orReject, Except.mapError]

@[simp] theorem expected_eq_ok {x : Option α} {message : String} {a : α} :
    (expected x message : Except (Failure ε) α) = .ok a ↔ x = some a :=
  required_eq_ok

end Panics
