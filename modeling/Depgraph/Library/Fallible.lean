import Mathlib.Tactic.Common

/-!
# Computations that may fail

Inversion lemmas for `Except`: a successful sequence is a successful first part followed by a
successful second part, and a check that passes says that its condition holds.
-/

namespace Fallible

variable {ε α β : Type}

/-- Goes on when the condition holds and fails with the error otherwise. -/
def check (condition : Prop) [Decidable condition] (error : ε) : Except ε Unit :=
  if condition then .ok () else .error error

@[simp] theorem check_eq_ok {condition : Prop} [Decidable condition] {error : ε} {u : Unit} :
    check condition error = .ok u ↔ condition := by
  unfold check
  split_ifs with h <;> simp [h]

theorem check_of {condition : Prop} [Decidable condition] (h : condition) (error : ε) :
    check condition error = .ok () :=
  if_pos h

theorem check_of_not {condition : Prop} [Decidable condition] (h : ¬ condition) (error : ε) :
    check condition error = .error error :=
  if_neg h

@[simp] theorem bind_eq_ok {x : Except ε α} {f : α → Except ε β} {b : β} :
    x >>= f = .ok b ↔ ∃ a, x = .ok a ∧ f a = .ok b := by
  cases x with
  | error e => simp [bind, Except.bind]
  | ok a => simp [bind, Except.bind]

theorem bind_eq_error {x : Except ε α} {f : α → Except ε β} {e : ε} :
    x >>= f = .error e ↔ x = .error e ∨ ∃ a, x = .ok a ∧ f a = .error e := by
  cases x with
  | error e' => simp [bind, Except.bind]
  | ok a => simp [bind, Except.bind]

@[simp] theorem ok_bind {a : α} {f : α → Except ε β} : (Except.ok a >>= f) = f a := rfl

@[simp] theorem error_bind {e : ε} {f : α → Except ε β} :
    ((Except.error e : Except ε α) >>= f) = .error e := rfl

/-- A part that succeeds is left behind. -/
theorem bind_of_ok {x : Except ε α} {a : α} (h : x = .ok a) (f : α → Except ε β) :
    (x >>= f) = f a := by
  rw [h, ok_bind]

/-- `ok_or`: the value that is there, or the error. -/
def required (x : Option α) (error : ε) : Except ε α :=
  match x with
  | some a => .ok a
  | none => .error error

@[simp] theorem required_eq_ok {x : Option α} {error : ε} {a : α} :
    required x error = .ok a ↔ x = some a := by
  cases x <;> simp [required]

@[simp] theorem required_some {a : α} {error : ε} : required (some a) error = .ok a := rfl

/-- `map_err(|_| error)`. -/
def orElse (x : Except ε α) (error : ε) : Except ε α :=
  match x with
  | .ok a => .ok a
  | .error _ => .error error

@[simp] theorem orElse_eq_ok {x : Except ε α} {error : ε} {a : α} :
    orElse x error = .ok a ↔ x = .ok a := by
  cases x <;> simp [orElse]

/-- A loop of checks. -/
@[simp] theorem forM_eq_ok {l : List α} {f : α → Except ε Unit} {u : Unit} :
    l.forM f = .ok u ↔ ∀ a ∈ l, f a = .ok () := by
  induction l with
  | nil => simp [pure, Except.pure]
  | cons a l ih =>
    have hcons : (a :: l).forM f = f a >>= fun _ => l.forM f := rfl
    rw [hcons, bind_eq_ok, List.forall_mem_cons]
    constructor
    · rintro ⟨_, ha, hl⟩
      exact ⟨ha, ih.1 hl⟩
    · rintro ⟨ha, hl⟩
      exact ⟨_, ha, ih.2 hl⟩

theorem forM_map {l : List β} {g : β → α} {f : α → Except ε Unit} :
    (l.map g).forM f = l.forM fun b => f (g b) := by
  induction l with
  | nil => rfl
  | cons b l ih => exact congrArg (fun rest => f (g b) >>= fun _ => rest) ih

theorem forM_congr {l : List α} {f g : α → Except ε Unit} (h : ∀ a ∈ l, f a = g a) :
    l.forM f = l.forM g := by
  induction l with
  | nil => rfl
  | cons a l ih =>
    change f a >>= (fun _ => l.forM f) = g a >>= fun _ => l.forM g
    rw [h a List.mem_cons_self, ih fun b hb => h b (List.mem_cons_of_mem a hb)]

theorem foldlM_congr {σ : Type} {l : List α} {f g : σ → α → Except ε σ}
    (h : ∀ s, ∀ a ∈ l, f s a = g s a) (s : σ) : l.foldlM f s = l.foldlM g s := by
  induction l generalizing s with
  | nil => rfl
  | cons a l ih =>
    rw [List.foldlM_cons, List.foldlM_cons, h s a List.mem_cons_self]
    exact congrArg _ (funext fun s' => ih (fun s b hb => h s b (List.mem_cons_of_mem a hb)) s')

/-- The rule for a loop over a list with a state: what holds before the first turn, and is carried
over each turn, holds of the whole list at the end. -/
theorem foldlM_induction {σ : Type} {step : σ → α → Except ε σ} {motive : List α → σ → Prop}
    {l : List α} {s s' : σ} (h : l.foldlM step s = .ok s') (hinit : motive [] s)
    (hstep : ∀ done a t t', motive done t → step t a = .ok t' → motive (done ++ [a]) t') :
    motive l s' := by
  suffices ∀ done, motive done s → motive (done ++ l) s' by simpa using this [] hinit
  clear hinit
  induction l generalizing s with
  | nil =>
    intro done hdone
    obtain rfl := Except.ok.inj h
    rwa [List.append_nil]
  | cons a l ih =>
    intro done hdone
    rw [List.foldlM_cons] at h
    obtain ⟨t, ht, hrest⟩ := bind_eq_ok.1 h
    have := ih hrest (done ++ [a]) (hstep done a s t hdone ht)
    rwa [List.append_assoc] at this

/-- A loop that checks every item first. -/
theorem foldlM_checked {σ : Type} {l : List α} {test : α → Except ε β} {f : σ → α → Except ε σ}
    {s s' : σ} : l.foldlM (fun s a => test a >>= fun _ => f s a) s = .ok s' ↔
      (∀ a ∈ l, ∃ b, test a = .ok b) ∧ l.foldlM f s = .ok s' := by
  induction l generalizing s with
  | nil => simp
  | cons a l ih =>
    simp only [List.foldlM_cons, bind_eq_ok, ih, List.forall_mem_cons]
    constructor
    · rintro ⟨t, ⟨b, hb, ht⟩, htests, hrun⟩
      exact ⟨⟨⟨b, hb⟩, htests⟩, t, ht, hrun⟩
    · rintro ⟨⟨⟨b, hb⟩, htests⟩, t, ht, hrun⟩
      exact ⟨t, ⟨b, hb, ht⟩, htests, hrun⟩

/-- A loop none of whose turns fails collects their results. -/
theorem mapM_of_ok {l : List α} {f : α → Except ε β} (h : ∀ a ∈ l, ∃ b, f a = .ok b) :
    l.mapM f = .ok (l.filterMap fun a => (f a).toOption) := by
  induction l with
  | nil => rfl
  | cons a l ih =>
    obtain ⟨b, hb⟩ := h a List.mem_cons_self
    have hrest := ih fun a ha => h a (List.mem_cons_of_mem _ ha)
    rw [List.mapM_cons, bind_of_ok hb, bind_of_ok hrest,
      List.filterMap_cons_some (b := b) (by rw [hb]; rfl)]
    rfl

/-- What a loop that does not fail has collected, one result for each item. -/
theorem mapM_eq_ok {l : List α} {f : α → Except ε β} {bs : List β} (h : l.mapM f = .ok bs) :
    List.Forall₂ (fun a b => f a = .ok b) l bs := by
  induction l generalizing bs with
  | nil =>
    obtain rfl := Except.ok.inj h
    exact .nil
  | cons a l ih =>
    rw [List.mapM_cons] at h
    obtain ⟨b, hb, hrest⟩ := bind_eq_ok.1 h
    obtain ⟨rest, hl, hcons⟩ := bind_eq_ok.1 hrest
    obtain rfl := Except.ok.inj hcons
    exact .cons hb (ih hl)

/-- The items that the results were made from. -/
theorem map_of_mapM {l : List α} {f : α → Except ε β} {bs : List β} {g : β → α}
    (h : l.mapM f = .ok bs) (hg : ∀ a b, f a = .ok b → g b = a) : bs.map g = l := by
  have hall := mapM_eq_ok h
  clear h
  induction hall with
  | nil => rfl
  | cons hab _ ih => rw [List.map_cons, hg _ _ hab, ih]

theorem exists_of_mem_mapM {l : List α} {f : α → Except ε β} {bs : List β} {b : β}
    (h : l.mapM f = .ok bs) (hb : b ∈ bs) : ∃ a ∈ l, f a = .ok b := by
  have hall := mapM_eq_ok h
  clear h
  induction hall with
  | nil => cases hb
  | cons hab _ ih =>
    rcases List.mem_cons.1 hb with rfl | hb
    · exact ⟨_, List.mem_cons_self, hab⟩
    · obtain ⟨a, ha, hab⟩ := ih hb
      exact ⟨a, List.mem_cons_of_mem _ ha, hab⟩

/-- The result for an item, at its place. -/
theorem getElem?_of_mapM {l : List α} {f : α → Except ε β} {bs : List β} (h : l.mapM f = .ok bs)
    {i : Nat} {a : α} (ha : l[i]? = some a) : ∃ b, bs[i]? = some b ∧ f a = .ok b := by
  have hall := mapM_eq_ok h
  clear h
  induction hall generalizing i with
  | nil => cases ha
  | @cons first b rest bs hfirst _ ih =>
    cases i with
    | zero =>
      obtain rfl := Option.some.inj ha
      exact ⟨b, rfl, hfirst⟩
    | succ i => exact ih ha

/-- A filter none of whose turns fails. -/
theorem filterM_of_ok {l : List α} {f : α → Except ε Bool} {p : α → Bool}
    (h : ∀ a ∈ l, f a = .ok (p a)) : l.filterM f = .ok (l.filter p) := by
  suffices ∀ kept, l.filterAuxM f kept = .ok ((l.filter p).reverse ++ kept) by
    rw [List.filterM, this []]
    simp [pure, Except.pure]
  induction l with
  | nil => exact fun kept => rfl
  | cons a l ih =>
    intro kept
    have hrest := ih fun b hb => h b (List.mem_cons_of_mem a hb)
    rw [List.filterAuxM, bind_of_ok (h a List.mem_cons_self), hrest, List.filter_cons]
    cases p a <;> simp

theorem ok_of_isOk {x : Except ε Unit} (h : x.isOk = true) : x = .ok () := by
  cases x with
  | error e => cases h
  | ok u => rfl

theorem toOption_eq_some {x : Except ε α} {a : α} : x.toOption = some a ↔ x = .ok a := by
  cases x <;> simp [Except.toOption]

/-- The error of a computation that fails. -/
def errorOf (x : Except ε α) : Option ε :=
  match x with
  | .ok _ => none
  | .error error => some error

@[simp] theorem errorOf_eq_some {x : Except ε α} {error : ε} :
    errorOf x = some error ↔ x = .error error := by
  cases x <;> simp [errorOf]

theorem exists_ok_of_errorOf {x : Except ε α} (h : errorOf x = none) : ∃ a, x = .ok a := by
  cases x with
  | error e => cases h
  | ok a => exact ⟨a, rfl⟩

end Fallible
