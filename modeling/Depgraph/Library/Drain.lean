import Depgraph.Library.Charged

/-!
# Explicit stacks

A recursive function written as a loop over a stack of frames: each turn takes the top frame, pushes
frames and changes a state, in which results are kept.

* `drain turn fuel frames s` runs the loop. The head of the list is the top of the stack. A turn may
  run loops of its own, for which it gets the fuel that is left.
* `Settles x r`: with enough fuel the computation charges a fixed number of steps and has the result.
* `Drains turn frames s r`: the frames above the rest of a stack are worked off and leave the state
  `r`. The rules say that frames are worked off one after another (`Drains.append`) and that a frame
  is worked off when the ones it pushes are (`Drains.pushes`), so that a proof about the loop follows
  the recursion which the stack stands for. `Drains.settles` is what they are for.
-/

namespace Drain

open Charged

variable {ε F σ α β : Type}

/-- With enough fuel the computation pays for a number of steps and has the result. -/
def Settles (x : Nat → Work ε α) (r : Except (Stop ε) α) : Prop :=
  ∃ turns cost, ∀ fuel, turns ≤ fuel → x fuel = steps cost >>= fun _ => settle r

namespace Settles

variable {x : Nat → Work ε α} {f : Nat → α → Work ε β} {a : α} {r : Except (Stop ε) β}

theorem of_charges {x : Work ε α} {r : Except (Stop ε) α} (h : Charges x r) :
    Settles (fun _ => x) r := by
  obtain ⟨cost, hx⟩ := h
  exact ⟨0, cost, fun _ _ => hx⟩

theorem bind (hx : Settles x (.ok a)) (hf : Settles (fun fuel => f fuel a) r) :
    Settles (fun fuel => x fuel >>= f fuel) r := by
  obtain ⟨m, c, hm⟩ := hx
  obtain ⟨n, d, hn⟩ := hf
  refine ⟨max m n, c + d, fun fuel hfuel => ?_⟩
  have hf : f fuel a = steps d >>= fun _ => settle r := hn fuel (by omega)
  dsimp only
  rw [hm fuel (by omega), bind_assoc, steps_add_bind, ← hf]
  rfl

theorem bind_error {e : Stop ε} (hx : Settles x (.error e)) :
    Settles (fun fuel => x fuel >>= f fuel) (.error e) := by
  obtain ⟨k, c, hk⟩ := hx
  refine ⟨k, c, fun fuel hfuel => ?_⟩
  dsimp only
  rw [hk fuel hfuel, bind_assoc]
  rfl

/-- A loop over a list whose turns have results of their own. -/
theorem mapM {f : Nat → α → Work ε β} {g : α → β} {l : List α}
    (h : ∀ a ∈ l, Settles (fun fuel => f fuel a) (.ok (g a))) :
    Settles (fun fuel => l.mapM (f fuel)) (.ok (l.map g)) := by
  induction l with
  | nil => exact of_charges (Charges.pure [])
  | cons a l ih =>
    simp only [List.mapM_cons]
    refine (h a List.mem_cons_self).bind (f := fun fuel b => l.mapM (f fuel) >>= fun bs =>
      Pure.pure (b :: bs)) ?_
    refine (ih fun a ha => h a (List.mem_cons_of_mem _ ha)).bind (f := fun _ bs =>
      Pure.pure (g a :: bs)) ?_
    exact of_charges (Charges.pure _)

end Settles

variable (turn : Nat → F → σ → Work ε (List F × σ))

/-- The loop. A turn yields the frames it pushes, the top one first. -/
def drain : Nat → List F → σ → Work ε σ
  | _, [], s => pure s
  | 0, _ :: _, _ => stop .outOfFuel
  | fuel + 1, frame :: rest, s => do
    let (pushed, s) ← turn fuel frame s
    drain fuel (pushed ++ rest) s

/-- The frames are worked off, whatever is below them, and leave a state or stop the loop. -/
def Drains (frames : List F) (s : σ) (r : Except (Stop ε) σ) : Prop :=
  ∃ turns cost, ∀ fuel rest, ∃ left, fuel ≤ left ∧ drain turn (turns + fuel) (frames ++ rest) s =
    steps cost >>= fun _ => settle r >>= drain turn left rest

variable {turn} {frames : List F} {frame : F} {s s' : σ} {r : Except (Stop ε) σ} {e : Stop ε}

namespace Drains

theorem nil (s : σ) : Drains turn [] s (.ok s) := by
  refine ⟨0, 0, fun fuel rest => ⟨fuel, Nat.le_refl fuel, ?_⟩⟩
  rw [Nat.zero_add, List.nil_append, steps, pure_bind]
  rfl

/-- Frames are worked off one after another. -/
theorem append {below : List F} (h : Drains turn frames s (.ok s'))
    (h' : Drains turn below s' r) : Drains turn (frames ++ below) s r := by
  obtain ⟨m, c, hm⟩ := h
  obtain ⟨n, d, hn⟩ := h'
  refine ⟨m + n, c + d, fun fuel rest => ?_⟩
  obtain ⟨between, hbetween, hfirst⟩ := hm (n + fuel) (below ++ rest)
  obtain ⟨left, hleft, hsecond⟩ := hn (between - n) rest
  refine ⟨left, by omega, ?_⟩
  have hfuel : n + (between - n) = between := by omega
  rw [hfuel] at hsecond
  rw [Nat.add_assoc, List.append_assoc, hfirst, steps_add_bind, ← hsecond]
  rfl

theorem append_error {below : List F} (h : Drains turn frames s (.error e)) :
    Drains turn (frames ++ below) s (.error e) := by
  obtain ⟨m, c, hm⟩ := h
  refine ⟨m, c, fun fuel rest => ?_⟩
  obtain ⟨left, hleft, hrun⟩ := hm fuel (below ++ rest)
  refine ⟨left, hleft, ?_⟩
  rw [List.append_assoc, hrun]
  rfl

theorem cons {below : List F} (h : Drains turn [frame] s (.ok s'))
    (h' : Drains turn below s' r) : Drains turn (frame :: below) s r :=
  append h h'

theorem cons_error {below : List F} (h : Drains turn [frame] s (.error e)) :
    Drains turn (frame :: below) s (.error e) :=
  append_error h

/-- A frame is worked off when the frames it pushes are. -/
theorem pushes {pushed : List F} (h : Settles (fun fuel => turn fuel frame s) (.ok (pushed, s')))
    (h' : Drains turn pushed s' r) : Drains turn [frame] s r := by
  obtain ⟨k, c, hk⟩ := h
  obtain ⟨n, d, hn⟩ := h'
  refine ⟨max k n + 1, c + d, fun fuel rest => ?_⟩
  obtain ⟨left, hleft, hrun⟩ := hn (max k n - n + fuel) rest
  refine ⟨left, by omega, ?_⟩
  have hfuel : n + (max k n - n + fuel) = max k n + fuel := by omega
  have hturn : turn (max k n + fuel) frame s = steps c >>= fun _ => settle (.ok (pushed, s')) :=
    hk _ (by omega)
  rw [hfuel] at hrun
  rw [Nat.add_right_comm, List.singleton_append, drain, hturn, bind_assoc, steps_add_bind, ← hrun]
  rfl

/-- A frame that pushes nothing. -/
theorem done (h : Settles (fun fuel => turn fuel frame s) (.ok ([], s'))) :
    Drains turn [frame] s (.ok s') :=
  pushes h (nil s')

/-- A frame that stops the loop. -/
theorem stops (h : Settles (fun fuel => turn fuel frame s) (.error e)) :
    Drains turn [frame] s (.error e) := by
  obtain ⟨k, c, hk⟩ := h
  refine ⟨k + 1, c, fun fuel rest => ⟨fuel, Nat.le_refl fuel, ?_⟩⟩
  have hturn : turn (k + fuel) frame s = steps c >>= fun _ => settle (.error e) := hk _ (by omega)
  rw [Nat.add_right_comm, List.singleton_append, drain, hturn, bind_assoc]
  rfl

/-- **The rule for a frame that visits a list of children one after another.** `Ready rest acc` says
of a frame, and the state it finds, that the children `rest` are still to be visited and that `acc`
has been gathered from the others; a child is visited by a frame of its own, and what it leaves is
gathered when the frame is on top again. -/
theorem children {α τ : Type} (visit : α → F) (gather : τ → α → Except (Stop ε) τ)
    (finish : τ → Except (Stop ε) σ) (Ready : List α → τ → F → σ → Prop)
    (hnil : ∀ acc frame s, Ready [] acc frame s → Drains turn [frame] s (finish acc))
    (hcons : ∀ a rest acc frame s, Ready (a :: rest) acc frame s →
      ∃ again s₀ left, Settles (fun fuel => turn fuel frame s) (.ok ([visit a, again], s₀)) ∧
        Drains turn [visit a] s₀ left ∧ (∀ e, left = .error e → gather acc a = .error e) ∧
        ∀ s₁, left = .ok s₁ → ∃ acc', gather acc a = .ok acc' ∧ Ready rest acc' again s₁)
    {rest : List α} {acc : τ} (h : Ready rest acc frame s) :
    Drains turn [frame] s (rest.foldlM gather acc >>= finish) := by
  induction rest generalizing acc frame s with
  | nil => exact hnil acc frame s h
  | cons a rest ih =>
    obtain ⟨again, s₀, left, hturn, hvisit, herror, hok⟩ := hcons a rest acc frame s h
    rw [List.foldlM_cons]
    cases left with
    | error e =>
      rw [herror e rfl]
      exact pushes hturn (cons_error hvisit)
    | ok s₁ =>
      obtain ⟨acc', hgather, hready⟩ := hok s₁ rfl
      rw [hgather]
      exact pushes hturn (cons hvisit (ih hready))

/-- The rule for children none of which stops the loop. -/
theorem children_ok {α τ : Type} (visit : α → F) (gather : τ → α → τ)
    (finish : τ → Except (Stop ε) σ) (Ready : List α → τ → F → σ → Prop)
    (hnil : ∀ acc frame s, Ready [] acc frame s → Drains turn [frame] s (finish acc))
    (hcons : ∀ a rest acc frame s, Ready (a :: rest) acc frame s →
      ∃ again s₀ s₁, Settles (fun fuel => turn fuel frame s) (.ok ([visit a, again], s₀)) ∧
        Drains turn [visit a] s₀ (.ok s₁) ∧ Ready rest (gather acc a) again s₁)
    {rest : List α} {acc : τ} (h : Ready rest acc frame s) :
    Drains turn [frame] s (finish (rest.foldl gather acc)) := by
  have hall : Drains turn [frame] s
      (rest.foldlM (fun acc a => Pure.pure (gather acc a)) acc >>= finish) := by
    refine children visit _ finish Ready hnil (fun a rest acc frame s hready => ?_) h
    obtain ⟨again, s₀, s₁, hturn, hvisit, hnext⟩ := hcons a rest acc frame s hready
    refine ⟨again, s₀, .ok s₁, hturn, hvisit, fun e he => (by cases he), ?_⟩
    rintro _ ⟨rfl⟩
    exact ⟨_, rfl, hnext⟩
  rwa [List.foldlM_pure] at hall

/-- The child that follows those which have been visited. -/
theorem next_child {α : Type} {children visited rest : List α} {a : α}
    (h : children = visited ++ a :: rest) : children[visited.length]? = some a := by
  rw [h, List.getElem?_append_right (Nat.le_refl _), Nat.sub_self, List.getElem?_cons_zero]

/-- **With enough fuel the loop ends with the result.** -/
theorem settles (h : Drains turn frames s r) :
    Settles (fun fuel => drain turn fuel frames s) r := by
  obtain ⟨turns, cost, hrun⟩ := h
  refine ⟨turns, cost, fun fuel hfuel => ?_⟩
  obtain ⟨left, -, hloop⟩ := hrun (fuel - turns) []
  have hsum : turns + (fuel - turns) = fuel := by omega
  rw [hsum, List.append_nil] at hloop
  dsimp only
  rw [hloop]
  cases r with
  | ok s' =>
    refine bind_congr fun _ => ?_
    cases left <;> rfl
  | error e => rfl

end Drains

end Drain
