import Mathlib.Data.List.Nodup
import Mathlib.Data.Nat.Find
import Mathlib.Tactic.Common

/-!
# Breadth-first search

A search from several sources that keeps a queue of nodes with their depths and does not go beyond a
limit. The state of the search is the depth of the nodes found so far, the queue and the nodes that
have been expanded; the rules below say how it changes.

* `Inv` holds between turns, `Turn` within a turn: `Inv.start`, `Inv.pop`, `Turn.seen`,
  `Turn.found`, `Turn.finish`, `Inv.skip`.
* `Inv.depth_iff`: when the queue is empty, the depths are the distances within the limit.
-/

namespace Search

variable {K : Type}

/-- A walk of a number of steps. -/
inductive Walk (R : K → K → Prop) : Nat → K → K → Prop
  | refl (s : K) : Walk R 0 s s
  | snoc {n : Nat} {s k y : K} : Walk R n s k → R k y → Walk R (n + 1) s y

theorem Walk.mono {R R' : K → K → Prop} (h : ∀ k y, R k y → R' k y) {n : Nat} {s k : K}
    (hw : Walk R n s k) : Walk R' n s k := by
  induction hw with
  | refl => exact .refl _
  | snoc _ hr ih => exact .snoc ih (h _ _ hr)

/-- A walk can begin with a step. -/
theorem Walk.cons {R : K → K → Prop} {n : Nat} {s k y : K} (hr : R s k) (hw : Walk R n k y) :
    Walk R (n + 1) s y := by
  induction hw with
  | refl => exact .snoc (.refl _) hr
  | snoc _ hstep ih => exact .snoc (ih hr) hstep

/-- A walk stays where all walks lead that are no longer. -/
theorem Walk.restrict {R : K → K → Prop} {P : K → Prop} {n : Nat} {s k : K} (hw : Walk R n s k)
    (h : ∀ m ≤ n, ∀ y, Walk R m s y → P y) : Walk (fun k y => R k y ∧ P y) n s k := by
  induction hw with
  | refl => exact .refl _
  | snoc hw hr ih =>
    exact .snoc (ih fun m hm => h m (Nat.le_succ_of_le hm)) ⟨hr, h _ le_rfl _ (.snoc hw hr)⟩

/-- A number of steps does not exceed the limit. -/
def Within (limit : Option Nat) (n : Nat) : Prop := ∀ l ∈ limit, n ≤ l

/-- A node at this depth is expanded. -/
def Expands (limit : Option Nat) (n : Nat) : Prop := ∀ l ∈ limit, n < l

theorem Expands.succ {limit : Option Nat} {n : Nat} (h : Expands limit n) :
    Within limit (n + 1) := h

theorem Expands.mono {limit : Option Nat} {m n : Nat} (h : Expands limit n) (hmn : m ≤ n) :
    Expands limit m := fun l hl => lt_of_le_of_lt hmn (h l hl)

theorem Within.mono {limit : Option Nat} {m n : Nat} (h : Within limit n) (hmn : m ≤ n) :
    Within limit m := fun l hl => le_trans hmn (h l hl)

/-- The node can be reached from a source in this number of steps. -/
def Reached (R : K → K → Prop) (sources : K → Prop) (n : Nat) (k : K) : Prop :=
  ∃ s, sources s ∧ Walk R n s k

/-- The least number of steps from a source. -/
structure IsDistance (R : K → K → Prop) (sources : K → Prop) (k : K) (n : Nat) : Prop where
  reached : Reached R sources n k
  least : ∀ m, Reached R sources m k → n ≤ m

section

variable {R : K → K → Prop} {sources : K → Prop} {limit : Option Nat}

/-- A node that can be reached has a distance. -/
theorem exists_distance {k : K} {n : Nat} (h : Reached R sources n k) :
    ∃ m ≤ n, IsDistance R sources k m := by
  classical
  have hex : ∃ m, Reached R sources m k := ⟨n, h⟩
  exact ⟨Nat.find hex, Nat.find_min' hex h, Nat.find_spec hex,
    fun m hm => Nat.find_min' hex hm⟩

variable {depth : K → Option Nat} {queue : List (K × Nat)} {done : K → Prop} {level : Nat}

/-- What holds of the nodes found so far: their depths come from walks, and the queue holds depths
of one level and the next. -/
structure Found (R : K → K → Prop) (sources : K → Prop) (limit : Option Nat)
    (depth : K → Option Nat) (queue : List (K × Nat)) (level : Nat) : Prop where
  source : ∀ s, sources s → depth s = some 0
  sound : ∀ k n, depth k = some n → Reached R sources n k ∧ Within limit n
  queued : ∀ e ∈ queue, depth e.1 = some e.2
  sorted : queue.Pairwise fun a b => a.2 ≤ b.2
  low : ∀ e ∈ queue, level ≤ e.2
  high : ∀ k n, depth k = some n → n ≤ level + 1

/-- A node of depth `n` whose neighbours have been looked at has neighbours of depth at most
`n + 1`. -/
def Near (depth : K → Option Nat) (n : Nat) (y : K) : Prop := ∃ m ≤ n + 1, depth y = some m

/-- The invariant between turns. -/
structure Inv (R : K → K → Prop) (sources : K → Prop) (limit : Option Nat)
    (depth : K → Option Nat) (queue : List (K × Nat)) (done : K → Prop) : Prop where
  found : ∃ level, Found R sources limit depth queue level
  expanded : ∀ k, done k → ∃ n, depth k = some n
  covered : ∀ k n, depth k = some n → done k ∨ (k, n) ∈ queue
  closed : ∀ k n, done k → depth k = some n → Expands limit n → ∀ y, R k y → Near depth n y

/-- The invariant within the turn of a node, some of whose neighbours have been looked at. -/
structure Turn (R : K → K → Prop) (sources : K → Prop) (limit : Option Nat)
    (depth : K → Option Nat) (queue : List (K × Nat)) (done : K → Prop) (x : K) (n : Nat)
    (looked : K → Prop) : Prop where
  found : Found R sources limit depth queue n
  expanded : ∀ k, done k → ∃ n, depth k = some n
  here : depth x = some n
  covered : ∀ k m, depth k = some m → done k ∨ (k, m) ∈ queue ∨ k = x
  closed : ∀ k m, done k → depth k = some m → Expands limit m → ∀ y, R k y → Near depth m y
  looked : ∀ y, looked y → Near depth n y

/-! ### Rules -/

/-- At first the sources have depth 0 and stand in the queue. -/
theorem Inv.start {q : List (K × Nat)} (hq : ∀ e ∈ q, e.2 = 0 ∧ sources e.1)
    (hsource : ∀ s, sources s → (s, 0) ∈ q)
    (hdepth : ∀ k n, depth k = some n ↔ (k, n) ∈ q) (hdone : ∀ k, ¬ done k) :
    Inv R sources limit depth q done where
  found := ⟨0, {
    source := fun s hs => (hdepth s 0).2 (hsource s hs)
    sound := fun k n hk => by
      obtain ⟨rfl, hs⟩ := hq _ ((hdepth k n).1 hk)
      exact ⟨⟨k, hs, .refl k⟩, fun l _ => Nat.zero_le l⟩
    queued := fun e he => (hdepth e.1 e.2).2 he
    sorted := List.pairwise_of_forall_mem_list fun a ha b hb => by
      rw [(hq a ha).1]
      exact Nat.zero_le _
    low := fun _ _ => Nat.zero_le _
    high := fun k n hk => by
      rw [show n = 0 from (hq _ ((hdepth k n).1 hk)).1]
      exact Nat.zero_le _ }⟩
  expanded k hk := absurd hk (hdone k)
  covered k n hk := Or.inr ((hdepth k n).1 hk)
  closed k n hk := absurd hk (hdone k)

/-- The first node of the queue has its turn. -/
theorem Inv.pop {x : K} {n : Nat} (h : Inv R sources limit depth ((x, n) :: queue) done) :
    Turn R sources limit depth queue done x n fun _ => False where
  found := by
    obtain ⟨level, hf⟩ := h.found
    have hlow : level ≤ n := hf.low (x, n) List.mem_cons_self
    exact {
      source := hf.source
      sound := hf.sound
      queued := fun e he => hf.queued e (List.mem_cons_of_mem _ he)
      sorted := hf.sorted.of_cons
      low := fun e he => List.rel_of_pairwise_cons hf.sorted he
      high := fun k m hk => le_trans (hf.high k m hk) (by omega) }
  here := by
    obtain ⟨level, hf⟩ := h.found
    exact hf.queued (x, n) List.mem_cons_self
  expanded := h.expanded
  covered k m hk := by
    rcases h.covered k m hk with hdone | hmem
    · exact Or.inl hdone
    · rcases List.mem_cons.1 hmem with heq | hmem
      · exact Or.inr (Or.inr (congrArg Prod.fst heq))
      · exact Or.inr (Or.inl hmem)
  closed := h.closed
  looked y hy := hy.elim

variable {x : K} {n : Nat} {looked : K → Prop}

/-- A neighbour that was found before is not entered again. -/
theorem Turn.seen (h : Turn R sources limit depth queue done x n looked) {y : K} {m : Nat}
    (hy : depth y = some m) :
    Turn R sources limit depth queue done x n fun k => looked k ∨ k = y :=
  { h with
    looked := by
      rintro k (hk | rfl)
      · exact h.looked k hk
      · exact ⟨m, h.found.high k m hy, hy⟩ }

/-- A new neighbour stands at the end of the queue. -/
theorem Turn.discover [DecidableEq K] (h : Turn R sources limit depth queue done x n looked)
    (hexpands : Expands limit n) {y : K} (hr : R x y) (hy : depth y = none) :
    Turn R sources limit (fun k => if k = y then some (n + 1) else depth k)
      (queue ++ [(y, n + 1)]) done x n fun k => looked k ∨ k = y := by
  have hold {k : K} {m : Nat} (hk : depth k = some m) :
      (if k = y then some (n + 1) else depth k) = some m := by
    rw [if_neg, hk]
    rintro rfl
    rw [hy] at hk
    cases hk
  have hnear {m : Nat} {k : K} (hk : Near depth m k) :
      Near (fun k => if k = y then some (n + 1) else depth k) m k := by
    obtain ⟨m', hm', hk⟩ := hk
    exact ⟨m', hm', hold hk⟩
  have hcases {k : K} {m : Nat} (hk : (if k = y then some (n + 1) else depth k) = some m) :
      (k = y ∧ m = n + 1) ∨ depth k = some m := by
    split_ifs at hk with hky
    · exact Or.inl ⟨hky, (Option.some.inj hk).symm⟩
    · exact Or.inr hk
  obtain ⟨s, hs, hw⟩ := (h.found.sound x n h.here).1
  refine ⟨⟨fun s hs => hold (h.found.source s hs), fun k m hk => ?_, fun e he => ?_, ?_,
    fun e he => ?_, fun k m hk => ?_⟩, fun k hk => ?_, hold h.here, fun k m hk => ?_, fun k m hdone hk hm z hz => ?_,
    ?_⟩
  · rcases hcases hk with ⟨rfl, rfl⟩ | hk
    · exact ⟨⟨s, hs, .snoc hw hr⟩, hexpands.succ⟩
    · exact h.found.sound k m hk
  · rcases List.mem_append.1 he with he | he
    · exact hold (h.found.queued e he)
    · obtain rfl := List.mem_singleton.1 he
      exact if_pos rfl
  · refine List.pairwise_append.2 ⟨h.found.sorted, List.pairwise_singleton _ _, fun a ha b hb => ?_⟩
    obtain rfl := List.mem_singleton.1 hb
    exact h.found.high a.1 a.2 (h.found.queued a ha)
  · rcases List.mem_append.1 he with he | he
    · exact h.found.low e he
    · obtain rfl := List.mem_singleton.1 he
      exact Nat.le_succ n
  · rcases hcases hk with ⟨-, rfl⟩ | hk
    · exact le_rfl
    · exact h.found.high k m hk
  · obtain ⟨m, hm⟩ := h.expanded k hk
    exact ⟨m, hold hm⟩
  · rcases hcases hk with ⟨rfl, rfl⟩ | hk
    · exact Or.inr (Or.inl (List.mem_append_right _ List.mem_cons_self))
    · rcases h.covered k m hk with hdone | hmem | rfl
      · exact Or.inl hdone
      · exact Or.inr (Or.inl (List.mem_append_left _ hmem))
      · exact Or.inr (Or.inr rfl)
  · rcases hcases hk with ⟨rfl, rfl⟩ | hk
    · obtain ⟨m', hm'⟩ := h.expanded k hdone
      exact absurd (hy.symm.trans hm') (by simp)
    · exact hnear (h.closed k m hdone hk hm z hz)
  · rintro k (hk | rfl)
    · exact hnear (h.looked k hk)
    · exact ⟨n + 1, le_rfl, if_pos rfl⟩

/-- The turn of a node that is expanded ends when all neighbours have been looked at. -/
theorem Turn.finish (h : Turn R sources limit depth queue done x n looked)
    (hlooked : Expands limit n → ∀ y, R x y → looked y) :
    Inv R sources limit depth queue fun k => done k ∨ k = x where
  found := ⟨n, h.found⟩
  expanded := by
    rintro k (hk | rfl)
    · exact h.expanded k hk
    · exact ⟨n, h.here⟩
  covered k m hk := by
    rcases h.covered k m hk with hdone | hmem | rfl
    · exact Or.inl (Or.inl hdone)
    · exact Or.inr hmem
    · exact Or.inl (Or.inr rfl)
  closed := by
    rintro k m (hk | rfl) hdepth hm y hy
    · exact h.closed k m hk hdepth hm y hy
    · obtain rfl := Option.some.inj (h.here.symm.trans hdepth)
      exact h.looked y (hlooked hm y hy)

/-- Within a turn everything is found that is no further away than the node that has its turn. -/
theorem Turn.reached (h : Turn R sources limit depth queue done x n looked)
    (hexpands : Expands limit n) {m : Nat} {k : K} (hk : Reached R sources m k) (hm : m ≤ n) :
    ∃ m' ≤ m, depth k = some m' := by
  obtain ⟨s, hs, hw⟩ := hk
  induction hw with
  | refl => exact ⟨0, le_rfl, h.found.source _ hs⟩
  | @snoc m s k y _ hr ih =>
    obtain ⟨m', hm', hk⟩ := ih (Nat.le_of_succ_le hm) hs
    -- a node that is less deep than the queue and the node in turn has been expanded
    have hdone : done k := by
      rcases h.covered k m' hk with hdone | hqueued | rfl
      · exact hdone
      · have := h.found.low _ hqueued
        dsimp only at this
        omega
      · have := Option.some.inj (hk.symm.trans h.here)
        omega
    obtain ⟨m'', hm'', hy⟩ := h.closed k m' hdone hk (hexpands.mono (by omega)) y hr
    exact ⟨m'', by omega, hy⟩

/-- A new neighbour is one step further away than the node that has its turn. -/
theorem Turn.distance_new (h : Turn R sources limit depth queue done x n looked)
    (hexpands : Expands limit n) {y : K} (hr : R x y) (hy : depth y = none) :
    IsDistance R sources y (n + 1) where
  reached := by
    obtain ⟨s, hs, hw⟩ := (h.found.sound x n h.here).1
    exact ⟨s, hs, .snoc hw hr⟩
  least m hm := by
    by_contra hlt
    obtain ⟨m', -, hm'⟩ := h.reached hexpands hm (by omega)
    rw [hy] at hm'
    cases hm'

/-! ### The result -/

/-- What can be reached within the limit is found, at most that deep. -/
theorem Inv.reached (h : Inv R sources limit depth [] done) {m : Nat} {k : K}
    (hk : Reached R sources m k) (hm : Within limit m) : ∃ n ≤ m, depth k = some n := by
  obtain ⟨s, hs, hw⟩ := hk
  obtain ⟨level, hfound⟩ := h.found
  induction hw with
  | refl => exact ⟨0, le_rfl, hfound.source _ hs⟩
  | snoc _ hr ih =>
    obtain ⟨n, hn, hdepth⟩ := ih (hm.mono (Nat.le_succ _)) hs
    have hexpands : Expands limit n := fun l hl =>
      lt_of_lt_of_le (Nat.lt_succ_of_le hn) (hm l hl)
    have hdone := (h.covered _ n hdepth).resolve_right (List.not_mem_nil)
    obtain ⟨n', hn', hy⟩ := h.closed _ n hdone hdepth hexpands _ hr
    exact ⟨n', le_trans hn' (Nat.succ_le_succ hn), hy⟩

/-- **When the queue is empty, the depths are the distances within the limit.** -/
theorem Inv.depth_iff (h : Inv R sources limit depth [] done) {k : K} {n : Nat} :
    depth k = some n ↔ IsDistance R sources k n ∧ Within limit n := by
  obtain ⟨level, hfound⟩ := h.found
  constructor
  · intro hk
    obtain ⟨hreached, hwithin⟩ := hfound.sound k n hk
    refine ⟨⟨hreached, fun m hm => ?_⟩, hwithin⟩
    by_contra hlt
    obtain ⟨n', hn', hk'⟩ := h.reached hm (hwithin.mono (Nat.le_of_not_le hlt))
    rw [hk] at hk'
    exact hlt (Option.some.inj hk' ▸ hn')
  · rintro ⟨hdistance, hwithin⟩
    obtain ⟨n', hn', hk⟩ := h.reached hdistance.reached hwithin
    obtain ⟨hreached, -⟩ := hfound.sound k n' hk
    rwa [le_antisymm hn' (hdistance.least n' hreached)] at hk

theorem Inv.done_iff (h : Inv R sources limit depth [] done) {k : K} :
    done k ↔ ∃ n, depth k = some n :=
  ⟨h.expanded k, fun ⟨n, hn⟩ => (h.covered k n hn).resolve_right List.not_mem_nil⟩

/-- A node has been found exactly if it can be reached within the limit. -/
theorem Inv.found_iff (h : Inv R sources limit depth [] done) {k : K} :
    (∃ n, depth k = some n) ↔ ∃ n, Reached R sources n k ∧ Within limit n := by
  obtain ⟨level, hfound⟩ := h.found
  constructor
  · rintro ⟨n, hn⟩
    exact ⟨n, hfound.sound k n hn⟩
  · rintro ⟨n, hreached, hwithin⟩
    obtain ⟨m, -, hm⟩ := h.reached hreached hwithin
    exact ⟨m, hm⟩

end

end Search
