import Mathlib.Algebra.Ring.Nat
import Mathlib.Data.List.Chain
import Depgraph.Library.Components

/-!
# Depth-first search

A search that keeps a stack of nodes, each with the targets that it still has to look at, and lists a
node when nothing is left to look at. `Turn` is a turn of its loop, `Inv` what the turns keep, and
`pending` counts the turns that are left. `loop` runs a turn until it no longer applies.

In the order of a finished search every edge that leaves the nodes listed up to some node leads back to
this node or to one listed before it (`Finishing`). If nothing leads back to itself, targets are listed
first (`Finishing.targets_first`). In general, what is mutual with a node and listed before it can be found
by following the edges backwards (`Finishing.mutual_of_edge`, `Gathers`).
-/

namespace DepthFirst

open Relation Connected

variable {K σ : Type}

/-! ### Loops -/

/-- Turns until none applies. -/
def loop (turn : σ → Option σ) : Nat → σ → σ
  | 0, s => s
  | fuel + 1, s =>
    match turn s with
    | none => s
    | some next => loop turn fuel next

/-- What the turns keep holds at the end, and a measure that falls is fuel enough. -/
theorem loop_induction (turn : σ → Option σ) {P : σ → Nat → Prop}
    (hturn : ∀ s n, P s n → ∀ next, turn s = some next → ∃ m < n, P next m) {fuel : Nat} {s : σ}
    {n : Nat} (h : P s n) (hfuel : n ≤ fuel) :
    (∃ m, P (loop turn fuel s) m) ∧ turn (loop turn fuel s) = none := by
  induction fuel generalizing s n with
  | zero =>
    refine ⟨⟨n, h⟩, ?_⟩
    cases hnext : turn s with
    | none => exact hnext
    | some next =>
      obtain ⟨m, hm, -⟩ := hturn s n h next hnext
      omega
  | succ fuel ih =>
    unfold loop
    cases hnext : turn s with
    | none => exact ⟨⟨n, h⟩, hnext⟩
    | some next =>
      obtain ⟨m, hm, hP⟩ := hturn s n h next hnext
      exact ih hP (by omega)

/-! ### The order in which nodes are listed -/

/-- An edge that leaves the nodes listed up to a node leads back to it or to one listed before it. -/
def Finishing (R : K → K → Prop) (order : List K) : Prop :=
  ∀ before z after, order = before ++ z :: after → ∀ y ∈ before ++ [z], ∀ t, R y t →
    t ∈ before ∨ ReflTransGen R t z

section Order

variable {R : K → K → Prop} {order earlier later : List K} {x y z : K}

theorem Finishing.nil : Finishing R [] := by
  intro before z after horder
  cases before <;> cases horder

/-- One more node is listed. -/
theorem Finishing.snoc (h : Finishing R order)
    (hz : ∀ y ∈ order ++ [z], ∀ t, R y t → t ∈ order ∨ ReflTransGen R t z) :
    Finishing R (order ++ [z]) := by
  intro before w after horder
  rcases List.eq_nil_or_concat after with rfl | ⟨after, last, rfl⟩
  · obtain ⟨rfl, hlast⟩ := List.append_inj' horder rfl
    obtain rfl : z = w := List.cons.inj hlast |>.1
    exact hz
  · rw [List.concat_eq_append, ← List.cons_append, ← List.append_assoc] at horder
    obtain ⟨rfl, -⟩ := List.append_inj' horder rfl
    exact h before w after rfl

/-- Without cycles the targets of a node are listed before it. -/
theorem Finishing.targets_first (h : Finishing R (earlier ++ z :: later)) (hacyclic : ¬ TransGen R z z)
    {t : K} (ht : R z t) : t ∈ earlier := by
  have hmem : z ∈ earlier ++ [z] := List.mem_append_right _ (List.mem_singleton_self z)
  rcases h earlier z later rfl z hmem t ht with hearlier | hback
  · exact hearlier
  · exact absurd (TransGen.head' ht hback) hacyclic

/-- What leads from a node to one listed later leads to every node between them. -/
theorem Finishing.reaches (h : Finishing R (earlier ++ z :: later)) {v : K} (hv : v ∉ earlier)
    {u : K} (hu : u ∈ earlier) (huv : ReflTransGen R u v) : ReflTransGen R u z := by
  induction huv using ReflTransGen.head_induction_on with
  | refl => exact absurd hu hv
  | @head u t hut _ ih =>
    rcases h earlier z later rfl u (List.mem_append_left _ hu) t hut with ht | hback
    · exact .head hut (ih ht)
    · exact .head hut hback

/-- What leads to a node that is mutual with one listed later is mutual with it, too. -/
theorem Finishing.mutual_of_edge (h : Finishing R (earlier ++ x :: later))
    (hnodup : (earlier ++ x :: later).Nodup) (hy : y ∈ earlier ++ [x]) {p : K} (hyp : R y p)
    (hp : Mutual R x p) : Mutual R x y := by
  rcases List.mem_append.1 hy with hy | hy
  · obtain ⟨first, middle, rfl⟩ := List.append_of_mem hy
    have hsplit : first ++ y :: middle ++ x :: later = first ++ y :: (middle ++ x :: later) :=
      List.append_assoc ..
    rw [hsplit] at h hnodup
    have hlater : x ∉ first := fun hx =>
      List.disjoint_of_nodup_append hnodup hx
        (List.mem_cons_of_mem _ (List.mem_append_right _ List.mem_cons_self))
    have hmem : y ∈ first ++ [y] := List.mem_append_right _ (List.mem_singleton_self y)
    refine ⟨hp.1.trans ?_, .head hyp hp.2⟩
    -- the edge leads back to the node or to one listed before it
    rcases h first y _ rfl y hmem p hyp with hfirst | hback
    · exact h.reaches hlater hfirst hp.2
    · exact hback
  · rw [List.mem_singleton.1 hy]
    exact .refl x

end Order

/-! ### Turns of a search -/

/-- A search: the stack with the targets each node still has to look at, what has been visited, and
the nodes listed so far. -/
structure State (K : Type) where
  stack : List (K × List K)
  visited : K → Prop
  order : List K

section Turns

variable (targets : K → List K)

/-- The edges of a search. -/
def Edge (k t : K) : Prop := t ∈ targets k

/-- A turn looks at a target of the node at the top or lists this node. -/
inductive Turn : State K → State K → Prop
  | known {k t rest stack visited order} : visited t →
      Turn ⟨(k, t :: rest) :: stack, visited, order⟩ ⟨(k, rest) :: stack, visited, order⟩
  | visit {k t rest stack visited order} : ¬ visited t →
      Turn ⟨(k, t :: rest) :: stack, visited, order⟩
        ⟨(t, targets t) :: (k, rest) :: stack, fun y => y = t ∨ visited y, order⟩
  | finish {k stack visited order} :
      Turn ⟨(k, []) :: stack, visited, order⟩ ⟨stack, visited, order ++ [k]⟩

/-- What holds of a search between turns. -/
structure Inv (search : State K) : Prop where
  visited_iff : ∀ k, search.visited k ↔ k ∈ search.stack.map Prod.fst ∨ k ∈ search.order
  nodup : (search.stack.map Prod.fst ++ search.order).Nodup
  chain : (search.stack.map Prod.fst).IsChain fun upper lower => Edge targets lower upper
  leads : ∀ e ∈ search.stack, ∀ t ∈ e.2, Edge targets e.1 t
  looked : ∀ e ∈ search.stack, ∀ t, Edge targets e.1 t → t ∈ e.2 ∨ search.visited t
  closed : ∀ k ∈ search.order, ∀ t, Edge targets k t → search.visited t
  finishing : Finishing (Edge targets) search.order

variable {targets} {k t : K} {rest : List K} {stack : List (K × List K)} {visited : K → Prop}
  {order : List K} {search search' : State K}

theorem Inv.start (h : ∀ k, ¬ visited k) : Inv targets ⟨[], visited, []⟩ where
  visited_iff k := iff_of_false (h k) (by simp)
  nodup := List.nodup_nil
  chain := .nil
  leads e he := absurd he List.not_mem_nil
  looked e he := absurd he List.not_mem_nil
  closed k hk := absurd hk List.not_mem_nil
  finishing := .nil

/-- A node is visited: it is put on the stack with all its targets. -/
theorem Inv.visit (h : Inv targets ⟨stack, visited, order⟩) (hnew : ¬ visited t)
    (htop : ∀ k ∈ (stack.map Prod.fst).head?, Edge targets k t) :
    Inv targets ⟨(t, targets t) :: stack, fun y => y = t ∨ visited y, order⟩ where
  visited_iff y := by
    have hy := h.visited_iff y
    simp only [List.map_cons, List.mem_cons, or_assoc] at hy ⊢
    exact or_congr_right hy
  nodup := by
    have ht := (not_congr (h.visited_iff t)).1 hnew
    rw [← List.mem_append] at ht
    exact List.nodup_cons.2 ⟨ht, h.nodup⟩
  chain := List.isChain_cons.2 ⟨htop, h.chain⟩
  leads e he u hu := by
    rcases List.mem_cons.1 he with rfl | he
    · exact hu
    · exact h.leads e he u hu
  looked e he u hu := by
    rcases List.mem_cons.1 he with rfl | he
    · exact Or.inl hu
    · exact (h.looked e he u hu).imp_right Or.inr
  closed y hy u hu := Or.inr (h.closed y hy u hu)
  finishing := h.finishing

/-- Targets that have been visited need not be looked at. -/
theorem Inv.narrow (h : Inv targets ⟨stack, visited, order⟩) {stack' : List (K × List K)}
    (hnodes : stack'.map Prod.fst = stack.map Prod.fst)
    (hframes : ∀ e' ∈ stack', ∃ e ∈ stack, e.1 = e'.1 ∧ (∀ t ∈ e'.2, t ∈ e.2) ∧
      ∀ t ∈ e.2, t ∈ e'.2 ∨ visited t) :
    Inv targets ⟨stack', visited, order⟩ where
  visited_iff y := by
    dsimp only
    rw [hnodes]
    exact h.visited_iff y
  nodup := by
    dsimp only
    rw [hnodes]
    exact h.nodup
  chain := by
    dsimp only
    rw [hnodes]
    exact h.chain
  leads e' he' u hu := by
    obtain ⟨e, he, hsame, hsub, -⟩ := hframes e' he'
    exact hsame ▸ h.leads e he u (hsub u hu)
  looked e' he' u hu := by
    obtain ⟨e, he, hsame, -, hleft⟩ := hframes e' he'
    rcases h.looked e he u (hsame ▸ hu) with hu | hu
    · exact hleft u hu
    · exact Or.inr hu
  closed := h.closed
  finishing := h.finishing

/-- Every node on the stack leads to the one at the top. -/
theorem reaches_top {R : K → K → Prop} {top : K} {below : List K}
    (h : (top :: below).IsChain fun upper lower => R lower upper) :
    ∀ y ∈ top :: below, ReflTransGen R y top := by
  induction below generalizing top with
  | nil =>
    intro y hy
    rw [List.mem_singleton.1 hy]
  | cons next below ih =>
    obtain ⟨hnext, hbelow⟩ := List.isChain_cons_cons.1 h
    intro y hy
    rcases List.mem_cons.1 hy with rfl | hy
    · exact .refl
    · exact (ih hbelow y hy).tail hnext

/-- A node all of whose targets have been looked at is listed. -/
theorem Inv.finish (h : Inv targets ⟨(k, []) :: stack, visited, order⟩) :
    Inv targets ⟨stack, visited, order ++ [k]⟩ where
  visited_iff y := by
    have hy := h.visited_iff y
    simp only [List.map_cons, List.mem_cons] at hy
    simp only [List.mem_append, List.mem_singleton, hy]
    tauto
  nodup := by
    have hperm : (stack.map Prod.fst ++ (order ++ [k])).Perm (k :: stack.map Prod.fst ++ order) := by
      rw [← List.append_assoc]
      exact List.perm_append_singleton k _
    exact hperm.nodup_iff.2 h.nodup
  chain := (List.isChain_cons.1 h.chain).2
  leads e he := h.leads e (List.mem_cons_of_mem _ he)
  looked e he := h.looked e (List.mem_cons_of_mem _ he)
  closed y hy t ht := by
    rcases List.mem_append.1 hy with hy | hy
    · exact h.closed y hy t ht
    · rw [List.mem_singleton.1 hy] at ht
      exact (h.looked _ List.mem_cons_self t ht).resolve_left List.not_mem_nil
  finishing := by
    refine h.finishing.snoc fun y hy t ht => ?_
    have hvisited : visited t := by
      rcases List.mem_append.1 hy with hy | hy
      · exact h.closed y hy t ht
      · rw [List.mem_singleton.1 hy] at ht
        exact (h.looked _ List.mem_cons_self t ht).resolve_left List.not_mem_nil
    -- what is on the stack leads to the node that is listed
    rcases (h.visited_iff t).1 hvisited with hstack | horder
    · exact Or.inr (reaches_top h.chain t hstack)
    · exact Or.inl horder

theorem Inv.turn (h : Inv targets search) (hturn : Turn targets search search') :
    Inv targets search' := by
  cases hturn with
  | known ht =>
    refine h.narrow rfl fun e' he' => ?_
    rcases List.mem_cons.1 he' with rfl | he'
    · refine ⟨_, List.mem_cons_self, rfl, fun u => List.mem_cons_of_mem _, fun u hu => ?_⟩
      rcases List.mem_cons.1 hu with rfl | hu
      · exact Or.inr ht
      · exact Or.inl hu
    · exact ⟨e', List.mem_cons_of_mem _ he', rfl, fun u => id, fun u => Or.inl⟩
  | @visit k t rest stack visited order ht =>
    have htop : Edge targets k t := h.leads _ List.mem_cons_self t List.mem_cons_self
    refine (h.visit ht fun k' hk' => ?_).narrow rfl fun e' he' => ?_
    · obtain rfl : k = k' := Option.some.inj hk'
      exact htop
    rcases List.mem_cons.1 he' with rfl | he'
    · exact ⟨_, List.mem_cons_self, rfl, fun u => id, fun u => Or.inl⟩
    rcases List.mem_cons.1 he' with rfl | he'
    · refine ⟨(k, t :: rest), List.mem_cons_of_mem _ List.mem_cons_self, rfl,
        fun u => List.mem_cons_of_mem _, fun u hu => ?_⟩
      rcases List.mem_cons.1 hu with rfl | hu
      · exact Or.inr (Or.inl rfl)
      · exact Or.inl hu
    · exact ⟨e', List.mem_cons_of_mem _ (List.mem_cons_of_mem _ he'), rfl, fun u => id,
        fun u => Or.inl⟩
  | finish => exact h.finish

/-! ### The turns that are left -/

/-- The costs of the nodes that have not been visited. -/
noncomputable def remaining (cost : K → Nat) (visited : K → Prop) (nodes : List K) : Nat :=
  open Classical in ((nodes.filter fun k => ¬ visited k).map cost).sum

/-- Visiting a node uses its cost up. -/
theorem remaining_visit (cost : K → Nat) {visited visited' : K → Prop} {nodes : List K}
    (hnodup : nodes.Nodup) (ht : t ∈ nodes) (hnew : ¬ visited t)
    (hvisited : ∀ y, visited' y ↔ y = t ∨ visited y) :
    remaining cost visited nodes = cost t + remaining cost visited' nodes := by
  classical
  obtain ⟨first, last, rfl⟩ := List.append_of_mem ht
  have hsame (l : List K) (hl : t ∉ l) :
      l.filter (fun k => ¬ visited' k) = l.filter fun k => ¬ visited k := by
    refine List.filter_congr fun y hy => ?_
    have hne : y ≠ t := fun heq => hl (heq ▸ hy)
    simp [hvisited, hne]
  have hperm : (first ++ t :: last).Perm (t :: (first ++ last)) := List.perm_middle
  obtain ⟨houtside, -⟩ := List.nodup_cons.1 (hperm.nodup_iff.1 hnodup)
  rw [List.mem_append, not_or] at houtside
  have hvisited' : visited' t := (hvisited t).2 (Or.inl rfl)
  simp only [remaining, List.filter_append, List.filter_cons, hsame first houtside.1,
    hsame last houtside.2, decide_eq_true hnew, hvisited', not_true_eq_false, decide_false,
    Bool.false_eq_true, if_true, if_false, List.map_append, List.map_cons, List.sum_append,
    List.sum_cons]
  omega

theorem remaining_le (cost : K → Nat) (visited : K → Prop) (nodes : List K) :
    remaining cost visited nodes ≤ (nodes.map cost).sum := by
  classical
  unfold remaining
  induction nodes with
  | nil => exact Nat.le_refl _
  | cons k nodes ih =>
    rw [List.filter_cons, List.map_cons, List.sum_cons]
    split_ifs
    · rw [List.map_cons, List.sum_cons]
      omega
    · omega

/-- Nothing more remains when more has been visited. -/
theorem remaining_mono (cost : K → Nat) {visited visited' : K → Prop} (nodes : List K)
    (h : ∀ y, visited y → visited' y) :
    remaining cost visited' nodes ≤ remaining cost visited nodes := by
  classical
  unfold remaining
  induction nodes with
  | nil => exact Nat.le_refl _
  | cons k nodes ih =>
    by_cases hk : visited k
    · rw [List.filter_cons_of_neg (by simpa using h k hk), List.filter_cons_of_neg (by simpa using hk)]
      exact ih
    · simp only [List.filter_cons, hk, not_false_eq_true, decide_true, if_true, List.map_cons,
        List.sum_cons]
      split_ifs
      · rw [List.map_cons, List.sum_cons]
        omega
      · omega

/-- A turn for every target of a node and one to list it. -/
def nodeCost (targets : K → List K) (k : K) : Nat := (targets k).length + 1

/-- The turns that are left in a search of these nodes. -/
noncomputable def pending (targets : K → List K) (nodes : List K) (search : State K) : Nat :=
  (search.stack.map fun e => e.2.length + 1).sum +
    remaining (nodeCost targets) search.visited nodes

/-- Only these nodes are visited. -/
def Inside (nodes : List K) (search : State K) : Prop := ∀ k, search.visited k → k ∈ nodes

section Nodes

variable {nodes : List K}

/-- Every turn brings the end of the search nearer. -/
theorem Inv.pending_turn (hnodup : nodes.Nodup) (htargets : ∀ k, ∀ t ∈ targets k, t ∈ nodes)
    (h : Inv targets search) (hturn : Turn targets search search') :
    pending targets nodes search' < pending targets nodes search := by
  cases hturn with
  | known => simp [pending]
  | @visit k t rest stack visited order ht =>
    have hmem : t ∈ nodes := htargets k t (h.leads _ List.mem_cons_self t List.mem_cons_self)
    have hcost := remaining_visit (nodeCost targets) hnodup hmem ht fun y => Iff.rfl
    simp only [pending, List.map_cons, List.sum_cons, List.length_cons, hcost, nodeCost]
    omega
  | finish => simp [pending]

theorem Inv.inside_turn (htargets : ∀ k, ∀ t ∈ targets k, t ∈ nodes) (h : Inv targets search)
    (hinside : Inside nodes search) (hturn : Turn targets search search') :
    Inside nodes search' := by
  cases hturn with
  | known => exact hinside
  | @visit k t rest stack visited order ht =>
    rintro y (rfl | hy)
    · exact htargets k y (h.leads _ List.mem_cons_self y List.mem_cons_self)
    · exact hinside y hy
  | finish => exact hinside

end Nodes

theorem Turn.keeps (h : Turn targets search search') (hk : search.visited k) :
    search'.visited k := by
  cases h with
  | known => exact hk
  | visit => exact Or.inr hk
  | finish => exact hk

end Turns

/-! ### Searches that a program makes -/

/-- What a program has to do to search nodes one after another: its turns are turns of the search
which its state represents, and it begins with each node that has not been visited. -/
structure Searches (targets : K → List K) (nodes : List K) (turn : σ → Option σ)
    (step : σ → K → σ) (represents : σ → State K → Prop) : Prop where
  nodup : nodes.Nodup
  targets_mem : ∀ k, ∀ t ∈ targets k, t ∈ nodes
  turns : ∀ {s search next}, Inv targets search → represents s search → turn s = some next →
    ∃ search', Turn targets search search' ∧ represents next search'
  stops : ∀ {s search}, represents s search → turn s = none → search.stack = []
  knows : ∀ {s search k}, represents s search → search.visited k → step s k = s
  enters : ∀ {s search k}, represents s search → search.stack = [] → ¬ search.visited k →
    k ∈ nodes → ∃ s' fuel, step s k = loop turn fuel s' ∧ (nodes.map (nodeCost targets)).sum ≤ fuel ∧
      represents s' ⟨[(k, targets k)], fun y => y = k ∨ search.visited y, search.order⟩

section Searches

variable {targets : K → List K} {nodes : List K} {turn : σ → Option σ} {step : σ → K → σ}
  {represents : σ → State K → Prop}

/-- The search of one node after those before it. -/
theorem Searches.node (h : Searches targets nodes turn step represents) {s : σ} {search : State K}
    (hs : represents s search) (hinv : Inv targets search) (hinside : Inside nodes search)
    (hidle : search.stack = []) {k : K} (hk : k ∈ nodes) :
    ∃ search', represents (step s k) search' ∧ Inv targets search' ∧ Inside nodes search' ∧
      search'.stack = [] ∧ ∀ y, y = k ∨ search.visited y → search'.visited y := by
  by_cases hvisited : search.visited k
  · rw [h.knows hs hvisited]
    refine ⟨search, hs, hinv, hinside, hidle, ?_⟩
    rintro y (rfl | hy)
    · exact hvisited
    · exact hy
  · obtain ⟨s', fuel, hstep, hfuel, hs'⟩ := h.enters hs hidle hvisited hk
    obtain ⟨stack, visited, order⟩ := search
    obtain rfl : stack = [] := hidle
    have hentered := hinv.visit hvisited fun y hy => by cases hy
    have hleft : pending targets nodes ⟨[(k, targets k)], fun y => y = k ∨ visited y, order⟩ =
        remaining (nodeCost targets) visited nodes := by
      exact (remaining_visit (nodeCost targets) h.nodup hk hvisited fun y => Iff.rfl).symm
    have henough := remaining_le (nodeCost targets) visited nodes
    obtain ⟨⟨-, search', hrepresents, hinv', hinside', -, hkept⟩, hstop⟩ := loop_induction turn
      (P := fun s n => ∃ search', represents s search' ∧ Inv targets search' ∧
        Inside nodes search' ∧ pending targets nodes search' = n ∧
          ∀ y, y = k ∨ visited y → search'.visited y)
      (fun s n hP next hnext => by
        obtain ⟨search, hs, hinv, hinside, rfl, hkept⟩ := hP
        obtain ⟨search', hturn, hnext⟩ := h.turns hinv hs hnext
        exact ⟨_, hinv.pending_turn h.nodup h.targets_mem hturn, search', hnext, hinv.turn hturn,
          hinv.inside_turn h.targets_mem hinside hturn, rfl,
          fun y hy => hturn.keeps (hkept y hy)⟩)
      ⟨_, hs', hentered, by
        rintro y (rfl | hy)
        · exact hk
        · exact hinside y hy, rfl, fun y hy => hy⟩
      (hleft.trans_le (henough.trans hfuel))
    rw [← hstep] at hrepresents hstop
    exact ⟨search', hrepresents, hinv', hinside', h.stops hrepresents hstop, hkept⟩

/-- **All nodes are listed, each once, in the order in which they are finished.** -/
theorem Searches.finished (h : Searches targets nodes turn step represents) {s : σ}
    (hs : represents s ⟨[], fun _ => False, []⟩) :
    ∃ search, represents (nodes.foldl step s) search ∧ search.order.Perm nodes ∧
      Finishing (Edge targets) search.order := by
  have hall : ∀ starts : List K, starts ⊆ nodes → ∀ s search, represents s search →
      Inv targets search → Inside nodes search → search.stack = [] →
        ∃ search', represents (starts.foldl step s) search' ∧ Inv targets search' ∧
          Inside nodes search' ∧ search'.stack = [] ∧
            ∀ y, y ∈ starts ∨ search.visited y → search'.visited y := by
    intro starts
    induction starts with
    | nil =>
      intro _ s search hs hinv hinside hidle
      exact ⟨search, hs, hinv, hinside, hidle, fun y hy => hy.resolve_left List.not_mem_nil⟩
    | cons k starts ih =>
      intro hsub s search hs hinv hinside hidle
      obtain ⟨mid, hmid, hinv', hinside', hidle', hkept⟩ :=
        h.node hs hinv hinside hidle (hsub List.mem_cons_self)
      obtain ⟨last, hlast, hinv'', hinside'', hidle'', hkept'⟩ :=
        ih (fun y hy => hsub (List.mem_cons_of_mem _ hy)) _ mid hmid hinv' hinside' hidle'
      refine ⟨last, hlast, hinv'', hinside'', hidle'', fun y hy => hkept' y ?_⟩
      rcases hy with hy | hy
      · rcases List.mem_cons.1 hy with rfl | hy
        · exact Or.inr (hkept y (Or.inl rfl))
        · exact Or.inl hy
      · exact Or.inr (hkept y (Or.inr hy))
  obtain ⟨search, hsearch, hinv, hinside, hidle, hvisited⟩ := hall nodes (fun _ => id) s _ hs
    (.start fun _ => id) (fun k hk => hk.elim) rfl
  refine ⟨search, hsearch, ?_, hinv.finishing⟩
  have hlisted (y : K) : search.visited y ↔ y ∈ search.order := by
    rw [hinv.visited_iff, hidle, List.map_nil, or_iff_right List.not_mem_nil]
  refine (List.perm_ext_iff_of_nodup ?_ h.nodup).2 fun y => ?_
  · exact hinv.nodup.of_append_right
  · exact (hlisted y).symm.trans ⟨hinside y, fun hy => hvisited y (Or.inl hy)⟩

end Searches

/-! ### Components found backwards -/

/-- A search that follows the edges backwards from a node and leaves out what has been seen before:
the nodes on its stack and those it has gathered. -/
structure Gathers (R : K → K → Prop) (x : K) (seen : K → Prop) (stack component : List K) : Prop where
  nodup : component.Nodup
  gathered : ∀ y ∈ component, Mutual R x y ∧ ¬ seen y
  stacked : ∀ y ∈ stack, seen y ∨ Mutual R x y
  closed : ∀ y ∈ component, ∀ p, R p y → seen p ∨ p ∈ component ∨ p ∈ stack
  source : x ∈ stack ∨ x ∈ component

section Gathers

variable {R : K → K → Prop} {x y : K} {seen : K → Prop} {stack stack' component : List K}

theorem Gathers.start : Gathers R x seen [x] [] where
  nodup := List.nodup_nil
  gathered y hy := absurd hy List.not_mem_nil
  stacked y hy := by
    rw [List.mem_singleton.1 hy]
    exact Or.inr (.refl x)
  closed y hy := absurd hy List.not_mem_nil
  source := Or.inl (List.mem_singleton_self x)

theorem Gathers.skip (h : Gathers R x seen (y :: stack) component) (hx : ¬ seen x)
    (hy : seen y ∨ y ∈ component) : Gathers R x seen stack component where
  nodup := h.nodup
  gathered := h.gathered
  stacked z hz := h.stacked z (List.mem_cons_of_mem _ hz)
  closed z hz p hp := by
    rcases h.closed z hz p hp with hseen | hgathered | hstack
    · exact Or.inl hseen
    · exact Or.inr (Or.inl hgathered)
    · rcases List.mem_cons.1 hstack with rfl | hstack
      · exact hy.imp_right Or.inl
      · exact Or.inr (Or.inr hstack)
  source := by
    rcases h.source with hstack | hgathered
    · rcases List.mem_cons.1 hstack with rfl | hstack
      · exact Or.inr (hy.resolve_left hx)
      · exact Or.inl hstack
    · exact Or.inr hgathered

/-- A node is gathered and what leads to it is put on the stack. -/
theorem Gathers.take (h : Gathers R x seen (y :: stack) component) (hseen : ¬ seen y)
    (hfresh : y ∉ component) (hstack : ∀ p, p ∈ stack' ↔ R p y ∨ p ∈ stack)
    (hedge : ∀ p, R p y → Mutual R x y → seen p ∨ Mutual R x p) :
    Gathers R x seen stack' (component ++ [y]) := by
  have hmutual : Mutual R x y := (h.stacked y List.mem_cons_self).resolve_left hseen
  refine ⟨?_, fun z hz => ?_, fun p hp => ?_, fun z hz p hp => ?_, ?_⟩
  · exact (List.perm_append_singleton y component).nodup_iff.2 (List.nodup_cons.2 ⟨hfresh, h.nodup⟩)
  · rcases List.mem_append.1 hz with hz | hz
    · exact h.gathered z hz
    · rw [List.mem_singleton.1 hz]
      exact ⟨hmutual, hseen⟩
  · rcases (hstack p).1 hp with hp | hp
    · exact hedge p hp hmutual
    · exact h.stacked p (List.mem_cons_of_mem _ hp)
  · rcases List.mem_append.1 hz with hz | hz
    · rcases h.closed z hz p hp with hseen | hgathered | hmem
      · exact Or.inl hseen
      · exact Or.inr (Or.inl (List.mem_append_left _ hgathered))
      · rcases List.mem_cons.1 hmem with rfl | hmem
        · exact Or.inr (Or.inl (List.mem_append_right _ (List.mem_singleton_self p)))
        · exact Or.inr (Or.inr ((hstack p).2 (Or.inr hmem)))
    · rw [List.mem_singleton.1 hz] at hp
      exact Or.inr (Or.inr ((hstack p).2 (Or.inl hp)))
  · rcases h.source with hmem | hgathered
    · rcases List.mem_cons.1 hmem with rfl | hmem
      · exact Or.inr (List.mem_append_right _ (List.mem_singleton_self x))
      · exact Or.inl ((hstack x).2 (Or.inr hmem))
    · exact Or.inr (List.mem_append_left _ hgathered)

/-- When nothing is left to follow, the component of the node has been gathered. -/
theorem Gathers.mem_iff (h : Gathers R x seen [] component)
    (hseen : ∀ y z, seen y → Mutual R y z → seen z) (hx : ¬ seen x) :
    y ∈ component ↔ Mutual R x y := by
  constructor
  · exact fun hy => (h.gathered y hy).1
  · intro hxy
    have hsource : x ∈ component := h.source.resolve_left List.not_mem_nil
    have hback : ∀ z, ReflTransGen R z x → Mutual R x z → z ∈ component := by
      intro z hz
      induction hz using ReflTransGen.head_induction_on with
      | refl => exact fun _ => hsource
      | @head z t hzt htx ih =>
        intro hxz
        have ht := ih ⟨hxz.1.tail hzt, htx⟩
        rcases h.closed t ht z hzt with hz | hz | hz
        · exact absurd (hseen z x hz hxz.symm) hx
        · exact hz
        · exact absurd hz List.not_mem_nil
    exact hback y hxy.2 hxy

/-- What leads to a node of the component has been seen or is of the component, when the nodes that
are listed later have been seen. -/
theorem Finishing.seen_or_mutual {earlier later : List K} (h : Finishing R (earlier ++ x :: later))
    (hnodup : (earlier ++ x :: later).Nodup) {p : K} (hp : p ∈ earlier ++ x :: later)
    (hseen : ∀ z ∈ later, seen z) (hpy : R p y) (hy : Mutual R x y) : seen p ∨ Mutual R x p := by
  rw [List.append_cons] at hp
  rcases List.mem_append.1 hp with hearlier | hlater
  · exact Or.inr (h.mutual_of_edge hnodup hearlier hpy hy)
  · exact Or.inl (hseen p hlater)

end Gathers

end DepthFirst
