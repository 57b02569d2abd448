import Depgraph.Library.Fallible
import Depgraph.Library.Search

/-!
# Loops over a queue

The loop of a breadth-first search as programs write it: a queue of nodes without their depths, a
set of seen nodes in whatever form, and a body that looks at one edge after the other and may end the
search with a result of its own. `Rules` says what a body has to do and what it may keep beside the
queue, and `Rules.loop` that the loop then is a search in the sense of `Library.Search`, with depths
that the program does not store.
-/

namespace Breadth

open Search Fallible

variable {K E σ ρ : Type}

/-- The queue of a search, and what else its loop keeps. -/
structure Queued (K σ : Type) where
  queue : List K
  kept : σ

/-- The loop over the queue. The body may end it. -/
def loop (listed : K → List E) (visit : K → Queued K σ → E → Except ρ (Queued K σ)) :
    Nat → Queued K σ → Except ρ (Queued K σ)
  | 0, search => .ok search
  | fuel + 1, search =>
    match search.queue with
    | [] => .ok search
    | k :: queue =>
      (listed k).foldlM (visit k) { search with queue } >>= loop listed visit fuel

/-- An edge that is listed under a node leads to another. -/
def Leads (listed : K → List E) (next : E → K) (k y : K) : Prop := ∃ e ∈ listed k, next e = y

/-- A node that is seen for the first time is put at the end of the queue. -/
inductive Enters (seen : σ → K → Prop) (y : K) (search search' : Queued K σ) : Prop
  | known : seen search.kept y → search'.queue = search.queue →
      (∀ k, seen search'.kept k ↔ seen search.kept k) → Enters seen y search search'
  | new : ¬ seen search.kept y → search'.queue = search.queue ++ [y] →
      (∀ k, seen search'.kept k ↔ seen search.kept k ∨ k = y) → Enters seen y search search'

/-- The depths with one more. -/
def enter [DecidableEq K] (depth : K → Option Nat) (y : K) (n : Nat) (k : K) : Option Nat :=
  if k = y then some n else depth k

/-- The depths and the queue with depths agree with what the program keeps, and no node waits twice
or has been expanded while it waits. -/
structure Traced (seen : σ → K → Prop) (depth : K → Option Nat) (queue : List (K × Nat))
    (done : K → Prop) (search : Queued K σ) : Prop where
  queue_eq : queue.map Prod.fst = search.queue
  seen_iff : ∀ k, seen search.kept k ↔ ∃ n, depth k = some n
  nodup : search.queue.Nodup
  waits : ∀ k ∈ search.queue, ¬ done k

/-- What the body of a loop has to do. Beside the queue it keeps `between` from turn to turn and
`within` while the edges of a node are looked at; a result that ends the loop is `stopped`. -/
structure Rules [DecidableEq K] (listed : K → List E) (next : E → K) (seen : σ → K → Prop)
    (visit : K → Queued K σ → E → Except ρ (Queued K σ)) (root : K)
    (between : (K → Option Nat) → (K → Prop) → σ → Prop)
    (within : (K → Option Nat) → (K → Prop) → K → List E → σ → Prop) (stopped : ρ → Prop) :
    Prop where
  enters : ∀ {k e search search'}, e ∈ listed k → visit k search e = .ok search' →
    Enters seen (next e) search search'
  pop : ∀ {depth done kept k}, between depth done kept → within depth done k [] kept
  known : ∀ {depth done k looked e search search'}, within depth done k looked search.kept →
    ¬ done k → looked ++ [e] <+: listed k → seen search.kept (next e) → visit k search e = .ok search' →
      within depth done k (looked ++ [e]) search'.kept
  new : ∀ {depth done k looked e search search' n}, within depth done k looked search.kept →
    ¬ done k → looked ++ [e] <+: listed k → depth k = some n → depth (next e) = none → ¬ seen search.kept (next e) →
    visit k search e = .ok search' →
      within (enter depth (next e) (n + 1)) done k (looked ++ [e]) search'.kept
  finish : ∀ {depth done k kept}, within depth done k (listed k) kept →
    between depth (fun y => done y ∨ y = k) kept
  stop : ∀ {depth queue done k n looked e search r}, Traced seen depth queue done search →
    Turn (Leads listed next) (· = root) none depth queue done k n (fun y => ∃ e ∈ looked, next e = y) →
    within depth done k looked search.kept → ¬ done k → looked ++ [e] <+: listed k →
    visit k search e = .error r → stopped r

/-- What holds between turns. -/
def Between (listed : K → List E) (next : E → K) (seen : σ → K → Prop) (root : K)
    (between : (K → Option Nat) → (K → Prop) → σ → Prop) (search : Queued K σ) : Prop :=
  ∃ depth queue done, Traced seen depth queue done search ∧
    Inv (Leads listed next) (· = root) none depth queue done ∧ between depth done search.kept

/-- The nodes in the queue and the edges that are still to enter a node. -/
noncomputable def pending (next : E → K) (seen : σ → K → Prop) (edges : List E)
    (search : Queued K σ) : Nat :=
  open Classical in search.queue.length + edges.countP fun e => ¬ seen search.kept (next e)

section Pending

variable {next : E → K} {seen : σ → K → Prop} {edges : List E} {search search' : Queued K σ}

/-- Entering a node through an edge uses this edge up. -/
theorem Enters.pending_le {e : E} (h : Enters seen (next e) search search') (he : e ∈ edges) :
    pending next seen edges search' ≤ pending next seen edges search := by
  classical
  unfold pending
  cases h with
  | known _ hqueue hseen => simp only [hqueue, hseen, le_refl]
  | new hnew hqueue hseen =>
    have hfewer (l : List E) : (l.countP fun e' => ¬ seen search'.kept (next e')) ≤
        l.countP fun e' => ¬ seen search.kept (next e') := by
      refine List.countP_mono_left fun e' _ he' => ?_
      simp only [decide_eq_true_eq, hseen, not_or] at he' ⊢
      exact he'.1
    obtain ⟨l₁, l₂, rfl⟩ := List.append_of_mem he
    have h₁ := hfewer l₁
    have h₂ := hfewer l₂
    have hentered : seen search'.kept (next e) := (hseen _).2 (Or.inr rfl)
    rw [hqueue, List.length_append, List.length_singleton, List.countP_append, List.countP_append,
      List.countP_cons, List.countP_cons, if_pos (decide_eq_true hnew),
      if_neg (by simpa using hentered)]
    omega

end Pending

theorem pending_of_cons (next : E → K) (seen : σ → K → Prop) (edges : List E)
    {search : Queued K σ} {k : K} {rest : List K} (h : search.queue = k :: rest) :
    pending next seen edges search = pending next seen edges { search with queue := rest } + 1 := by
  unfold pending
  rw [h, List.length_cons]
  exact Nat.add_right_comm _ _ _

theorem pending_start_le (next : E → K) (seen : σ → K → Prop) (edges : List E) (root : K)
    (kept : σ) : pending next seen edges ⟨[root], kept⟩ ≤ edges.length + 1 := by
  unfold pending
  rw [List.length_singleton, Nat.add_comm]
  exact Nat.add_le_add_right List.countP_le_length 1

/-! ### The loop -/

section Unfold

variable {listed : K → List E} {visit : K → Queued K σ → E → Except ρ (Queued K σ)} {fuel : Nat}
  {search : Queued K σ}

theorem loop_of_nil (h : search.queue = []) : loop listed visit (fuel + 1) search = .ok search := by
  simp only [loop, h]

theorem loop_of_cons {k : K} {rest : List K} (h : search.queue = k :: rest) :
    loop listed visit (fuel + 1) search =
      (listed k).foldlM (visit k) { search with queue := rest } >>= loop listed visit fuel := by
  simp only [loop, h]

end Unfold

section Loop

variable [DecidableEq K] {listed : K → List E} {next : E → K} {seen : σ → K → Prop}
  {visit : K → Queued K σ → E → Except ρ (Queued K σ)} {root : K}
  {between : (K → Option Nat) → (K → Prop) → σ → Prop}
  {within : (K → Option Nat) → (K → Prop) → K → List E → σ → Prop} {stopped : ρ → Prop}
  {edges : List E}

/-- What holds while the edges of a node are looked at. -/
def Within (listed : K → List E) (next : E → K) (seen : σ → K → Prop) (root : K)
    (within : (K → Option Nat) → (K → Prop) → K → List E → σ → Prop) (k : K) (looked : List E)
    (search : Queued K σ) : Prop :=
  ∃ depth queue done n, Traced seen depth queue done search ∧
    Turn (Leads listed next) (· = root) none depth queue done k n (fun y => ∃ e ∈ looked, next e = y) ∧
    within depth done k looked search.kept ∧ ¬ done k ∧ k ∉ search.queue

/-- One edge. -/
theorem Rules.looks (rules : Rules listed next seen visit root between within stopped) {k : K}
    {looked : List E} {e : E} {search search' : Queued K σ}
    (h : Within listed next seen root within k looked search) (hpart : looked ++ [e] <+: listed k)
    (hvisit : visit k search e = .ok search') :
    Within listed next seen root within k (looked ++ [e]) search' := by
  have he : e ∈ listed k := hpart.subset (by simp)
  obtain ⟨depth, queue, done, n, htraced, hturn, hwithin, hfresh, hwaits⟩ := h
  have hlooked : (fun y => (∃ e' ∈ looked, next e' = y) ∨ y = next e) =
      fun y => ∃ e' ∈ looked ++ [e], next e' = y := by
    funext y
    simp only [List.mem_append, List.mem_singleton, or_and_right, exists_or, exists_eq_left,
      eq_comm (a := y)]
  rcases rules.enters he hvisit with ⟨hknown, hqueue, hseen⟩ | ⟨hnew, hqueue, hseen⟩
  · obtain ⟨m, hm⟩ := (htraced.seen_iff _).1 hknown
    refine ⟨depth, queue, done, n, ⟨htraced.queue_eq.trans hqueue.symm, fun k' => ?_,
      hqueue ▸ htraced.nodup, hqueue ▸ htraced.waits⟩, hlooked ▸ hturn.seen hm,
      rules.known hwithin hfresh hpart hknown hvisit, hfresh, hqueue ▸ hwaits⟩
    rw [hseen, htraced.seen_iff]
  · have hnone : depth (next e) = none := by
      rw [htraced.seen_iff, not_exists] at hnew
      exact Option.eq_none_iff_forall_ne_some.2 hnew
    have hunqueued : next e ∉ search.queue := by
      rw [← htraced.queue_eq]
      intro hmem
      obtain ⟨entry, hentry, hkey⟩ := List.mem_map.1 hmem
      have := hturn.found.queued entry hentry
      rw [hkey, hnone] at this
      cases this
    have hundone : ¬ done (next e) := by
      intro hdone
      obtain ⟨m, hm⟩ := hturn.expanded _ hdone
      rw [hnone] at hm
      cases hm
    have hother : k ≠ next e := by
      intro hsame
      have := hturn.here
      rw [hsame, hnone] at this
      cases this
    refine ⟨enter depth (next e) (n + 1), queue ++ [(next e, n + 1)], done, n,
      ⟨?_, fun k' => ?_, ?_, ?_⟩,
      hlooked ▸ hturn.discover (fun l hl => absurd hl (by simp)) ⟨e, he, rfl⟩ hnone,
      rules.new hwithin hfresh hpart hturn.here hnone hnew hvisit, hfresh, ?_⟩
    · rw [List.map_append, htraced.queue_eq, hqueue]
      rfl
    · rw [hseen, htraced.seen_iff]
      unfold enter
      split_ifs with hk
      · exact iff_of_true (Or.inr hk) ⟨_, rfl⟩
      · exact or_iff_left hk
    · rw [hqueue, List.nodup_append]
      refine ⟨htraced.nodup, List.nodup_singleton _, ?_⟩
      rintro a ha b hb rfl
      exact hunqueued (List.mem_singleton.1 hb ▸ ha)
    · intro y hy
      rcases List.mem_append.1 (hqueue ▸ hy) with hy | hy
      · exact htraced.waits y hy
      · rwa [List.mem_singleton.1 hy]
    · rw [hqueue, List.mem_append, List.mem_singleton]
      exact not_or.2 ⟨hwaits, hother⟩

/-- The edges of one node. -/
theorem Rules.visits (rules : Rules listed next seen visit root between within stopped)
    (hedges : ∀ k, ∀ e ∈ listed k, e ∈ edges) {k : K} {looked rest : List E}
    (hsplit : looked ++ rest = listed k) {search : Queued K σ}
    (h : Within listed next seen root within k looked search) :
    (∀ r, rest.foldlM (visit k) search = .error r → stopped r) ∧
      ∀ search', rest.foldlM (visit k) search = .ok search' →
        Within listed next seen root within k (listed k) search' ∧
          pending next seen edges search' ≤ pending next seen edges search := by
  induction rest generalizing looked search with
  | nil =>
    rw [List.append_nil] at hsplit
    subst hsplit
    refine ⟨fun r hr => (by cases hr), fun search' hsearch => ?_⟩
    obtain rfl := Except.ok.inj hsearch
    exact ⟨h, le_rfl⟩
  | cons e rest ih =>
    have hpart : looked ++ [e] <+: listed k := ⟨rest, by rw [List.append_assoc]; exact hsplit⟩
    have he : e ∈ listed k := hpart.subset (by simp)
    rw [List.foldlM_cons]
    cases hvisit : visit k search e with
    | error r =>
      refine ⟨fun r' hr => ?_, fun search' hsearch => (by cases hsearch)⟩
      obtain rfl := Except.error.inj hr
      obtain ⟨depth, queue, done, n, htraced, hturn, hwithin, hfresh, -⟩ := h
      exact rules.stop htraced hturn hwithin hfresh hpart hvisit
    | ok next' =>
      have hstep := rules.looks h hpart hvisit
      have hfewer := (rules.enters he hvisit).pending_le (hedges k e he)
      obtain ⟨hstops, hends⟩ := ih (by rw [List.append_assoc]; exact hsplit) hstep
      refine ⟨hstops, fun search' hsearch => ?_⟩
      obtain ⟨hwithin, hpending⟩ := hends search' hsearch
      exact ⟨hwithin, le_trans hpending hfewer⟩

/-- **The loop is a search.** A result that ends it is `stopped`, and when it comes to its end the
queue is empty. -/
theorem Rules.loop (rules : Rules listed next seen visit root between within stopped)
    (hedges : ∀ k, ∀ e ∈ listed k, e ∈ edges) {fuel : Nat} {search : Queued K σ}
    (h : Between listed next seen root between search)
    (hfuel : pending next seen edges search ≤ fuel) :
    (∀ r, loop listed visit fuel search = .error r → stopped r) ∧
      ∀ search', loop listed visit fuel search = .ok search' →
        search'.queue = [] ∧ Between listed next seen root between search' := by
  induction fuel generalizing search with
  | zero =>
    refine ⟨fun r hr => (by cases hr), fun search' hsearch => ?_⟩
    obtain rfl := Except.ok.inj hsearch
    have hqueue : search.queue.length = 0 := by
      unfold pending at hfuel
      omega
    exact ⟨List.length_eq_zero_iff.1 hqueue, h⟩
  | succ fuel ih =>
    cases hqueue : search.queue with
    | nil =>
      rw [loop_of_nil hqueue]
      refine ⟨fun r hr => (by cases hr), fun search' hsearch => ?_⟩
      obtain rfl := Except.ok.inj hsearch
      exact ⟨hqueue, h⟩
    | cons k rest =>
      rw [loop_of_cons hqueue]
      obtain ⟨depth, queue, done, htraced, hinv, hbetween⟩ := h
      have hpopped : Within listed next seen root within k [] { search with queue := rest } := by
        rcases queue with _ | ⟨⟨x, n⟩, queue⟩
        · have := htraced.queue_eq
          rw [hqueue] at this
          cases this
        · have hcons := htraced.queue_eq
          rw [hqueue] at hcons
          obtain ⟨rfl, hrest⟩ := List.cons.inj hcons
          have hnodup := htraced.nodup
          rw [hqueue, List.nodup_cons] at hnodup
          refine ⟨depth, queue, done, n, ⟨hrest, htraced.seen_iff, hnodup.2, fun y hy => ?_⟩, ?_,
            rules.pop hbetween, htraced.waits _ (hqueue ▸ List.mem_cons_self), hnodup.1⟩
          · exact htraced.waits y (hqueue ▸ List.mem_cons_of_mem _ hy)
          have hnone : (fun y : K => ∃ e ∈ ([] : List E), next e = y) = fun _ => False := by
            funext y
            simp
          rw [hnone]
          exact hinv.pop
      obtain ⟨hstops, hends⟩ := rules.visits hedges (List.nil_append _) hpopped
      cases hturn : (listed k).foldlM (visit k) { search with queue := rest } with
      | error r =>
        refine ⟨fun r' hr => ?_, fun search' hsearch => (by cases hsearch)⟩
        obtain rfl := Except.error.inj hr
        exact hstops r hturn
      | ok turned =>
        obtain ⟨⟨depth, queue, done, n, htraced, hturned, hwithin, -, hwaits⟩, hpending⟩ :=
          hends turned hturn
        have hfewer := pending_of_cons next seen edges hqueue
        rw [ok_bind]
        refine ih ⟨depth, queue, fun y => done y ∨ y = k, ⟨htraced.queue_eq, htraced.seen_iff,
          htraced.nodup, fun y hy => ?_⟩, hturned.finish fun _ y hy => hy, rules.finish hwithin⟩
          (by omega)
        refine not_or.2 ⟨htraced.waits y hy, ?_⟩
        rintro rfl
        exact hwaits hy

/-- At first the queue holds the root, which is the only node that is seen. -/
theorem Between.start {kept : σ} (hseen : ∀ k, seen kept k ↔ k = root)
    (h : between (enter (fun _ => none) root 0) (fun _ => False) kept) :
    Between listed next seen root between ⟨[root], kept⟩ := by
  refine ⟨_, [(root, 0)], _, ⟨rfl, fun k => ?_, List.nodup_singleton _, fun _ _ => id⟩, Inv.start ?_ ?_ ?_ fun _ => id, h⟩
  · rw [hseen]
    unfold enter
    split_ifs with hk <;> simp [hk]
  · intro e he
    obtain rfl := List.mem_singleton.1 he
    exact ⟨rfl, rfl⟩
  · rintro s rfl
    exact List.mem_singleton_self _
  · intro k n
    unfold enter
    split_ifs with hk
    · simp [hk, eq_comm]
    · simp [hk]

end Loop

/-! ### Links back -/

/-- Every node but the root is linked to a node that is one less deep. -/
structure Links {L : Type} (via : L → K → K → Prop) (root : K) (depth : K → Option Nat)
    (links : K → Option L) : Prop where
  start : depth root = some 0
  linked : ∀ k n, depth k = some n → (k = root ∧ n = 0) ∨
    ∃ l x m, n = m + 1 ∧ links k = some l ∧ via l x k ∧ depth x = some m
  found : ∀ k l, links k = some l → ∃ m, depth k = some (m + 1)

section Links

variable [DecidableEq K] {L : Type} {via : L → K → K → Prop} {root : K} {depth : K → Option Nat}
  {links links' : K → Option L}

theorem Links.init : Links via root (enter (fun _ => none) root 0) fun _ => none where
  start := if_pos rfl
  linked k n hk := by
    unfold enter at hk
    split_ifs at hk with hroot
    exact Or.inl ⟨hroot, (Option.some.inj hk).symm⟩
  found k l hl := by cases hl

/-- A new node is linked to the node that it is entered from. -/
theorem Links.enter (h : Links via root depth links) {x y : K} {l : L} {n : Nat}
    (hx : depth x = some n) (hy : depth y = none) (hvia : via l x y) (hnew : links' y = some l)
    (hold : ∀ k, k ≠ y → links' k = links k) :
    Links via root (enter depth y (n + 1)) links' := by
  have hkept {k : K} {m : Nat} (hk : depth k = some m) :
      Breadth.enter depth y (n + 1) k = some m := by
    unfold Breadth.enter
    rw [if_neg, hk]
    rintro rfl
    rw [hy] at hk
    cases hk
  refine ⟨hkept h.start, fun k m hk => ?_, fun k l' hl' => ?_⟩
  · unfold Breadth.enter at hk
    split_ifs at hk with hky
    · exact Or.inr ⟨l, x, n, (Option.some.inj hk).symm, hky ▸ hnew, hky ▸ hvia, hkept hx⟩
    · rcases h.linked k m hk with hroot | ⟨l', x', m', hm, hl', hvia', hx'⟩
      · exact Or.inl hroot
      · exact Or.inr ⟨l', x', m', hm, (hold k hky).trans hl', hvia', hkept hx'⟩
  · by_cases hky : k = y
    · exact ⟨n, by rw [Breadth.enter, if_pos hky]⟩
    · obtain ⟨m, hm⟩ := h.found k l' ((hold k hky).symm.trans hl')
      exact ⟨m, hkept hm⟩

end Links

end Breadth
