import Mathlib.Data.List.Chain
import Depgraph.Library.Components
import Depgraph.Query.Traverse

/-!
# Cycles

`cycles_from_parts`: for every strongly connected component of the nodes of a level a shortest cycle
through its first node. What finds the components is a parameter; `cyclesFromParts_exact` says what is
made of them.
-/

namespace Query

open Relation Search Breadth Connected Fallible SortDedup OrderedMap Std

inductive CycleLevel where
  | package
  | file
  | symbol
  | type
  | route
deriving DecidableEq

def CycleLevel.nodeKind : CycleLevel → String
  | .package => "package_instance"
  | .file => "file"
  | .symbol => "symbol"
  | .type => "type"
  | .route => "route"

structure CycleResult where
  level : String
  nodeIds : List String
deriving DecidableEq

/-! ### A representative cycle -/

section Representative

variable (start : String) (component : List String) (adjacency : ExtTreeMap String (List String))

/-- What the loops over the neighbours of a node do not skip. -/
def neighbours (nodeId : String) : List String :=
  (adjacency[nodeId]?.getD []).filter fun next => component.contains next

/-- The loop that follows the predecessors back, with the number of steps that it may still take. -/
def followBack (predecessor : ExtTreeMap String String) :
    Nat → String → List String → Option (List String)
  | 0, current, path => if current = start then some path else none
  | remaining + 1, current, path =>
    if current = start then some path
    else
      match predecessor[current]? with
      | none => none
      | some previous => followBack predecessor remaining previous (previous :: path)

/-- A turn of the loop over the neighbours of the start. A neighbour that is the start ends it. -/
def firstEdge (search : Queued String (ExtTreeMap String String)) (next : String) :
    Except (Option (List String)) (Queued String (ExtTreeMap String String)) :=
  if next = start then .error (some [start, start])
  else .ok ⟨search.queue ++ [next], search.kept.insert next start⟩

/-- A turn of the loop over the neighbours of another node. -/
def cycleEdge (nodeId : String) (search : Queued String (ExtTreeMap String String))
    (next : String) :
    Except (Option (List String)) (Queued String (ExtTreeMap String String)) :=
  if next = start then
    .error ((followBack start search.kept component.length nodeId [nodeId]).map (· ++ [start]))
  else if next ∈ search.kept then .ok search
  else .ok ⟨search.queue ++ [next], search.kept.insert next nodeId⟩

/-- `representative_cycle`. No node of the component is entered twice, so that the queue is empty
after as many turns as there are nodes. -/
def representativeCycle : Option (List String) :=
  match (neighbours component adjacency start).foldlM (firstEdge start) ⟨[], ∅⟩ >>=
      loop (neighbours component adjacency) (cycleEdge start component) component.length with
  | .error found => found
  | .ok _ => none

end Representative

/-! ### All cycles -/

/-- The targets under their sources. -/
def pushTarget (adjacency : ExtTreeMap String (List String)) (edge : String × String) :
    ExtTreeMap String (List String) :=
  adjacency.alter edge.1 fun targets => some (targets.getD [] ++ [edge.2])

/-- The targets under their sources, sorted and without repeats. -/
def cycleAdjacency (edges : List (String × String)) : ExtTreeMap String (List String) :=
  (edges.foldl pushTarget ∅).map fun _ targets => exact id targets

/-- The nodes of a level. -/
def allowedIds (nodes : List (String × String)) (level : CycleLevel) : List String :=
  exact id ((nodes.filter fun node => node.2 == level.nodeKind).map Prod.fst)

/-- The edges between nodes of a level. -/
def allowedEdges (nodes edges : List (String × String)) (level : CycleLevel) :
    List (String × String) :=
  edges.filter fun edge =>
    (allowedIds nodes level).contains edge.1 && (allowedIds nodes level).contains edge.2

/-- A component is skipped unless it has two nodes or a loop. -/
def isSkipped (adjacency : ExtTreeMap String (List String)) (ids : List String) : Bool :=
  let selfLoop := ids.length == 1 &&
    ids.head?.any fun first => adjacency[first]?.any fun targets => targets.contains first
  decide (ids.length < 2) && !selfLoop

/-- The entry of a component. -/
def componentCycle (level : CycleLevel) (adjacency : ExtTreeMap String (List String))
    (component : List String) : Option CycleResult :=
  let ids := sortByKey id component
  if isSkipped adjacency ids then none
  else ids.head?.map fun first => {
    level := level.nodeKind
    nodeIds := (representativeCycle first ids adjacency).getD (ids ++ [first]) }

def cyclesFromParts (tarjanScc : List String → List (String × String) → List (List String))
    (nodes edges : List (String × String)) (level : CycleLevel) : List CycleResult :=
  let inner := allowedEdges nodes edges level
  sortByKey CycleResult.nodeIds
    ((tarjanScc (allowedIds nodes level) inner).filterMap
      (componentCycle level (cycleAdjacency inner)))

/-! ### What is reported -/

/-- An edge between nodes of a level. -/
def Inner (nodes edges : List (String × String)) (level : CycleLevel) (x y : String) : Prop :=
  (x, y) ∈ edges ∧ (x, level.nodeKind) ∈ nodes ∧ (y, level.nodeKind) ∈ nodes

/-- The nodes of a simple cycle, of which none through its first node is shorter. -/
structure ShortestCycle (R : String → String → Prop) (start : String) (cycle : List String) :
    Prop where
  simple : ∃ inner, cycle = start :: inner ++ [start] ∧ (start :: inner).Nodup
  chain : cycle.IsChain R
  shortest : ∀ inner, (start :: inner ++ [start]).IsChain R → cycle.length ≤ inner.length + 2

/-- A component has two nodes, or a node with a loop. -/
def Cyclic (R : String → String → Prop) (component : Set String) : Prop :=
  (∃ x ∈ component, ∃ y ∈ component, x ≠ y) ∨ ∃ x ∈ component, R x x

/-- The entry reports a shortest cycle through the first node of the component. -/
def Reports (R : String → String → Prop) (level : CycleLevel) (component : Set String)
    (result : CycleResult) : Prop :=
  result.level = level.nodeKind ∧ ∃ start ∈ component, (∀ x ∈ component, start ≤ x) ∧
    ShortestCycle R start result.nodeIds

/-! ### The search for a cycle -/

section Search

variable {start : String} {component : List String} {adjacency : ExtTreeMap String (List String)}

theorem mem_neighbours {x y : String} : y ∈ neighbours component adjacency x ↔
    y ∈ adjacency[x]?.getD [] ∧ y ∈ component := by
  rw [neighbours, List.mem_filter, List.contains_iff_mem]

/-- The first node leads to the second, and it is its link. -/
def LinkedFrom (listed : String → List String) (previous x y : String) : Prop :=
  previous = x ∧ y ∈ listed x

/-- The links of the search. -/
abbrev CycleLinks (component : List String) (adjacency : ExtTreeMap String (List String))
    (start : String) (depth : String → Option Nat) (predecessor : ExtTreeMap String String) : Prop :=
  Links (LinkedFrom (neighbours component adjacency)) start depth (predecessor[·]?)

/-- What the search finds: the nodes of a simple cycle, and no walk back is shorter. -/
structure Closes (component : List String) (adjacency : ExtTreeMap String (List String))
    (start : String) (cycle : List String) : Prop where
  simple : ∃ inner, cycle = start :: inner ++ [start] ∧ (start :: inner).Nodup
  chain : cycle.IsChain fun x y => y ∈ neighbours component adjacency x
  shortest : ∀ n k, Walk (Leads (neighbours component adjacency) id) n start k →
    start ∈ neighbours component adjacency k → cycle.length ≤ n + 2

/-- A path back from a node: one node of every depth before it. -/
structure CameFrom (component : List String) (adjacency : ExtTreeMap String (List String))
    (start : String) (depth : String → Option Nat) (before : List String) (current : String) :
    Prop where
  head : (before ++ [current]).head? = some start
  chain : (before ++ [current]).IsChain fun x y => y ∈ neighbours component adjacency x
  depths : (before ++ [current]).map depth = (List.range (before.length + 1)).map some
  inside : ∀ y ∈ before ++ [current], y ∈ component

theorem CameFrom.nodup {depth : String → Option Nat} {before : List String} {current : String}
    (h : CameFrom component adjacency start depth before current) : (before ++ [current]).Nodup := by
  refine List.Nodup.of_map depth ?_
  rw [h.depths]
  exact List.nodup_range.map (Option.some_injective _)

/-- The path has no more nodes than the component. -/
theorem CameFrom.length_lt {depth : String → Option Nat} {before : List String} {current : String}
    (h : CameFrom component adjacency start depth before current) :
    before.length < component.length := by
  have := (h.nodup.subperm h.inside).length_le
  rw [List.length_append, List.length_singleton] at this
  omega

/-- **Following the predecessors back ends at the start.** -/
theorem followBack_eq (hstart : start ∈ component) {depth : String → Option Nat}
    {predecessor : ExtTreeMap String String}
    (hlinks : CycleLinks component adjacency start depth predecessor) {current : String} {n : Nat}
    (h : depth current = some n) :
    ∃ before, CameFrom component adjacency start depth before current ∧ before.length = n ∧
      ∀ remaining behind, followBack start predecessor remaining current behind =
        if n ≤ remaining then some (before ++ behind) else none := by
  induction n generalizing current with
  | zero =>
    rcases hlinks.linked current 0 h with ⟨rfl, -⟩ | ⟨previous, k, m, hm, -⟩
    · refine ⟨[], ⟨rfl, .singleton _, by simp [h], by simpa using hstart⟩, rfl,
        fun remaining behind => ?_⟩
      rw [if_pos (Nat.zero_le _)]
      cases remaining <;> exact if_pos rfl
    · omega
  | succ n ih =>
    rcases hlinks.linked current (n + 1) h with ⟨-, hzero⟩ | ⟨previous, k, m, hm, hlink, hvia, hk⟩
    · omega
    obtain rfl : n = m := Nat.succ.inj hm
    obtain ⟨rfl, hlisted⟩ := hvia
    obtain ⟨before, hcame, hlength, hpath⟩ := ih hk
    have hother : current ≠ start := by
      rintro rfl
      rw [hlinks.start] at h
      cases h
    refine ⟨before ++ [previous], ⟨?_, ?_, ?_, fun y hy => ?_⟩, ?_, fun remaining behind => ?_⟩
    · rw [List.head?_append, hcame.head]
      rfl
    · refine List.isChain_append.2 ⟨hcame.chain, .singleton _, fun x hx y hy => ?_⟩
      simp only [List.getLast?_append, List.getLast?_singleton, List.head?_cons, Option.mem_def,
        Option.some_or, Option.some.injEq] at hx hy
      subst hx hy
      exact hlisted
    · rw [List.map_append, hcame.depths, List.length_append, hlength]
      simp [List.range_succ, h]
    · rcases List.mem_append.1 hy with hy | hy
      · exact hcame.inside y hy
      · rw [List.mem_singleton.1 hy]
        exact (mem_neighbours.1 hlisted).2
    · rw [List.length_append, hlength, List.length_singleton]
    · cases remaining with
      | zero => rw [followBack, if_neg hother, if_neg (Nat.not_succ_le_zero n)]
      | succ remaining =>
        have hlink : predecessor[current]? = some previous := hlink
        rw [followBack, if_neg hother, hlink]
        simp only [hpath, Nat.add_le_add_iff_right, List.append_assoc, List.singleton_append]

theorem cycleEdge_cases {k next : String} {search : Queued String (ExtTreeMap String String)} :
    (next = start ∧ cycleEdge start component k search next =
      .error ((followBack start search.kept component.length k [k]).map (· ++ [start]))) ∨
    next ≠ start ∧
      ((next ∈ search.kept ∧ cycleEdge start component k search next = .ok search) ∨
        next ∉ search.kept ∧ cycleEdge start component k search next =
          .ok ⟨search.queue ++ [next], search.kept.insert next k⟩) := by
  unfold cycleEdge
  by_cases hback : next = start
  · exact Or.inl ⟨hback, if_pos hback⟩
  · rw [if_neg hback]
    by_cases hseen : next ∈ search.kept
    · exact Or.inr ⟨hback, Or.inl ⟨hseen, if_pos hseen⟩⟩
    · exact Or.inr ⟨hback, Or.inr ⟨hseen, if_neg hseen⟩⟩

/-- A node from which the start is reached in one step closes a cycle, and while no node that was
expanded before does, the cycle is shortest. -/
theorem closes_of_turn (hstart : start ∈ component) {depth : String → Option Nat}
    {queue : List (String × Nat)} {done looked : String → Prop} {k : String} {n : Nat}
    {predecessor : ExtTreeMap String String}
    (hlinks : CycleLinks component adjacency start depth predecessor)
    (hturn : Turn (Leads (neighbours component adjacency) id) (· = start) none depth queue done k n
      looked)
    (hnone : ∀ y, done y → start ∉ neighbours component adjacency y)
    (hback : start ∈ neighbours component adjacency k) :
    ∃ cycle, (followBack start predecessor component.length k [k]).map (· ++ [start]) = some cycle ∧
      Closes component adjacency start cycle := by
  obtain ⟨before, hcame, hlength, hpath⟩ := followBack_eq hstart hlinks hturn.here
  have hbound := hcame.length_lt
  refine ⟨before ++ [k] ++ [start], ?_, ?_, ?_, fun m y hwalk hy => ?_⟩
  · rw [hpath, if_pos (by omega)]
    rfl
  · obtain ⟨first, inner, hcons⟩ : ∃ first inner, before ++ [k] = first :: inner := by
      cases before <;> exact ⟨_, _, rfl⟩
    have hhead := hcame.head
    have hnodup := hcame.nodup
    rw [hcons] at hhead hnodup
    obtain rfl := Option.some.inj hhead
    exact ⟨inner, by rw [hcons], hnodup⟩
  · refine List.isChain_append.2 ⟨hcame.chain, .singleton _, fun x hx y hy => ?_⟩
    simp only [List.getLast?_append, List.getLast?_singleton, List.head?_cons, Option.mem_def,
      Option.some_or, Option.some.injEq] at hx hy
    subst hx hy
    exact hback
  · -- a node that is less deep has been expanded, and would have closed a cycle before
    simp only [List.length_append, List.length_singleton, hlength]
    by_contra hshorter
    obtain ⟨m', hm', hdepth⟩ := hturn.reached (fun l hl => absurd hl (by simp))
      ⟨start, rfl, hwalk⟩ (by omega)
    rcases hturn.covered y m' hdepth with hdone | hqueued | rfl
    · exact hnone y hdone hy
    · have := hturn.found.low _ hqueued
      dsimp only at this
      omega
    · have := Option.some.inj (hdepth.symm.trans hturn.here)
      omega

/-- The loops follow the rules of a search, and none of the nodes that they leave behind leads to the
start. -/
theorem cycle_rules (hstart : start ∈ component) : Rules (neighbours component adjacency) id
    (fun kept k => k = start ∨ k ∈ kept) (cycleEdge start component) start
    (fun depth done kept => CycleLinks component adjacency start depth kept ∧
      ∀ y, done y → start ∉ neighbours component adjacency y)
    (fun depth done _ looked kept => (CycleLinks component adjacency start depth kept ∧
      ∀ y, done y → start ∉ neighbours component adjacency y) ∧ start ∉ looked)
    (fun found => ∃ cycle, found = some cycle ∧ Closes component adjacency start cycle) where
  enters := by
    intro k next search search' _ hvisit
    rcases @cycleEdge_cases start component k next search with
      ⟨-, herror⟩ | ⟨hother, ⟨hseen, hok⟩ | ⟨hnew, hok⟩⟩
    · rw [herror] at hvisit
      cases hvisit
    · rw [hok] at hvisit
      obtain rfl := Except.ok.inj hvisit
      exact .known (Or.inr hseen) rfl fun _ => Iff.rfl
    · rw [hok] at hvisit
      obtain rfl := Except.ok.inj hvisit
      refine .new (not_or.2 ⟨hother, hnew⟩) rfl fun y => ?_
      rw [ExtTreeMap.mem_insert, Std.compare_eq_iff_eq, id, or_assoc, @or_comm (y ∈ search.kept),
        @eq_comm _ y next]
  pop h := ⟨h, by simp⟩
  known := by
    intro depth done k looked next search search' h _ _ hseen hvisit
    rcases @cycleEdge_cases start component k next search with
      ⟨-, herror⟩ | ⟨hother, ⟨-, hok⟩ | ⟨hnew, -⟩⟩
    · rw [herror] at hvisit
      cases hvisit
    · rw [hok] at hvisit
      obtain rfl := Except.ok.inj hvisit
      exact ⟨h.1, by simpa [h.2] using hother.symm⟩
    · exact absurd hseen (not_or.2 ⟨hother, hnew⟩)
  new := by
    intro depth done k looked next search search' n h _ hpart hk hnone hnew hvisit
    rcases @cycleEdge_cases start component k next search with
      ⟨-, herror⟩ | ⟨hother, ⟨hseen, -⟩ | ⟨-, hok⟩⟩
    · rw [herror] at hvisit
      cases hvisit
    · exact absurd (Or.inr hseen) hnew
    · rw [hok] at hvisit
      obtain rfl := Except.ok.inj hvisit
      refine ⟨⟨?_, h.1.2⟩, by simpa [h.2] using hother.symm⟩
      refine Links.enter h.1.1 hk hnone ⟨rfl, hpart.subset (by simp)⟩ ?_ fun y hy => ?_
      · exact OrderedMap.getElem?_insert.trans (if_pos rfl)
      · exact OrderedMap.getElem?_insert.trans (if_neg hy)
  finish := by
    rintro depth done k kept ⟨⟨hlinks, hnone⟩, hlooked⟩
    refine ⟨hlinks, fun y hy => ?_⟩
    rcases hy with hy | rfl
    · exact hnone y hy
    · exact hlooked
  stop := by
    intro depth queue done k n looked next search found _ hturn h _ hpart hvisit
    rcases @cycleEdge_cases start component k next search with
      ⟨rfl, herror⟩ | ⟨-, ⟨-, hok⟩ | ⟨-, hok⟩⟩
    · rw [herror] at hvisit
      obtain ⟨cycle, hcycle, hcloses⟩ :=
        closes_of_turn hstart h.1.1 hturn h.1.2 (hpart.subset (by simp))
      exact ⟨cycle, (Except.error.inj hvisit).symm.trans hcycle, hcloses⟩
    · rw [hok] at hvisit
      cases hvisit
    · rw [hok] at hvisit
      cases hvisit

/-- For the neighbours of the start it makes no difference which of the two loops looks at them. -/
theorem foldlM_firstEdge {nexts : List String} {search : Queued String (ExtTreeMap String String)}
    (hnodup : nexts.Nodup) (hnew : ∀ next ∈ nexts, next ∉ search.kept) :
    nexts.foldlM (firstEdge start) search =
      nexts.foldlM (cycleEdge start component start) search := by
  induction nexts generalizing search with
  | nil => rfl
  | cons next nexts ih =>
    obtain ⟨hfresh, hnodup⟩ := List.nodup_cons.1 hnodup
    rw [List.foldlM_cons, List.foldlM_cons]
    by_cases hback : next = start
    · have hpath : followBack start search.kept component.length start [start] = some [start] := by
        cases component.length <;> exact if_pos rfl
      rw [firstEdge, cycleEdge, if_pos hback, if_pos hback, hpath]
      rfl
    · rw [firstEdge, cycleEdge, if_neg hback, if_neg hback, if_neg (hnew next List.mem_cons_self)]
      refine ih hnodup fun other hother hseen => ?_
      rcases (ExtTreeMap.mem_insert.1 hseen) with hsame | hseen
      · rw [Std.compare_eq_iff_eq] at hsame
        exact hfresh (hsame ▸ hother)
      · exact hnew other (List.mem_cons_of_mem _ hother) hseen

/-- **If anything leads back to the start, a shortest cycle is found.** -/
theorem representativeCycle_closes (hstart : start ∈ component)
    (hnodup : (neighbours component adjacency start).Nodup)
    (hback : ∃ n k, Walk (Leads (neighbours component adjacency) id) n start k ∧
      start ∈ neighbours component adjacency k) :
    ∃ cycle, representativeCycle start component adjacency = some cycle ∧
      Closes component adjacency start cycle := by
  have hbegin : (neighbours component adjacency start).foldlM (firstEdge start) ⟨[], ∅⟩ >>=
      loop (neighbours component adjacency) (cycleEdge start component) component.length =
        loop (neighbours component adjacency) (cycleEdge start component) (component.length + 1)
          ⟨[start], ∅⟩ := by
    rw [foldlM_firstEdge hnodup fun _ _ => ExtTreeMap.not_mem_empty]
    rfl
  have hinit : Between (neighbours component adjacency) id
      (fun (kept : ExtTreeMap String String) k => k = start ∨ k ∈ kept) start
      (fun depth done kept => CycleLinks component adjacency start depth kept ∧
        ∀ y, done y → start ∉ neighbours component adjacency y) ⟨[start], ∅⟩ := by
    refine Between.start (fun k => or_iff_left ExtTreeMap.not_mem_empty) ⟨?_, fun _ => False.elim⟩
    unfold CycleLinks
    simp only [ExtTreeMap.getElem?_empty]
    exact Links.init
  obtain ⟨hstops, hends⟩ := (cycle_rules hstart).loop (fun _ _ hmem => (mem_neighbours.1 hmem).2)
    hinit (pending_start_le _ _ _ _ _)
  unfold representativeCycle
  rw [hbegin]
  cases hloop : loop (neighbours component adjacency) (cycleEdge start component)
      (component.length + 1) ⟨[start], ∅⟩ with
  | error found => exact hstops found hloop
  | ok search =>
    obtain ⟨hqueue, depth, queue, done, htraced, hinv, -, hnone⟩ := hends search hloop
    obtain rfl : queue = [] := by simpa [hqueue] using htraced.queue_eq
    obtain ⟨n, k, hwalk, hk⟩ := hback
    have hdone : done k :=
      hinv.done_iff.2 (hinv.found_iff.2 ⟨n, ⟨start, rfl, hwalk⟩, fun l hl => absurd hl (by simp)⟩)
    exact absurd hk (hnone k hdone)

end Search

/-! ### The entries -/

section Entries

variable {nodes edges : List (String × String)} {level : CycleLevel} {component : List String}
  {components : List (List String)}

theorem mem_allowedIds {x : String} :
    x ∈ allowedIds nodes level ↔ (x, level.nodeKind) ∈ nodes := by
  rw [allowedIds, mem_exact Function.injective_id, List.mem_map]
  simp only [List.mem_filter, beq_iff_eq]
  constructor
  · rintro ⟨node, ⟨hnode, hkind⟩, rfl⟩
    exact hkind ▸ hnode
  · intro hnode
    exact ⟨_, ⟨hnode, rfl⟩, rfl⟩

theorem allowedIds_nodup : (allowedIds nodes level).Nodup :=
  (exact_strict _).imp fun hlt => hlt.ne

theorem mem_allowedEdges {x y : String} :
    (x, y) ∈ allowedEdges nodes edges level ↔ Inner nodes edges level x y := by
  rw [allowedEdges, List.mem_filter, Bool.and_eq_true_iff, List.contains_iff_mem,
    List.contains_iff_mem, mem_allowedIds, mem_allowedIds, Inner]

theorem getElem?_foldl_pushTarget {base : ExtTreeMap String (List String)} {x y : String} :
    y ∈ (edges.foldl pushTarget base)[x]?.getD [] ↔ y ∈ base[x]?.getD [] ∨ (x, y) ∈ edges := by
  induction edges generalizing base with
  | nil => simp
  | cons edge edges ih =>
    rw [List.foldl_cons, ih, pushTarget, ExtTreeMap.getElem?_alter, List.mem_cons]
    obtain ⟨source, target⟩ := edge
    by_cases hsource : source = x
    · subst hsource
      simp [or_assoc]
    · simp [hsource, Ne.symm hsource]

theorem mem_cycleAdjacency {x y : String} :
    y ∈ (cycleAdjacency edges)[x]?.getD [] ↔ (x, y) ∈ edges := by
  have htargets := @getElem?_foldl_pushTarget edges ∅ x y
  rw [ExtTreeMap.getElem?_empty, Option.getD_none, or_iff_right List.not_mem_nil] at htargets
  rw [cycleAdjacency, ExtTreeMap.getElem?_map, ← htargets]
  cases (edges.foldl pushTarget ∅)[x]? with
  | none => rfl
  | some targets => exact mem_exact Function.injective_id

theorem cycleAdjacency_nodup {x : String} : ((cycleAdjacency edges)[x]?.getD []).Nodup := by
  rw [cycleAdjacency, ExtTreeMap.getElem?_map]
  cases (edges.foldl pushTarget ∅)[x]? with
  | none => exact List.nodup_nil
  | some targets => exact (exact_strict _).imp fun hlt => hlt.ne

theorem neighbours_inner {ids : List String} {x y : String} :
    y ∈ neighbours ids (cycleAdjacency (allowedEdges nodes edges level)) x ↔
      Inner nodes edges level x y ∧ y ∈ ids := by
  rw [mem_neighbours, mem_cycleAdjacency, mem_allowedEdges]

/-- A component is skipped exactly if it is not cyclic. -/
theorem isSkipped_iff {ids : List String} (hids : ids ≠ []) (hnodup : ids.Nodup) :
    isSkipped (cycleAdjacency (allowedEdges nodes edges level)) ids = false ↔
      Cyclic (Inner nodes edges level) {x | x ∈ ids} := by
  have hloop (x : String) : ((cycleAdjacency (allowedEdges nodes edges level))[x]?.any fun targets =>
      targets.contains x) = true ↔ Inner nodes edges level x x := by
    rw [← mem_allowedEdges, ← mem_cycleAdjacency]
    cases (cycleAdjacency (allowedEdges nodes edges level))[x]? with
    | none => simp
    | some targets => simp
  rcases ids with _ | ⟨first, _ | ⟨second, rest⟩⟩
  · exact absurd rfl hids
  · have hself : isSkipped (cycleAdjacency (allowedEdges nodes edges level)) [first] = false ↔
        Inner nodes edges level first first := by
      rw [← hloop]
      simp [isSkipped]
    rw [hself]
    constructor
    · exact fun h => Or.inr ⟨first, List.mem_singleton_self first, h⟩
    · rintro (⟨x, hx, y, hy, hne⟩ | ⟨x, hx, h⟩)
      · exact absurd ((List.mem_singleton.1 hx).trans (List.mem_singleton.1 hy).symm) hne
      · rwa [List.mem_singleton.1 hx] at h
  · refine iff_of_true (by simp [isSkipped]) (Or.inl ⟨first, ?_, second, ?_, ?_⟩)
    · exact List.mem_cons_self
    · exact List.mem_cons_of_mem _ List.mem_cons_self
    · rintro rfl
      exact (List.nodup_cons.1 hnodup).1 List.mem_cons_self

/-- In a cyclic component something leads from each node back to it. -/
theorem Cyclic.leads_back (hcyclic : Cyclic (Inner nodes edges level) {x | x ∈ component})
    (h : Components (Inner nodes edges level) (allowedIds nodes level) components)
    (hmem : component ∈ components) {x : String} (hx : x ∈ component) :
    ∃ k, ReflTransGen (Inner nodes edges level) x k ∧ Inner nodes edges level k x := by
  have hother (y : String) (hy : y ∈ component) (hne : y ≠ x) :
      ∃ k, ReflTransGen (Inner nodes edges level) x k ∧ Inner nodes edges level k x := by
    have hmutual := (h.mem_iff _ hmem x hx y (h.subset hmem hy)).1 hy
    rcases hmutual.2.cases_tail with hsame | ⟨k, hyk, hkx⟩
    · exact absurd hsame.symm hne
    · exact ⟨k, hmutual.1.trans hyk, hkx⟩
  rcases hcyclic with ⟨a, ha, b, hb, hab⟩ | ⟨a, ha, haa⟩
  · by_cases hax : a = x
    · exact hother b hb fun hbx => hab (hax.trans hbx.symm)
    · exact hother a ha hax
  · by_cases hax : a = x
    · exact ⟨x, .refl, hax ▸ haa⟩
    · exact hother a ha hax

/-- **A cyclic component has a representative cycle, and it is a shortest one.** -/
theorem representativeCycle_shortest
    (h : Components (Inner nodes edges level) (allowedIds nodes level) components)
    (hmem : component ∈ components) {ids : List String} (hids : ∀ x, x ∈ ids ↔ x ∈ component)
    {start : String} (hstart : start ∈ component)
    (hcyclic : Cyclic (Inner nodes edges level) {x | x ∈ component}) :
    ∃ cycle, representativeCycle start ids (cycleAdjacency (allowedEdges nodes edges level)) =
      some cycle ∧ ShortestCycle (Inner nodes edges level) start cycle := by
  have hleads : Leads (neighbours ids (cycleAdjacency (allowedEdges nodes edges level))) id =
      fun x y => Inner nodes edges level x y ∧ y ∈ ids := by
    funext x y
    refine propext ⟨?_, fun hxy => ⟨y, neighbours_inner.2 hxy, rfl⟩⟩
    rintro ⟨y, hy, rfl⟩
    exact neighbours_inner.1 hy
  -- what leads from the start back to it stays in the component
  have hinside (z : String) (hz : ReflTransGen (Inner nodes edges level) start z)
      (hback : ReflTransGen (Inner nodes edges level) z start) : z ∈ ids :=
    (hids z).2 (h.mem_of_mutual (fun _ y hxy => mem_allowedIds.2 hxy.2.2) hmem hstart hz hback)
  obtain ⟨k, hk, hlast⟩ := hcyclic.leads_back h hmem hstart
  obtain ⟨n, hwalk⟩ := Walk.of_reaches hk (.single hlast) hinside
  obtain ⟨cycle, hcycle, hcloses⟩ := representativeCycle_closes ((hids start).2 hstart)
    (cycleAdjacency_nodup.filter _)
    ⟨n, k, hleads ▸ hwalk, neighbours_inner.2 ⟨hlast, (hids start).2 hstart⟩⟩
  refine ⟨cycle, hcycle, hcloses.simple, ?_, fun inner hinner => ?_⟩
  · exact hcloses.chain.imp fun _ _ hxy => (neighbours_inner.1 hxy).1
  · obtain ⟨k, hwalk, hlast⟩ := Walk.of_closed hinner hinside
    exact hcloses.shortest _ k (hleads ▸ hwalk)
      (neighbours_inner.2 ⟨hlast, (hids start).2 hstart⟩)

/-- The entry of a component, if it has one, reports a shortest cycle. -/
theorem componentCycle_reports
    (h : Components (Inner nodes edges level) (allowedIds nodes level) components)
    (hmem : component ∈ components) :
    (¬ Cyclic (Inner nodes edges level) {x | x ∈ component} ∧
      componentCycle level (cycleAdjacency (allowedEdges nodes edges level)) component = none) ∨
    Cyclic (Inner nodes edges level) {x | x ∈ component} ∧ ∃ result,
      componentCycle level (cycleAdjacency (allowedEdges nodes edges level)) component = some result ∧
        Reports (Inner nodes edges level) level {x | x ∈ component} result := by
  have hids (x : String) : x ∈ sortByKey id component ↔ x ∈ component := mem_sortByKey id
  have hset : {x | x ∈ sortByKey id component} = {x | x ∈ component} := Set.ext hids
  have hnodup : (sortByKey id component).Nodup := by
    have hflat := h.perm.nodup_iff.2 allowedIds_nodup
    exact (sortByKey_perm id component).nodup_iff.2 ((List.nodup_flatten.1 hflat).1 _ hmem)
  have hne : sortByKey id component ≠ [] := by
    obtain ⟨x, hx⟩ := List.exists_mem_of_ne_nil _ (h.nonempty _ hmem)
    exact List.ne_nil_of_mem ((hids x).2 hx)
  have hskipped := @isSkipped_iff nodes edges level _ hne hnodup
  rw [hset] at hskipped
  unfold componentCycle
  dsimp only
  cases hskip : isSkipped (cycleAdjacency (allowedEdges nodes edges level)) (sortByKey id component)
    with
  | true => exact Or.inl ⟨fun hcyclic => (by simp [hskipped.2 hcyclic] at hskip), if_pos rfl⟩
  | false =>
    have hcyclic := hskipped.1 hskip
    obtain ⟨first, rest, hcons⟩ := List.exists_cons_of_ne_nil hne
    have hfirst : first ∈ component := (hids first).1 (hcons ▸ List.mem_cons_self)
    obtain ⟨cycle, hcycle, hshortest⟩ := representativeCycle_shortest h hmem hids hfirst hcyclic
    refine Or.inr ⟨hcyclic, ⟨level.nodeKind, cycle⟩, ?_, rfl, first, hfirst, fun x hx => ?_, hshortest⟩
    · rw [if_neg (by simp), hcons, List.head?_cons, Option.map_some, ← hcons, hcycle]
      rfl
    · have hsorted := sortByKey_sorted id component
      rw [hcons, List.pairwise_cons] at hsorted
      rcases List.mem_cons.1 (hcons ▸ (hids x).2 hx) with rfl | hx
      · exact le_rfl
      · exact hsorted.1 x hx

theorem forall₂_filterMap {α β : Type} {f : α → Option β} {p : α → Bool} {r : α → β → Prop}
    {l : List α} (h : ∀ a ∈ l, (p a = false ∧ f a = none) ∨ p a = true ∧ ∃ b, f a = some b ∧ r a b) :
    List.Forall₂ r (l.filter p) (l.filterMap f) := by
  induction l with
  | nil => exact .nil
  | cons a l ih =>
    have hrest := ih fun b hb => h b (List.mem_cons_of_mem _ hb)
    rcases h a List.mem_cons_self with ⟨hp, hf⟩ | ⟨hp, b, hf, hr⟩
    · rw [List.filter_cons_of_neg (by simp [hp]), List.filterMap_cons_none hf]
      exact hrest
    · rw [List.filter_cons_of_pos hp, List.filterMap_cons_some hf]
      exact .cons hr hrest

end Entries

/-- **Exactly the cyclic components of a level are reported, each by one shortest cycle through its
first node**, and no component is reported by its sorted nodes for want of a cycle. -/
theorem cyclesFromParts_exact
    (tarjanScc : List String → List (String × String) → List (List String))
    (nodes edges : List (String × String)) (level : CycleLevel)
    (htarjan : Components (fun x y => (x, y) ∈ allowedEdges nodes edges level)
      (allowedIds nodes level) (tarjanScc (allowedIds nodes level) (allowedEdges nodes edges level))) :
    (∃ components : List (Set String), components.Nodup ∧
      (∀ C, C ∈ components ↔ IsComponent (Inner nodes edges level)
        (fun x => (x, level.nodeKind) ∈ nodes) C ∧ Cyclic (Inner nodes edges level) C) ∧
      List.Forall₂ (Reports (Inner nodes edges level) level) components
        (cyclesFromParts tarjanScc nodes edges level)) ∧
    ∀ component ∈ tarjanScc (allowedIds nodes level) (allowedEdges nodes edges level),
      ∀ first rest, sortByKey id component = first :: rest →
        isSkipped (cycleAdjacency (allowedEdges nodes edges level)) (first :: rest) = false →
        (representativeCycle first (first :: rest)
          (cycleAdjacency (allowedEdges nodes edges level))).isSome = true := by
  classical
  have hrelation : (fun x y => (x, y) ∈ allowedEdges nodes edges level) =
      Inner nodes edges level := by
    funext x y
    exact propext mem_allowedEdges
  rw [hrelation] at htarjan
  have hnode : (fun x => (x, level.nodeKind) ∈ nodes) = (· ∈ allowedIds nodes level) := by
    funext x
    exact propext mem_allowedIds.symm
  rw [hnode]
  refine ⟨?_, fun component hmem first rest hcons hskip => ?_⟩
  · have hentries := forall₂_filterMap
      (p := fun component => decide (Cyclic (Inner nodes edges level) {x | x ∈ component}))
      (r := fun component => Reports (Inner nodes edges level) level {x | x ∈ component})
      fun component hmem => by
        simpa only [decide_eq_false_iff_not, decide_eq_true_eq] using
          componentCycle_reports htarjan hmem
    obtain ⟨listed, hlisted, hperm⟩ :=
      List.perm_comp_forall₂ (sortByKey_perm CycleResult.nodeIds _) hentries.flip
    refine ⟨listed.map fun component => {x | x ∈ component}, ?_, fun C => ?_, ?_⟩
    · refine (hperm.map _).nodup_iff.2 ?_
      exact (htarjan.nodup allowedIds_nodup).sublist (List.filter_sublist.map _)
    · rw [(hperm.map _).mem_iff, List.mem_map]
      simp only [List.mem_filter, decide_eq_true_eq]
      constructor
      · rintro ⟨component, ⟨hmem, hcyclic⟩, rfl⟩
        exact ⟨htarjan.isComponent hmem, hcyclic⟩
      · rintro ⟨hcomponent, hcyclic⟩
        obtain ⟨component, hmem, rfl⟩ := htarjan.exists_component hcomponent
        exact ⟨component, ⟨hmem, hcyclic⟩, rfl⟩
    · exact List.forall₂_map_left_iff.2 hlisted.flip
  · have hids (x : String) : x ∈ first :: rest ↔ x ∈ component := by
      rw [← hcons, mem_sortByKey]
    have hset : {x | x ∈ first :: rest} = {x | x ∈ component} := Set.ext hids
    have hnodup : (first :: rest).Nodup := by
      rw [← hcons]
      have hflat := htarjan.perm.nodup_iff.2 allowedIds_nodup
      exact (sortByKey_perm id component).nodup_iff.2 ((List.nodup_flatten.1 hflat).1 _ hmem)
    have hcyclic := (isSkipped_iff (List.cons_ne_nil _ _) hnodup).1 hskip
    rw [hset] at hcyclic
    obtain ⟨cycle, hcycle, -⟩ := representativeCycle_shortest htarjan hmem hids
      ((hids first).1 List.mem_cons_self) hcyclic
    rw [hcycle]
    rfl

namespace CycleSample

def nodes : List (String × String) := [("b", "file"), ("a", "file"), ("p", "package_instance")]

/-- Two files that import each other. -/
def edges : List (String × String) := [("a", "b"), ("b", "a"), ("a", "p")]

/-- What finds the component of the two files. -/
def tarjanScc (_nodes : List String) (_edges : List (String × String)) : List (List String) :=
  [["b", "a"]]

theorem cycles_eq : allowedIds nodes .file = ["a", "b"] ∧
    allowedEdges nodes edges .file = [("a", "b"), ("b", "a")] ∧
    cyclesFromParts tarjanScc nodes edges .file = [⟨"file", ["a", "b", "a"]⟩] := by
  decide +kernel

/-- The two files are a component. -/
theorem components : Components (fun x y => (x, y) ∈ allowedEdges nodes edges .file)
    (allowedIds nodes .file) (tarjanScc (allowedIds nodes .file) (allowedEdges nodes edges .file)) := by
  rw [cycles_eq.1, cycles_eq.2.1]
  refine ⟨fun component hmem => ?_, ?_, fun component hmem x hx y hy => ?_⟩
  · rw [List.mem_singleton.1 hmem]
    exact List.cons_ne_nil _ _
  · exact .swap "a" "b" []
  · obtain rfl := List.mem_singleton.1 hmem
    have hpair : Mutual (fun x y => (x, y) ∈ [("a", "b"), ("b", "a")]) "a" "b" :=
      ⟨.single List.mem_cons_self, .single (List.mem_cons_of_mem _ List.mem_cons_self)⟩
    refine iff_of_true ((List.Perm.swap "b" "a" []).subset hy) ?_
    rcases List.mem_pair.1 hx with rfl | rfl <;> rcases List.mem_pair.1 hy with rfl | rfl
    · exact hpair.symm
    · exact .refl _
    · exact .refl _
    · exact hpair

end CycleSample

open CycleSample in
theorem cyclesFromParts_exact_pair : ∃ components : List (Set String),
    (∀ C, C ∈ components ↔ IsComponent (Inner nodes edges .file)
      (fun x => (x, "file") ∈ nodes) C ∧ Cyclic (Inner nodes edges .file) C) ∧
    List.Forall₂ (Reports (Inner nodes edges .file) .file) components
      [⟨"file", ["a", "b", "a"]⟩] := by
  obtain ⟨⟨found, -, hfound, hreports⟩, -⟩ :=
    cyclesFromParts_exact tarjanScc nodes edges .file CycleSample.components
  rw [cycles_eq.2.2] at hreports
  exact ⟨found, hfound, hreports⟩

end Query
