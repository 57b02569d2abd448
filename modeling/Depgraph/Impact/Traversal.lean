import Depgraph.Impact.Adjacency
import Depgraph.Library.Search

/-!
# The reverse traversal

`TraversalBudget` and `reverse_path_index_from_seeds`: the search for the nodes that lead to the
seeds, under a limit on the nodes and a limit on the edges.

* `TraversalBudget.Kept`: the budget holds visited nodes and edges only, no more than the limits
  allow, and is incomplete only if a limit refused something;
* `searchLoop_kept`: a search that no limit has stopped has found exactly what can be reached.
-/

namespace Impact

open Json Protocol Store OrderedMap Std

/-! ### The budget -/

structure TraversalBudget where
  nodeIds : ExtTreeSet String
  edgeIds : ExtTreeSet String
  complete : Bool
  diagnostics : ExtTreeMap String ImpactDiagnostic

def TraversalBudget.unseeded : TraversalBudget := ⟨∅, ∅, true, ∅⟩

def TraversalBudget.limit (budget : TraversalBudget) (code message : String) : TraversalBudget :=
  { budget with
    complete := false
    diagnostics := budget.diagnostics.insertIfNew code ⟨code, message⟩ }

/-- The message about a limit. -/
def limitMessage (items : String) (count limit : Nat) : String :=
  "impact traversal stopped after " ++ toString count ++ " unique " ++ items ++ " (limit " ++
    toString limit ++ ")"

def TraversalBudget.admitEdge (filters : ImpactFilters) (budget : TraversalBudget)
    (edge : EdgeRecord) : Bool × TraversalBudget :=
  if edge.id ∈ budget.edgeIds then (true, budget)
  else if filters.maxEdges ≤ budget.edgeIds.size then
    (false, budget.limit "impact_edge_limit_reached"
      (limitMessage "edges" budget.edgeIds.size filters.maxEdges))
  else (true, { budget with edgeIds := budget.edgeIds.insert edge.id })

def TraversalBudget.admitNode (filters : ImpactFilters) (budget : TraversalBudget)
    (nodeId : String) : Bool × TraversalBudget :=
  if nodeId ∈ budget.nodeIds then (true, budget)
  else if filters.maxNodes ≤ budget.nodeIds.size then
    (false, budget.limit "impact_node_limit_reached"
      (limitMessage "nodes" budget.nodeIds.size filters.maxNodes))
  else (true, { budget with nodeIds := budget.nodeIds.insert nodeId })

/-- A limit has refused something: as many are admitted as it allows, and one that is visited is
not among them. -/
def Refuses (limit : Nat) (visited : String → Prop) (admitted : ExtTreeSet String) : Prop :=
  limit ≤ admitted.size ∧ ∃ id, visited id ∧ id ∉ admitted

/-- What holds of the budget of a traversal that visits these nodes and edges. -/
structure TraversalBudget.Kept (filters : ImpactFilters) (visitsNode visitsEdge : String → Prop)
    (budget : TraversalBudget) : Prop where
  nodes : ∀ id ∈ budget.nodeIds, visitsNode id
  edges : ∀ id ∈ budget.edgeIds, visitsEdge id
  nodeCount : budget.nodeIds.size ≤ filters.maxNodes
  edgeCount : budget.edgeIds.size ≤ filters.maxEdges
  refused : budget.complete = false → Refuses filters.maxNodes visitsNode budget.nodeIds ∨
    Refuses filters.maxEdges visitsEdge budget.edgeIds

section Admission

variable {filters : ImpactFilters} {visitsNode visitsEdge : String → Prop} {budget : TraversalBudget}

theorem TraversalBudget.kept_unseeded : TraversalBudget.unseeded.Kept filters visitsNode visitsEdge where
  nodes id h := absurd h ExtTreeSet.not_mem_empty
  edges id h := absurd h ExtTreeSet.not_mem_empty
  nodeCount := by simp [unseeded]
  edgeCount := by simp [unseeded]
  refused h := by cases h

/-- One more is admitted while there is room. -/
theorem size_insert_le_limit {ids : ExtTreeSet String} {id : String} {limit : Nat}
    (h : ¬ limit ≤ ids.size) : (ids.insert id).size ≤ limit :=
  Nat.le_trans ExtTreeSet.size_insert_le (by omega)

/-- What the two ways of admission have in common. -/
inductive Admission (id : String) (budget : TraversalBudget)
    (ids : TraversalBudget → ExtTreeSet String) : Bool × TraversalBudget → Prop
  | known : id ∈ ids budget → Admission id budget ids (true, budget)
  | refused {budget'} : budget'.complete = false → Admission id budget ids (false, budget')
  | admitted {budget'} : ids budget' = (ids budget).insert id →
      budget'.complete = budget.complete → Admission id budget ids (true, budget')

theorem TraversalBudget.admitNode_admission (filters : ImpactFilters) (budget : TraversalBudget)
    (nodeId : String) :
    Admission nodeId budget TraversalBudget.nodeIds (budget.admitNode filters nodeId) := by
  unfold admitNode
  split_ifs with hknown hlimit
  · exact .known hknown
  · exact .refused rfl
  · exact .admitted rfl rfl

theorem TraversalBudget.admitEdge_admission (filters : ImpactFilters) (budget : TraversalBudget)
    (edge : EdgeRecord) :
    Admission edge.id budget TraversalBudget.edgeIds (budget.admitEdge filters edge) := by
  unfold admitEdge
  split_ifs with hknown hlimit
  · exact .known hknown
  · exact .refused rfl
  · exact .admitted rfl rfl

/-- After an admission that is not refused the item is admitted and nothing is lost. -/
theorem Admission.admitted_of_true {id : String} {ids : TraversalBudget → ExtTreeSet String}
    {result : Bool × TraversalBudget} (h : Admission id budget ids result)
    (htrue : result.1 = true) :
    id ∈ ids result.2 ∧ (∀ other ∈ ids budget, other ∈ ids result.2) ∧
      result.2.complete = budget.complete := by
  cases h with
  | known hknown => exact ⟨hknown, fun _ h => h, rfl⟩
  | refused => cases htrue
  | admitted hids hcomplete =>
    refine ⟨?_, fun other hother => ?_, hcomplete⟩
    · rw [hids]
      exact mem_insert.2 (Or.inl rfl)
    · rw [hids]
      exact mem_insert.2 (Or.inr hother)

theorem Admission.incomplete_of_false {id : String} {ids : TraversalBudget → ExtTreeSet String}
    {result : Bool × TraversalBudget} (h : Admission id budget ids result)
    (hfalse : result.1 = false) : result.2.complete = false := by
  cases h with
  | known => cases hfalse
  | refused hcomplete => exact hcomplete
  | admitted => cases hfalse

/-- What was admitted stays admitted. -/
theorem TraversalBudget.mem_admitNode {id nodeId : String} (h : id ∈ budget.nodeIds) :
    id ∈ (budget.admitNode filters nodeId).2.nodeIds := by
  unfold TraversalBudget.admitNode
  split_ifs
  · exact h
  · exact h
  · exact mem_insert.2 (Or.inr h)

theorem TraversalBudget.Kept.admitNode (h : budget.Kept filters visitsNode visitsEdge) {nodeId : String}
    (hvisited : visitsNode nodeId) : (budget.admitNode filters nodeId).2.Kept filters visitsNode visitsEdge := by
  unfold TraversalBudget.admitNode
  split_ifs with hknown hlimit
  · exact h
  · exact { h with refused := fun _ => Or.inl ⟨hlimit, nodeId, hvisited, hknown⟩ }
  · refine { h with nodes := fun id hid => ?_, nodeCount := size_insert_le_limit hlimit,
                    refused := fun hcomplete => ?_ }
    · rcases mem_insert.1 hid with rfl | hid
      · exact hvisited
      · exact h.nodes id hid
    · exact (h.refused hcomplete).imp_left fun hrefused => absurd hrefused.1 hlimit

theorem TraversalBudget.Kept.admitEdge (h : budget.Kept filters visitsNode visitsEdge) {edge : EdgeRecord}
    (hvisited : visitsEdge edge.id) : (budget.admitEdge filters edge).2.Kept filters visitsNode visitsEdge := by
  unfold TraversalBudget.admitEdge
  split_ifs with hknown hlimit
  · exact h
  · exact { h with refused := fun _ => Or.inr ⟨hlimit, edge.id, hvisited, hknown⟩ }
  · refine { h with edges := fun id hid => ?_, edgeCount := size_insert_le_limit hlimit,
                    refused := fun hcomplete => ?_ }
    · rcases mem_insert.1 hid with rfl | hid
      · exact hvisited
      · exact h.edges id hid
    · exact (h.refused hcomplete).imp_right fun hrefused => absurd hrefused.1 hlimit

end Admission

/-! ### The search -/

structure ReversePathIndex where
  successor : ExtTreeMap String String
  depths : ExtTreeMap String Nat

/-- The state of the search. -/
structure PathSearch where
  queue : List (String × Nat)
  seen : ExtTreeSet String
  paths : ReversePathIndex
  budget : TraversalBudget

/-- Enters a seed. -/
def seedPath (search : PathSearch) (seed : String) : PathSearch :=
  if seed ∈ search.seen then search
  else { search with
    queue := search.queue ++ [(seed, 0)]
    seen := search.seen.insert seed
    paths.depths := search.paths.depths.insert seed 0 }

/-- Enters the source of an edge at a depth. -/
def enterSource (edge : EdgeRecord) (depth : Nat) (search : PathSearch) : PathSearch :=
  { search with
    queue := search.queue ++ [(edge.source, depth)]
    seen := search.seen.insert edge.source
    paths.successor := search.paths.successor.insert edge.source edge.id
    paths.depths := search.paths.depths.insert edge.source depth }

/-- A turn of the loop over the edges of a node; an error stops the search. -/
def visitEdge (filters : ImpactFilters) (depth : Nat) (search : PathSearch) (edge : EdgeRecord) :
    Except PathSearch PathSearch :=
  let (admitted, budget) := search.budget.admitEdge filters edge
  if !admitted then .error { search with budget }
  else if edge.source ∈ search.seen then .ok { search with budget }
  else
    let (admitted, budget) := budget.admitNode filters edge.source
    if !admitted then .error { search with budget }
    else .ok (enterSource edge (depth + 1) { search with budget })

/-- The nodes of this depth are not expanded. -/
def atLimit (filters : ImpactFilters) (depth : Nat) : Bool :=
  filters.depth.any fun limit => limit ≤ depth

/-- The loop over the queue. -/
def searchLoop (adjacency : Adjacency) (filters : ImpactFilters) : Nat → PathSearch → PathSearch
  | 0, search => search
  | fuel + 1, search =>
    match search.queue with
    | [] => search
    | (nodeId, depth) :: queue =>
      if atLimit filters depth then searchLoop adjacency filters fuel { search with queue }
      else
        match (adjacency.of nodeId).foldlM (visitEdge filters depth) { search with queue } with
        | .error stopped => stopped
        | .ok search => searchLoop adjacency filters fuel search

/-- All edges that are listed. -/
def Adjacency.edges (adjacency : Adjacency) : List EdgeRecord := (values adjacency).flatten

/-- `reverse_path_index_from_seeds`. A turn of the loop takes a node from the queue, and a node is
entered as a seed or as the source of an edge. -/
def reversePathIndexFromSeeds (seeds : List String) (adjacency : Adjacency)
    (filters : ImpactFilters) (budget : TraversalBudget) : ReversePathIndex × TraversalBudget :=
  let search := searchLoop adjacency filters (seeds.length + adjacency.edges.length)
    (seeds.foldl seedPath ⟨[], ∅, ⟨∅, ∅⟩, budget⟩)
  (search.paths, search.budget)

/-! ### What the search keeps -/

/-- The edges that are still to enter a node, and the nodes in the queue. -/
def pending (adjacency : Adjacency) (queue : List (String × Nat)) (seen : ExtTreeSet String) : Nat :=
  queue.length + adjacency.edges.countP fun edge => edge.source ∉ seen

/-- An edge leads from one node to another in the reverse direction. -/
def Adjacency.Leads (adjacency : Adjacency) (k y : String) : Prop :=
  ∃ edge ∈ adjacency.of k, edge.source = y

/-- The node can be reached within the depth. -/
def Adjacency.InScope (adjacency : Adjacency) (filters : ImpactFilters) (seeds : String → Prop)
    (k : String) : Prop :=
  ∃ n, Search.Reached adjacency.Leads seeds n k ∧ Search.Within filters.depth n

/-- The edge leads on from a node that is expanded. -/
def Adjacency.EdgeInScope (adjacency : Adjacency) (filters : ImpactFilters)
    (seeds : String → Prop) (edgeId : String) : Prop :=
  ∃ k n, Search.Reached adjacency.Leads seeds n k ∧ Search.Expands filters.depth n ∧
    ∃ edge ∈ adjacency.of k, edge.id = edgeId

/-- A node of depth 0 is a seed; any other was entered through an edge from a node one less deep. -/
def ReversePathIndex.Linked (adjacency : Adjacency) (seeds : String → Prop)
    (paths : ReversePathIndex) (k : String) : Nat → Prop
  | 0 => seeds k ∧ paths.successor[k]? = none
  | d + 1 => ∃ x, paths.depths[x]? = some d ∧ ∃ edge ∈ adjacency.of x,
      edge.source = k ∧ paths.successor[k]? = some edge.id

theorem Adjacency.mem_edges {adjacency : Adjacency} {k : String} {edge : EdgeRecord}
    (h : edge ∈ adjacency.of k) : edge ∈ adjacency.edges := by
  unfold Adjacency.of at h
  cases hk : adjacency[k]? with
  | none => simp [hk] at h
  | some listed =>
    rw [hk] at h
    exact List.mem_flatten.2 ⟨listed, mem_values.2 ⟨k, hk⟩, h⟩

theorem pending_cons {adjacency : Adjacency} {entry : String × Nat} {queue : List (String × Nat)}
    {seen : ExtTreeSet String} :
    pending adjacency (entry :: queue) seen = pending adjacency queue seen + 1 := by
  rw [pending, pending, List.length_cons, Nat.add_right_comm]

/-- Entering a node through an edge uses this edge up. -/
theorem pending_enter {adjacency : Adjacency} {queue : List (String × Nat)}
    {seen : ExtTreeSet String} {edge : EdgeRecord} (hedge : edge ∈ adjacency.edges)
    (hnew : edge.source ∉ seen) (depth : Nat) :
    pending adjacency (queue ++ [(edge.source, depth)]) (seen.insert edge.source) ≤
      pending adjacency queue seen := by
  have hfewer (l : List EdgeRecord) : (l.countP fun e => e.source ∉ seen.insert edge.source) ≤
      l.countP fun e => e.source ∉ seen := by
    refine List.countP_mono_left fun e _ he => ?_
    simp only [decide_eq_true_eq, mem_insert, not_or] at he ⊢
    exact he.2
  have hlt : (adjacency.edges.countP fun e => e.source ∉ seen.insert edge.source) <
      adjacency.edges.countP fun e => e.source ∉ seen := by
    obtain ⟨l₁, l₂, hsplit⟩ := List.append_of_mem hedge
    have h₁ := hfewer l₁
    have h₂ := hfewer l₂
    have hentered : ¬ edge.source ∉ seen.insert edge.source :=
      not_not_intro (mem_insert.2 (Or.inl rfl))
    rw [hsplit, List.countP_append, List.countP_append, List.countP_cons, List.countP_cons,
      if_pos (decide_eq_true hnew), if_neg (by rwa [decide_eq_true_eq])]
    omega
  rw [pending, pending, List.length_append, List.length_singleton]
  omega

section Invariant

variable (adjacency : Adjacency) (filters : ImpactFilters) (changed seeds : String → Prop)
  (complete : Bool)

/-- What the search keeps at every moment until a limit stops it. -/
structure PathsKept (search : PathSearch) : Prop where
  seen : ∀ k, k ∈ search.seen ↔ ∃ n, search.paths.depths[k]? = some n
  admitted : ∀ k ∈ search.seen, k ∈ search.budget.nodeIds
  budget : search.budget.Kept filters (adjacency.InScope filters changed)
    (adjacency.EdgeInScope filters changed)
  linked : ∀ k n, search.paths.depths[k]? = some n → search.paths.Linked adjacency seeds k n
  complete : search.budget.complete = complete

/-- The invariant between turns. -/
structure Searching (search : PathSearch) (done : String → Prop) : Prop
    extends PathsKept adjacency filters changed seeds complete search where
  found : Search.Inv adjacency.Leads seeds filters.depth (search.paths.depths[·]?) search.queue done
  edges : ∀ k n, done k → search.paths.depths[k]? = some n → Search.Expands filters.depth n →
    ∀ edge ∈ adjacency.of k, edge.id ∈ search.budget.edgeIds

/-- The invariant within the turn of a node, some of whose edges have been looked at. -/
structure Scanning (search : PathSearch) (done : String → Prop) (x : String) (n : Nat)
    (looked : List EdgeRecord) : Prop
    extends PathsKept adjacency filters changed seeds complete search where
  found : Search.Turn adjacency.Leads seeds filters.depth (search.paths.depths[·]?) search.queue
    done x n fun y => ∃ edge ∈ looked, edge.source = y
  edges : ∀ k n, done k → search.paths.depths[k]? = some n → Search.Expands filters.depth n →
    ∀ edge ∈ adjacency.of k, edge.id ∈ search.budget.edgeIds
  looked : ∀ edge ∈ looked, edge.id ∈ search.budget.edgeIds

/-- A limit has stopped the search. -/
structure Stopped (search : PathSearch) : Prop where
  incomplete : search.budget.complete = false
  budget : search.budget.Kept filters (adjacency.InScope filters changed)
    (adjacency.EdgeInScope filters changed)

end Invariant

section Rules

variable {adjacency : Adjacency} {filters : ImpactFilters} {changed seeds : String → Prop}
  {complete : Bool} {search : PathSearch} {done : String → Prop} {x : String} {n : Nat}
  {looked : List EdgeRecord} {edge : EdgeRecord}

theorem TraversalBudget.admitEdge_nodeIds {budget : TraversalBudget} :
    (budget.admitEdge filters edge).2.nodeIds = budget.nodeIds := by
  unfold TraversalBudget.admitEdge
  split_ifs <;> rfl

theorem TraversalBudget.admitNode_edgeIds {budget : TraversalBudget} {nodeId : String} :
    (budget.admitNode filters nodeId).2.edgeIds = budget.edgeIds := by
  unfold TraversalBudget.admitNode
  split_ifs <;> rfl

/-- Of a search that may go on. -/
theorem ReversePathIndex.Linked.enter {paths : ReversePathIndex} {y : String} {id : String}
    {depth : Nat} (hnew : paths.depths[y]? = none) {k : String} {m : Nat}
    (hk : paths.depths[k]? = some m) (h : paths.Linked adjacency seeds k m) :
    (ReversePathIndex.mk (paths.successor.insert y id) (paths.depths.insert y depth)).Linked
      adjacency seeds k m := by
  have hne {z : String} {l : Nat} (hz : paths.depths[z]? = some l) : z ≠ y := by
    rintro rfl
    rw [hnew] at hz
    cases hz
  cases m with
  | zero =>
    refine ⟨h.1, ?_⟩
    rw [getElem?_insert, if_neg (hne hk)]
    exact h.2
  | succ d =>
    obtain ⟨x, hx, edge, hedge, hsource, hid⟩ := h
    refine ⟨x, ?_, edge, hedge, hsource, ?_⟩
    · rw [getElem?_insert, if_neg (hne hx)]
      exact hx
    · rw [getElem?_insert, if_neg (hne hk)]
      exact hid

/-- A larger budget of the same kind. -/
theorem Scanning.spend (h : Scanning adjacency filters changed seeds complete search done x n looked)
    {budget : TraversalBudget} (hkept : budget.Kept filters (adjacency.InScope filters changed)
      (adjacency.EdgeInScope filters changed))
    (hnodes : ∀ id ∈ search.budget.nodeIds, id ∈ budget.nodeIds)
    (hedges : ∀ id ∈ search.budget.edgeIds, id ∈ budget.edgeIds)
    (hcomplete : budget.complete = search.budget.complete) :
    Scanning adjacency filters changed seeds complete { search with budget } done x n looked where
  seen := h.seen
  admitted k hk := hnodes k (h.admitted k hk)
  budget := hkept
  linked := h.linked
  complete := hcomplete.trans h.complete
  found := h.found
  edges k n hdone hk hn edge hedge := hedges edge.id (h.edges k n hdone hk hn edge hedge)
  looked edge hedge := hedges edge.id (h.looked edge hedge)

theorem looked_append {y : String} : (∃ e ∈ looked ++ [edge], e.source = y) ↔
    (∃ e ∈ looked, e.source = y) ∨ y = edge.source := by
  simp [or_and_right, exists_or, eq_comm]

/-- An edge whose source was found before. -/
theorem Scanning.look (h : Scanning adjacency filters changed seeds complete search done x n looked)
    (hid : edge.id ∈ search.budget.edgeIds) (hseen : edge.source ∈ search.seen) :
    Scanning adjacency filters changed seeds complete search done x n (looked ++ [edge]) where
  toPathsKept := h.toPathsKept
  found := by
    obtain ⟨m, hm⟩ := (h.seen edge.source).1 hseen
    simp only [looked_append]
    exact h.found.seen hm
  edges := h.edges
  looked e he := by
    rcases List.mem_append.1 he with he | he
    · exact h.looked e he
    · rwa [List.mem_singleton.1 he]

/-- An edge whose source is new. -/
theorem Scanning.enter
    (h : Scanning adjacency filters changed seeds complete search done x n looked)
    (hexpands : Search.Expands filters.depth n) (hedge : edge ∈ adjacency.of x)
    (hid : edge.id ∈ search.budget.edgeIds) (hnew : edge.source ∉ search.seen)
    (hnode : edge.source ∈ search.budget.nodeIds) :
    Scanning adjacency filters changed seeds complete (enterSource edge (n + 1) search) done x n
      (looked ++ [edge]) := by
  have hnone : search.paths.depths[edge.source]? = none :=
    Option.eq_none_iff_forall_ne_some.2 fun m hm => hnew ((h.seen edge.source).2 ⟨m, hm⟩)
  have hdepths : ((enterSource edge (n + 1) search).paths.depths[·]?) =
      fun k => if k = edge.source then some (n + 1) else search.paths.depths[k]? :=
    funext fun k => getElem?_insert
  have hold {k : String} {m : Nat} (hk : (enterSource edge (n + 1) search).paths.depths[k]? = some m) :
      k = edge.source ∧ m = n + 1 ∨ search.paths.depths[k]? = some m := by
    rw [congrFun hdepths k] at hk
    split_ifs at hk with hkey
    · exact Or.inl ⟨hkey, (Option.some.inj hk).symm⟩
    · exact Or.inr hk
  constructor
  · constructor
    · intro k
      rw [congrFun hdepths k]
      refine mem_insert.trans ?_
      by_cases hkey : k = edge.source
      · simp [hkey]
      · simp [hkey, h.seen k]
    · intro k hk
      rcases mem_insert.1 hk with rfl | hk
      · exact hnode
      · exact h.admitted k hk
    · exact h.budget
    · intro k m hk
      rcases hold hk with ⟨rfl, rfl⟩ | hk
      · refine ⟨x, ?_, edge, hedge, rfl, ?_⟩
        · rw [congrFun hdepths x, if_neg, h.found.here]
          rintro rfl
          exact absurd (hnone.symm.trans h.found.here) (by simp)
        · exact getElem?_insert.trans (if_pos rfl)
      · exact (h.linked k m hk).enter hnone hk
    · exact h.complete
  · rw [hdepths]
    simp only [looked_append]
    exact h.found.discover hexpands ⟨edge, hedge, rfl⟩ hnone
  · intro k m hdone hk hm e he
    rcases hold hk with ⟨rfl, rfl⟩ | hk
    · obtain ⟨m', hm'⟩ := h.found.expanded _ hdone
      rw [hnone] at hm'
      cases hm'
    · exact h.edges k m hdone hk hm e he
  · intro e he
    rcases List.mem_append.1 he with he | he
    · exact h.looked e he
    · rwa [List.mem_singleton.1 he]

/-- How the search goes on, or that it stops. -/
structure Proceeds (adjacency : Adjacency) (filters : ImpactFilters) (changed : String → Prop)
    (search : PathSearch) (next : PathSearch → Prop) (result : Except PathSearch PathSearch) :
    Prop where
  stopped : ∀ s, result = .error s → Stopped adjacency filters changed s
  next : ∀ s, result = .ok s → next s ∧
    pending adjacency s.queue s.seen ≤ pending adjacency search.queue search.seen

variable (hseeds : ∀ s, seeds s → changed s)

include hseeds in
/-- **An edge of a node that is expanded.** -/
theorem Scanning.visit
    (h : Scanning adjacency filters changed seeds complete search done x n looked)
    (hexpands : Search.Expands filters.depth n) (hedge : edge ∈ adjacency.of x) :
    Proceeds adjacency filters changed search
      (Scanning adjacency filters changed seeds complete · done x n (looked ++ [edge]))
      (visitEdge filters n search edge) := by
  have hreached : Search.Reached adjacency.Leads changed n x := by
    obtain ⟨s, hs, hw⟩ := (h.found.found.sound x n h.found.here).1
    exact ⟨s, hseeds s hs, hw⟩
  have hedgeScope : adjacency.EdgeInScope filters changed edge.id :=
    ⟨x, n, hreached, hexpands, edge, hedge, rfl⟩
  have hedgeKept := h.budget.admitEdge hedgeScope
  have hedgeAdmission := search.budget.admitEdge_admission filters edge
  unfold visitEdge
  cases hadmitted : (search.budget.admitEdge filters edge).1 with
  | false =>
    refine ⟨fun s hs => ?_, fun s hs => by simp [hadmitted] at hs⟩
    simp only [hadmitted, Bool.not_false, if_true, Except.error.injEq] at hs
    rw [← hs]
    exact ⟨hedgeAdmission.incomplete_of_false hadmitted, hedgeKept⟩
  | true =>
    obtain ⟨hid, hedges, hcomplete⟩ := hedgeAdmission.admitted_of_true hadmitted
    have hspent := h.spend hedgeKept (fun id hid => by rwa [TraversalBudget.admitEdge_nodeIds])
      hedges hcomplete
    by_cases hseen : edge.source ∈ search.seen
    · refine ⟨fun s hs => by simp [hadmitted, hseen] at hs, fun s hs => ?_⟩
      simp only [hadmitted, Bool.not_true, Bool.false_eq_true, if_false, if_pos hseen,
        Except.ok.injEq] at hs
      rw [← hs]
      exact ⟨hspent.look hid hseen, le_rfl⟩
    · obtain ⟨s, hs, hw⟩ := hreached
      have hnodeScope : adjacency.InScope filters changed edge.source :=
        ⟨n + 1, ⟨s, hs, hw.snoc ⟨edge, hedge, rfl⟩⟩, hexpands.succ⟩
      have hnodeKept := hspent.budget.admitNode hnodeScope
      have hnodeAdmission := (search.budget.admitEdge filters edge).2.admitNode_admission filters
        edge.source
      cases hnode : ((search.budget.admitEdge filters edge).2.admitNode filters edge.source).1 with
      | false =>
        refine ⟨fun s hs => ?_, fun s hs => by simp [hadmitted, hseen, hnode] at hs⟩
        simp only [hadmitted, hnode, hseen, Bool.not_true, Bool.not_false, Bool.false_eq_true,
          if_false, if_true, Except.error.injEq] at hs
        rw [← hs]
        exact ⟨hnodeAdmission.incomplete_of_false hnode, hnodeKept⟩
      | true =>
        obtain ⟨hsource, hnodes, hcomplete⟩ := hnodeAdmission.admitted_of_true hnode
        have hedges (id) (h : id ∈ (search.budget.admitEdge filters edge).2.edgeIds) :
            id ∈ ((search.budget.admitEdge filters edge).2.admitNode filters edge.source).2.edgeIds := by
          rwa [TraversalBudget.admitNode_edgeIds]
        refine ⟨fun s hs => by simp [hadmitted, hseen, hnode] at hs, fun s hs => ?_⟩
        simp only [hadmitted, hnode, hseen, Bool.not_true, Bool.false_eq_true, if_false,
          Except.ok.injEq] at hs
        rw [← hs]
        exact ⟨(hspent.spend hnodeKept hnodes hedges hcomplete).enter hexpands hedge
          (hedges edge.id hid) hseen hsource,
          pending_enter (Adjacency.mem_edges hedge) hseen (n + 1)⟩

include hseeds in
/-- **The edges of a node that is expanded.** -/
theorem Scanning.visits
    (h : Scanning adjacency filters changed seeds complete search done x n looked)
    (hexpands : Search.Expands filters.depth n) {rest : List EdgeRecord}
    (hrest : looked ++ rest = adjacency.of x) :
    Proceeds adjacency filters changed search
      (Scanning adjacency filters changed seeds complete · done x n (adjacency.of x))
      (rest.foldlM (visitEdge filters n) search) := by
  induction rest generalizing looked search with
  | nil =>
    refine ⟨fun s hs => absurd hs (by simp [pure, Except.pure]), fun s hs => ?_⟩
    obtain rfl := Except.ok.inj hs
    rw [List.append_nil] at hrest
    exact ⟨hrest ▸ h, le_rfl⟩
  | cons edge rest ih =>
    have hedge : edge ∈ adjacency.of x := by
      rw [← hrest]
      simp
    obtain ⟨hstopped, hnext⟩ := h.visit hseeds hexpands hedge
    rw [List.foldlM_cons]
    cases hvisit : visitEdge filters n search edge with
    | error s =>
      refine ⟨fun s' hs' => ?_, fun s' hs' => absurd hs' (by simp [bind, Except.bind])⟩
      obtain rfl := Except.error.inj hs'
      exact hstopped s hvisit
    | ok s =>
      obtain ⟨hscanning, hpending⟩ := hnext s hvisit
      obtain ⟨hstopped', hnext'⟩ := ih hscanning (by rw [List.append_assoc]; exact hrest)
      exact ⟨hstopped', fun s' hs' => (hnext' s' hs').imp_right fun h => Nat.le_trans h hpending⟩

/-- The first node of the queue has its turn. -/
theorem Searching.pop (h : Searching adjacency filters changed seeds complete search done)
    {queue : List (String × Nat)} (hqueue : search.queue = (x, n) :: queue) :
    Scanning adjacency filters changed seeds complete { search with queue } done x n [] where
  seen := h.seen
  admitted := h.admitted
  budget := h.budget
  linked := h.linked
  complete := h.complete
  found := by
    have hfound := h.found
    rw [hqueue] at hfound
    simpa using hfound.pop
  edges := h.edges
  looked := by simp

/-- The turn of a node is over. -/
theorem Scanning.finish
    (h : Scanning adjacency filters changed seeds complete search done x n looked)
    (hlooked : Search.Expands filters.depth n → looked = adjacency.of x) :
    Searching adjacency filters changed seeds complete search fun k => done k ∨ k = x where
  toPathsKept := h.toPathsKept
  found := by
    refine h.found.finish fun hexpands y hy => ?_
    rw [hlooked hexpands]
    exact hy
  edges := by
    rintro k m (hk | rfl) hdepth hm edge hedge
    · exact h.edges k m hk hdepth hm edge hedge
    · obtain rfl := Option.some.inj (h.found.here.symm.trans hdepth)
      exact h.looked edge (hlooked hm ▸ hedge)

theorem atLimit_eq_false {depth : Nat} :
    atLimit filters depth = false ↔ Search.Expands filters.depth depth := by
  unfold atLimit Search.Expands
  cases filters.depth <;> simp

include hseeds in
/-- **The search ends when a limit stops it or nothing is left to do.** -/
theorem searchLoop_kept (fuel : Nat)
    (h : Searching adjacency filters changed seeds complete search done)
    (hfuel : pending adjacency search.queue search.seen ≤ fuel) :
    Stopped adjacency filters changed (searchLoop adjacency filters fuel search) ∨
      ∃ done', Searching adjacency filters changed seeds complete
        (searchLoop adjacency filters fuel search) done' ∧
        (searchLoop adjacency filters fuel search).queue = [] := by
  induction fuel generalizing search done with
  | zero =>
    refine Or.inr ⟨done, h, List.length_eq_zero_iff.1 ?_⟩
    unfold pending at hfuel
    rw [searchLoop]
    omega
  | succ fuel ih =>
    rw [searchLoop]
    cases hqueue : search.queue with
    | nil => exact Or.inr ⟨done, h, hqueue⟩
    | cons entry queue =>
      obtain ⟨x, n⟩ := entry
      have hpop := h.pop hqueue
      have hless : pending adjacency queue search.seen ≤ fuel := by
        rw [hqueue, pending_cons] at hfuel
        exact Nat.le_of_succ_le_succ hfuel
      cases hlimit : atLimit filters n with
      | true =>
        simp only [hlimit, if_true]
        refine ih (hpop.finish fun hexpands => ?_) hless
        rw [atLimit_eq_false.2 hexpands] at hlimit
        cases hlimit
      | false =>
        simp only [hlimit, Bool.false_eq_true, if_false]
        obtain ⟨hstopped, hnext⟩ := hpop.visits hseeds (atLimit_eq_false.1 hlimit)
          (List.nil_append _)
        cases hscan : (adjacency.of x).foldlM (visitEdge filters n) { search with queue } with
        | error s => exact Or.inl (hstopped s hscan)
        | ok s =>
          obtain ⟨hscanning, hpending⟩ := hnext s hscan
          exact ih (hscanning.finish fun _ => rfl) (Nat.le_trans hpending hless)

/-! ### From the seeds -/

/-- The state after some seeds have been entered. -/
structure Seeded (budget : TraversalBudget) (entered : List String) (search : PathSearch) : Prop where
  queue : ∀ k n, (k, n) ∈ search.queue ↔ k ∈ entered ∧ n = 0
  depths : ∀ k n, search.paths.depths[k]? = some n ↔ k ∈ entered ∧ n = 0
  seen : ∀ k, k ∈ search.seen ↔ k ∈ entered
  successor : ∀ k : String, search.paths.successor[k]? = none
  budget : search.budget = budget
  length : search.queue.length ≤ entered.length

theorem seedPath_seeded {budget : TraversalBudget} {entered : List String} {seed : String}
    (h : Seeded budget entered search) : Seeded budget (entered ++ [seed]) (seedPath search seed) := by
  unfold seedPath
  split_ifs with hseen
  · have hmem {k : String} : k ∈ entered ++ [seed] ↔ k ∈ entered := by
      rw [List.mem_append, List.mem_singleton, or_iff_left_of_imp]
      rintro rfl
      exact (h.seen _).1 hseen
    constructor
    · intro k n
      rw [hmem]
      exact h.queue k n
    · intro k n
      rw [hmem]
      exact h.depths k n
    · intro k
      rw [hmem]
      exact h.seen k
    · exact h.successor
    · exact h.budget
    · exact Nat.le_trans h.length (by simp)
  · constructor
    · intro k n
      simp only [List.mem_append, List.mem_singleton, h.queue, Prod.mk.injEq, or_and_right]
    · intro k n
      rw [getElem?_insert, List.mem_append, List.mem_singleton]
      by_cases hk : k = seed
      · simp [hk, eq_comm]
      · simp [hk, h.depths]
    · intro k
      rw [mem_insert, h.seen, List.mem_append, List.mem_singleton, or_comm]
    · exact h.successor
    · exact h.budget
    · simpa using h.length

theorem seeded (budget : TraversalBudget) (seedIds : List String) :
    Seeded budget seedIds (seedIds.foldl seedPath ⟨[], ∅, ⟨∅, ∅⟩, budget⟩) := by
  induction seedIds using List.reverseRecOn with
  | nil => constructor <;> simp
  | append_singleton entered seed ih =>
    rw [List.foldl_append]
    exact seedPath_seeded ih

/-- What a search has found that no limit has stopped. -/
structure Explored (adjacency : Adjacency) (filters : ImpactFilters) (seeds : String → Prop)
    (paths : ReversePathIndex) (budget : TraversalBudget) : Prop where
  depth_iff : ∀ k n, paths.depths[k]? = some n ↔
    Search.IsDistance adjacency.Leads seeds k n ∧ Search.Within filters.depth n
  linked : ∀ k n, paths.depths[k]? = some n → paths.Linked adjacency seeds k n
  nodes : ∀ k, adjacency.InScope filters seeds k → k ∈ budget.nodeIds
  edges : ∀ id, adjacency.EdgeInScope filters seeds id → id ∈ budget.edgeIds

theorem Searching.explored (h : Searching adjacency filters changed seeds complete search done)
    (hqueue : search.queue = []) :
    Explored adjacency filters seeds search.paths search.budget := by
  have hfound := h.found
  rw [hqueue] at hfound
  refine ⟨fun k n => hfound.depth_iff, h.linked, fun k hk => ?_, ?_⟩
  · exact h.admitted k ((h.seen k).2 (hfound.found_iff.2 hk))
  · rintro id ⟨k, n, hreached, hexpands, edge, hedge, rfl⟩
    obtain ⟨m, hm, hdepth⟩ := hfound.reached hreached fun l hl => Nat.le_of_lt (hexpands l hl)
    exact h.edges k m (hfound.done_iff.2 ⟨m, hdepth⟩) hdepth (hexpands.mono hm) edge hedge

/-- **The traversal keeps its budget, and it is exact unless a limit stops it.** -/
theorem reversePathIndexFromSeeds_kept {seedIds : List String} {budget : TraversalBudget}
    (hseeds : ∀ s ∈ seedIds, changed s) (hadmitted : ∀ s ∈ seedIds, s ∈ budget.nodeIds)
    (hbudget : budget.Kept filters (adjacency.InScope filters changed)
      (adjacency.EdgeInScope filters changed)) :
    let result := reversePathIndexFromSeeds seedIds adjacency filters budget
    result.2.Kept filters (adjacency.InScope filters changed)
        (adjacency.EdgeInScope filters changed) ∧
      (result.2.complete = true → budget.complete = true ∧
        Explored adjacency filters (· ∈ seedIds) result.1 result.2) := by
  have hstart := seeded budget seedIds
  have hsearching : Searching adjacency filters changed (· ∈ seedIds) budget.complete
      (seedIds.foldl seedPath ⟨[], ∅, ⟨∅, ∅⟩, budget⟩) fun _ => False := by
    refine ⟨⟨fun k => ?_, fun k hk => ?_, ?_, fun k n hk => ?_, ?_⟩, ?_, fun k n hk => hk.elim⟩
    · simp [hstart.seen, hstart.depths]
    · rw [hstart.budget]
      exact hadmitted k ((hstart.seen k).1 hk)
    · rw [hstart.budget]
      exact hbudget
    · obtain ⟨hmem, rfl⟩ := (hstart.depths k n).1 hk
      exact ⟨hmem, hstart.successor k⟩
    · rw [hstart.budget]
    · refine Search.Inv.start (fun e he => ?_) (fun s hs => (hstart.queue s 0).2 ⟨hs, rfl⟩)
        (fun k n => (hstart.depths k n).trans (hstart.queue k n).symm) fun _ h => h
      obtain ⟨hmem, hzero⟩ := (hstart.queue e.1 e.2).1 he
      exact ⟨hzero, hmem⟩
  have hfuel : pending adjacency (seedIds.foldl seedPath ⟨[], ∅, ⟨∅, ∅⟩, budget⟩).queue
      (seedIds.foldl seedPath ⟨[], ∅, ⟨∅, ∅⟩, budget⟩).seen ≤
      seedIds.length + adjacency.edges.length :=
    Nat.add_le_add hstart.length List.countP_le_length
  rcases searchLoop_kept hseeds _ hsearching hfuel with hstopped | ⟨done, hdone, hqueue⟩
  · exact ⟨hstopped.budget, fun hcomplete =>
      absurd (hcomplete.symm.trans hstopped.incomplete) (by simp)⟩
  · exact ⟨hdone.budget, fun hcomplete => ⟨hdone.complete.symm.trans hcomplete,
      hdone.explored hqueue⟩⟩

end Rules

end Impact
