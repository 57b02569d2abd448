import Depgraph.Impact.Exact
import Depgraph.Library.Breadth
import Depgraph.Query.Adjacency

/-!
# Bounded traversal

`traverse_bounded_filtered_cancellable_with_adjacency_limit`, from the root that its selector has been
resolved to. The traversal looks at each edge once, so that a limit of as many visits as there are
edges never stops it; `traverseBounded_exact` says what it returns, with and without such a limit.
-/

namespace Query

open Json Protocol Impact OrderedMap Metered Std Breadth
open Store hiding GraphSnapshot

/-! ### Errors and work -/

/-- The errors of a query, with the limit that is exceeded. -/
inductive QueryError where
  | selectorPreprocessingExhausted (maximum : Nat)
  | queryPostprocessingExhausted
  | postprocessing (error : ImpactError)
  | message (text : String)

abbrev SelectorWork : Type → Type := Work Nat QueryError

def SelectorWork.step (maximum : Nat) : SelectorWork Unit :=
  Metered.step maximum (.selectorPreprocessingExhausted maximum)

/-- Puts the steps of a query together, and nothing else. -/
def runPathSteps {α : Type} (work : PathStepWork α) : Except QueryError α :=
  (Metered.run work ⟨0, 0⟩).mapError .postprocessing

/-! ### Results -/

structure QueryPageDiagnostic where
  code : String
  message : String
  remediation : String

structure TraversalResult where
  root : NodeRecord
  nodes : List NodeRecord
  edges : List EdgeRecord
  steps : List PathStep

structure BoundedTraversalResult where
  result : TraversalResult
  complete : Bool
  traversedEdges : Nat
  diagnostics : List QueryPageDiagnostic

/-! ### The loop -/

/-- What the traversal keeps beside its queue. -/
structure Traversal where
  visited : ExtTreeSet String
  selectedEdges : ExtTreeMap String EdgeRecord
  traversedEdges : Nat

/-- The traversal with one more edge. -/
def Traversal.look (kept : Traversal) (reverse : Bool) (edge : EdgeRecord) : Traversal where
  visited := kept.visited.insert (edgeEnds reverse edge).2
  selectedEdges := kept.selectedEdges.insert edge.id edge
  traversedEdges := kept.traversedEdges + 1

/-- The body of the loop. The limit ends the traversal. -/
def traverseEdge (transitive reverse : Bool) (maxTraversal : Nat) (_nodeId : String)
    (search : Queued String Traversal) (edge : EdgeRecord) :
    Except Traversal (Queued String Traversal) :=
  if maxTraversal ≤ search.kept.traversedEdges then .error search.kept
  else .ok {
    queue := if (edgeEnds reverse edge).2 ∉ search.kept.visited ∧ transitive = true then
        search.queue ++ [(edgeEnds reverse edge).2]
      else search.queue
    kept := search.kept.look reverse edge }

/-- The root is visited, and nothing else. -/
def Traversal.start (root : String) : Traversal := ⟨(∅ : ExtTreeSet String).insert root, ∅, 0⟩

/-- The traversal, and whether it came to its end. Without `transitive` the loop stops behind its
first turn. -/
def explore (listed : String → List EdgeRecord) (root : String) (transitive reverse : Bool)
    (maxTraversal fuel : Nat) : Traversal × Bool :=
  let ended := if transitive then
      loop listed (traverseEdge transitive reverse maxTraversal) fuel ⟨[root], .start root⟩
    else (listed root).foldlM (traverseEdge transitive reverse maxTraversal root) ⟨[], .start root⟩
  match ended with
  | .error kept => (kept, false)
  | .ok search => (search.kept, true)

/-! ### The result -/

/-- Selects a node that has been visited. -/
def selectNode (maximum : Nat) (root : String) (visited : ExtTreeSet String)
    (selected : ExtTreeMap String NodeRecord) (node : NodeRecord) :
    SelectorWork (ExtTreeMap String NodeRecord) := do
  SelectorWork.step maximum
  if node.id ≠ root ∧ node.id ∈ visited then
    SelectorWork.step maximum
    return selected.insert node.id node
  else return selected

/-- The visited nodes, in the order of their identities. -/
def selectNodes (maximum : Nat) (snapshot : GraphSnapshot) (root : String)
    (visited : ExtTreeSet String) : SelectorWork (List NodeRecord) := do
  let selected ← snapshot.nodes.foldlM (selectNode maximum root visited) ∅
  (values selected).mapM fun node => do
    SelectorWork.step maximum
    return node

/-- `clone_edge_output`: its stage is charged like any that scans no snapshot. -/
def cloneEdgeOutput (maximum : Nat) (edge : EdgeRecord) : PathStepWork EdgeRecord := do
  PathStepWork.step maximum .edgeLookup
  return edge

/-- The steps and the copies of the selected edges. -/
def outputEdges (F : FloatText) (maximum : Nat) (snapshot : GraphSnapshot)
    (filter : GraphQueryFilter) (edges : List EdgeRecord) :
    PathStepWork (List (PathStep × EdgeRecord)) := do
  let projection ← newMaterializer F maximum snapshot filter edges
  edges.mapM fun edge => do
    let step ← projection.materialize F maximum edge
    let copy ← cloneEdgeOutput maximum edge
    return (step, copy)

/-- The diagnostic of a partial result. -/
def limitDiagnostic (adjacencyComplete : Bool) (traversedEdges maxTraversal maxInspection : Nat) :
    QueryPageDiagnostic where
  code := "QUERY_TRAVERSAL_LIMIT_REACHED"
  message := if adjacencyComplete then
      "dependency traversal stopped after " ++ toString traversedEdges ++ " edge visits (limit " ++
        toString maxTraversal ++ ")"
    else "dependency adjacency preprocessing stopped after inspecting " ++ toString maxInspection ++
      " snapshot edges; result is partial"
  remediation := if adjacencyComplete then
      "rerun with a larger --max-traversal value or narrow the query filters"
    else "reduce the snapshot size or narrow the configured scan scope"

/-- `traverse_bounded_filtered_cancellable_with_adjacency_limit`, behind the selector. A turn of the
loop takes a node from the queue, and a node is entered as the root or through an edge. -/
def traverseBounded (F : FloatText) (snapshot : GraphSnapshot) (root : NodeRecord)
    (transitive reverse : Bool) (filter : GraphQueryFilter) (edgeKinds : EdgeKindFilter)
    (maxTraversal maxAdjacencyInspection : Nat) : Except QueryError BoundedTraversalResult := do
  let (ordered, adjacencyComplete) :=
    adjacency snapshot reverse filter edgeKinds maxAdjacencyInspection
  let (kept, explored) := explore (edgesOf ordered) root.id transitive reverse maxTraversal
    (snapshot.edges.length + 1)
  let complete := adjacencyComplete && explored
  let nodes ← Metered.run
    (selectNodes maxGraphServicePreprocessingWorkItems snapshot root.id kept.visited) 0
  let output ← runPathSteps (outputEdges F maxGraphServicePreprocessingWorkItems snapshot filter
    (values kept.selectedEdges))
  return {
    result := ⟨root, nodes, output.map Prod.snd, output.map Prod.fst⟩
    complete
    traversedEdges := min kept.traversedEdges maxU64
    diagnostics := if complete then [] else [limitDiagnostic adjacencyComplete kept.traversedEdges
      maxTraversal maxAdjacencyInspection] }

/-! ### What is selected -/

/-- The edges are selected that have this property, each counted once. -/
structure Gathered (looked : EdgeRecord → Prop) (kept : Traversal) : Prop where
  selected : ∀ (id : String) (edge : EdgeRecord),
    kept.selectedEdges[id]? = some edge ↔ looked edge ∧ edge.id = id
  counted : kept.traversedEdges = kept.selectedEdges.size

theorem Gathered.start (root : String) {looked : EdgeRecord → Prop} (h : ∀ edge, ¬ looked edge) :
    Gathered looked (.start root) where
  selected id edge := by simp [Traversal.start, h edge]
  counted := by simp [Traversal.start]

/-- An edge that has not been looked at is selected and counted. -/
theorem Gathered.look {looked : EdgeRecord → Prop} {kept : Traversal} (h : Gathered looked kept)
    {reverse : Bool} {edge : EdgeRecord} (hnew : ∀ other, looked other → other.id ≠ edge.id) :
    Gathered (fun other => looked other ∨ other = edge) (kept.look reverse edge) where
  selected id other := by
    unfold Traversal.look
    rw [getElem?_insert]
    split_ifs with hid
    · constructor
      · intro hother
        obtain rfl := Option.some.inj hother
        exact ⟨Or.inr rfl, hid.symm⟩
      · rintro ⟨hother | rfl, hsame⟩
        · exact absurd (hsame.trans hid) (hnew other hother)
        · rfl
    · rw [h.selected]
      refine ⟨fun hother => ⟨Or.inl hother.1, hother.2⟩, fun hother => ⟨?_, hother.2⟩⟩
      rcases hother with ⟨hother | rfl, hsame⟩
      · exact hother
      · exact absurd hsame.symm hid
  counted := by
    have hfresh : edge.id ∉ kept.selectedEdges := by
      intro hmem
      obtain ⟨other, hother⟩ := mem_iff.1 hmem
      obtain ⟨hlooked, hsame⟩ := (h.selected _ _).1 hother
      exact hnew other hlooked hsame
    simp only [Traversal.look, ExtTreeMap.size_insert, h.counted]
    exact (if_neg hfresh).symm

/-- As long as some edge of a list has not been looked at, fewer have been than there are. -/
theorem Gathered.lt_length {looked : EdgeRecord → Prop} {kept : Traversal} (h : Gathered looked kept)
    {edges : List EdgeRecord} (hlooked : ∀ edge, looked edge → edge ∈ edges) {edge : EdgeRecord}
    (hmem : edge ∈ edges) (hnew : ∀ other, looked other → other.id ≠ edge.id) :
    kept.traversedEdges < edges.length := by
  have hnodup : (edge.id :: kept.selectedEdges.keys).Nodup := by
    refine List.nodup_cons.2 ⟨fun hkey => ?_, ?_⟩
    · obtain ⟨other, hother⟩ := mem_iff.1 (ExtTreeMap.mem_keys.1 hkey)
      obtain ⟨hother, hsame⟩ := (h.selected _ _).1 hother
      exact hnew other hother hsame
    · rw [← ExtTreeMap.map_fst_toList_eq_keys]
      exact keys_nodup
  have hsubset : edge.id :: kept.selectedEdges.keys ⊆ edges.map EdgeRecord.id := by
    refine List.cons_subset.2 ⟨List.mem_map_of_mem hmem, fun id hid => ?_⟩
    obtain ⟨other, hother⟩ := mem_iff.1 (ExtTreeMap.mem_keys.1 hid)
    obtain ⟨hother, hsame⟩ := (h.selected _ _).1 hother
    exact hsame ▸ List.mem_map_of_mem (hlooked other hother)
  have hlength := (hnodup.subperm hsubset).length_le
  rw [List.length_cons, ExtTreeMap.length_keys, List.length_map] at hlength
  rw [h.counted]
  omega

/-! ### What is explored -/

section Explored

variable {listed : String → List EdgeRecord} {reverse : Bool} {edges : List EdgeRecord}
  {root : String} {maxTraversal : Nat}

/-- An edge that is listed under a node that can be reached. -/
def ReachesEdge (listed : String → List EdgeRecord) (reverse : Bool) (root : String)
    (edge : EdgeRecord) : Prop :=
  ∃ k n, Search.Walk (Leads listed fun edge => (edgeEnds reverse edge).2) n root k ∧
    edge ∈ listed k

/-- Edges are listed under one node, once, and have distinct identities. -/
structure ListsEdges (listed : String → List EdgeRecord) (edges : List EdgeRecord) : Prop where
  mem : ∀ k, ∀ edge ∈ listed k, edge ∈ edges
  nodup : ∀ k, (listed k).Nodup
  ids : (edges.map EdgeRecord.id).Nodup
  once : ∀ k k' edge, edge ∈ listed k → edge ∈ listed k' → k = k'

theorem ListsEdges.id_ne (h : ListsEdges listed edges) {k : String} {looked : List EdgeRecord}
    {edge : EdgeRecord} (hpart : looked ++ [edge] <+: listed k) {done : String → Prop}
    (hundone : ¬ done k) {other : EdgeRecord}
    (hother : (∃ y, done y ∧ other ∈ listed y) ∨ other ∈ looked) : other.id ≠ edge.id := by
  have hedge : edge ∈ listed k := hpart.subset (by simp)
  intro hid
  have hmem : other ∈ edges := by
    rcases hother with ⟨y, -, hy⟩ | hlooked
    · exact h.mem y other hy
    · exact h.mem k other (hpart.subset (List.mem_append_left _ hlooked))
  obtain rfl := List.inj_on_of_nodup_map h.ids hmem (h.mem k edge hedge) hid
  rcases hother with ⟨y, hdone, hy⟩ | hlooked
  · exact hundone (h.once y k other hy hedge ▸ hdone)
  · have hnodup := (h.nodup k).sublist hpart.sublist
    rw [List.nodup_append] at hnodup
    exact hnodup.2.2 other hlooked other (by simp) rfl

/-- An edge under a node in turn has been looked at, or it is listed under an expanded node. -/
def LookedAt (listed : String → List EdgeRecord) (done : String → Prop) (looked : List EdgeRecord)
    (edge : EdgeRecord) : Prop :=
  (∃ y, done y ∧ edge ∈ listed y) ∨ edge ∈ looked

theorem lookedAt_append {done : String → Prop} {looked : List EdgeRecord} {edge : EdgeRecord} :
    (fun other => LookedAt listed done looked other ∨ other = edge) =
      LookedAt listed done (looked ++ [edge]) := by
  funext other
  simp [LookedAt, or_assoc]

/-- A traversal that has been stopped has selected some of the edges, and the limit is small. -/
structure StoppedAt (listed : String → List EdgeRecord) (reverse : Bool) (edges : List EdgeRecord)
    (root : String) (maxTraversal : Nat) (selects : EdgeRecord → Prop) (kept : Traversal) :
    Prop where
  selected : ∀ (id : String) (edge : EdgeRecord), kept.selectedEdges[id]? = some edge → selects edge
  limit : maxTraversal < edges.length

theorem traverseEdge_eq_ok {transitive : Bool} {k : String} {edge : EdgeRecord}
    {search search' : Queued String Traversal}
    (h : traverseEdge transitive reverse maxTraversal k search edge = .ok search') :
    search'.kept = search.kept.look reverse edge ∧
      search'.queue = if (edgeEnds reverse edge).2 ∉ search.kept.visited ∧ transitive = true then
          search.queue ++ [(edgeEnds reverse edge).2]
        else search.queue := by
  unfold traverseEdge at h
  by_cases hlimit : maxTraversal ≤ search.kept.traversedEdges
  · rw [if_pos hlimit] at h
    cases h
  · rw [if_neg hlimit] at h
    obtain rfl := Except.ok.inj h
    exact ⟨rfl, rfl⟩

theorem traverseEdge_eq_error {transitive : Bool} {k : String} {edge : EdgeRecord}
    {search : Queued String Traversal} {kept : Traversal}
    (h : traverseEdge transitive reverse maxTraversal k search edge = .error kept) :
    kept = search.kept ∧ maxTraversal ≤ kept.traversedEdges := by
  unfold traverseEdge at h
  by_cases hlimit : maxTraversal ≤ search.kept.traversedEdges
  · rw [if_pos hlimit] at h
    obtain rfl := Except.error.inj h
    exact ⟨rfl, hlimit⟩
  · rw [if_neg hlimit] at h
    cases h

/-- The body of the transitive loop follows the rules of a search. -/
theorem traverse_rules (h : ListsEdges listed edges) :
    Rules listed (fun edge => (edgeEnds reverse edge).2) (fun kept k => k ∈ kept.visited)
      (traverseEdge true reverse maxTraversal) root
      (fun _ done kept => Gathered (LookedAt listed done []) kept)
      (fun _ done _ looked kept => Gathered (LookedAt listed done looked) kept)
      (StoppedAt listed reverse edges root maxTraversal (ReachesEdge listed reverse root)) where
  enters := by
    intro k edge search search' _ hvisit
    obtain ⟨hkept, hqueue⟩ := traverseEdge_eq_ok hvisit
    by_cases hseen : (edgeEnds reverse edge).2 ∈ search.kept.visited
    · refine .known hseen (hqueue.trans (if_neg fun hnew => hnew.1 hseen)) fun k => ?_
      rw [hkept, Traversal.look, insert_of_mem hseen]
    · refine .new hseen (hqueue.trans (if_pos ⟨hseen, rfl⟩)) fun k => ?_
      rw [hkept, Traversal.look, mem_insert, or_comm]
  pop hbetween := hbetween
  known := by
    intro depth done k looked edge search search' hwithin hundone hpart _ hvisit
    rw [← lookedAt_append, (traverseEdge_eq_ok hvisit).1]
    exact hwithin.look fun other hother => h.id_ne hpart hundone hother
  new := by
    intro depth done k looked edge search search' n hwithin hundone hpart _ _ _ hvisit
    rw [← lookedAt_append, (traverseEdge_eq_ok hvisit).1]
    exact hwithin.look fun other hother => h.id_ne hpart hundone hother
  finish := by
    intro depth done k kept hwithin
    have hlooked : LookedAt listed done (listed k) =
        LookedAt listed (fun y => done y ∨ y = k) [] := by
      funext other
      simp [LookedAt, or_and_right, exists_or]
    exact hlooked ▸ hwithin
  stop := by
    intro depth queue done k n looked edge search kept _ hturn hwithin hundone hpart hvisit
    obtain ⟨rfl, hlimit⟩ := traverseEdge_eq_error hvisit
    have hreached {y : String} {m : Nat} (hy : depth y = some m) :
        Search.Walk (Leads listed fun edge => (edgeEnds reverse edge).2) m root y := by
      obtain ⟨⟨s, rfl, hwalk⟩, -⟩ := hturn.found.sound y m hy
      exact hwalk
    refine ⟨fun id other hother => ?_, ?_⟩
    · rcases ((hwithin.selected _ _).1 hother).1 with ⟨y, hdone, hy⟩ | hlooked
      · obtain ⟨m, hm⟩ := hturn.expanded y hdone
        exact ⟨y, m, hreached hm, hy⟩
      · exact ⟨k, n, hreached hturn.here, hpart.subset (List.mem_append_left _ hlooked)⟩
    · refine Nat.lt_of_le_of_lt hlimit (hwithin.lt_length (fun other hother => ?_)
        (h.mem k edge (hpart.subset (by simp))) fun other hother => h.id_ne hpart hundone hother)
      rcases hother with ⟨y, -, hy⟩ | hlooked
      · exact h.mem y other hy
      · exact h.mem k other (hpart.subset (List.mem_append_left _ hlooked))

/-- What a traversal selects, and which nodes it visits when it comes to its end. -/
structure ExploredAs (edges : List EdgeRecord) (maxTraversal : Nat) (selects : EdgeRecord → Prop)
    (explored : Traversal × Bool) : Prop where
  sound : ∀ (id : String) (edge : EdgeRecord),
    explored.1.selectedEdges[id]? = some edge → selects edge
  complete : explored.2 = true → ∀ (id : String) (edge : EdgeRecord),
    explored.1.selectedEdges[id]? = some edge ↔ selects edge ∧ edge.id = id
  ends : edges.length ≤ maxTraversal → explored.2 = true

/-- **The transitive traversal selects the edges that it can reach.** -/
theorem explore_transitive (h : ListsEdges listed edges) :
    ExploredAs edges maxTraversal (ReachesEdge listed reverse root)
        (explore listed root true reverse maxTraversal (edges.length + 1)) ∧
      ((explore listed root true reverse maxTraversal (edges.length + 1)).2 = true →
        ∀ k, k ∈ (explore listed root true reverse maxTraversal (edges.length + 1)).1.visited ↔
          ∃ n, Search.Walk (Leads listed fun edge => (edgeEnds reverse edge).2) n root k) := by
  have hstart : Between listed (fun edge => (edgeEnds reverse edge).2)
      (fun (kept : Traversal) k => k ∈ kept.visited) root
      (fun _ done kept => Gathered (LookedAt listed done []) kept) ⟨[root], .start root⟩ := by
    refine Between.start (fun k => ?_) (Gathered.start root fun edge hlooked => ?_)
    · rw [Traversal.start, mem_insert, or_iff_left ExtTreeSet.not_mem_empty]
    · rcases hlooked with ⟨_, hdone, -⟩ | hnone
      · exact hdone
      · cases hnone
  have hfuel : pending (fun edge => (edgeEnds reverse edge).2)
      (fun (kept : Traversal) k => k ∈ kept.visited) edges ⟨[root], .start root⟩ ≤
        edges.length + 1 :=
    pending_start_le _ _ _ _ _
  obtain ⟨hstops, hends⟩ := (@traverse_rules listed reverse edges root maxTraversal h).loop h.mem hstart hfuel
  unfold explore
  rw [if_pos rfl]
  cases hloop : loop listed (traverseEdge true reverse maxTraversal) (edges.length + 1)
      ⟨[root], Traversal.start root⟩ with
  | error kept =>
    have hstopped := hstops kept hloop
    refine ⟨⟨hstopped.selected, fun hfalse => (by cases hfalse), fun hlimit => ?_⟩,
      fun hfalse => (by cases hfalse)⟩
    exact absurd hstopped.limit (Nat.not_lt.2 hlimit)
  | ok search =>
    obtain ⟨hqueue, depth, queue, done, htraced, hinv, hgathered⟩ := hends search hloop
    obtain rfl : queue = [] := by simpa [hqueue] using htraced.queue_eq
    have hdone (k : String) : done k ↔
        ∃ n, Search.Walk (Leads listed fun edge => (edgeEnds reverse edge).2) n root k := by
      rw [hinv.done_iff, hinv.found_iff]
      simp [Search.Reached, Search.Within]
    have hselects (edge : EdgeRecord) :
        LookedAt listed done [] edge ↔ ReachesEdge listed reverse root edge := by
      simp only [LookedAt, ReachesEdge, hdone, List.not_mem_nil, or_false, exists_and_right]
    refine ⟨⟨fun id edge hedge => ?_, fun _ id edge => ?_, fun _ => rfl⟩, fun _ k => ?_⟩
    · exact (hselects edge).1 ((hgathered.selected id edge).1 hedge).1
    · rw [← hselects]
      exact hgathered.selected id edge
    · rw [← hdone, hinv.done_iff]
      exact htraced.seen_iff k

/-- The edges of the root alone. -/
theorem foldlM_traverseEdge (h : ListsEdges listed edges) {looked rest : List EdgeRecord}
    (hsplit : looked ++ rest = listed root) {search : Queued String Traversal}
    (hgathered : Gathered (· ∈ looked) search.kept) :
    (∀ kept, rest.foldlM (traverseEdge false reverse maxTraversal root) search = .error kept →
      StoppedAt listed reverse edges root maxTraversal (· ∈ listed root) kept) ∧
    ∀ search', rest.foldlM (traverseEdge false reverse maxTraversal root) search = .ok search' →
      Gathered (· ∈ listed root) search'.kept := by
  induction rest generalizing looked search with
  | nil =>
    rw [List.append_nil] at hsplit
    refine ⟨fun kept hkept => (by cases hkept), fun search' hsearch => ?_⟩
    obtain rfl := Except.ok.inj hsearch
    exact hsplit ▸ hgathered
  | cons edge rest ih =>
    have hpart : looked ++ [edge] <+: listed root :=
      ⟨rest, by rw [List.append_assoc]; exact hsplit⟩
    have hnew : ∀ other, other ∈ looked → other.id ≠ edge.id := fun other hother =>
      @ListsEdges.id_ne listed edges h root looked edge hpart (fun _ => False) id other
        (Or.inr hother)
    rw [List.foldlM_cons]
    cases hvisit : traverseEdge false reverse maxTraversal root search edge with
    | error kept =>
      refine ⟨fun kept' hkept => ?_, fun search' hsearch => (by cases hsearch)⟩
      obtain rfl := Except.error.inj hkept
      obtain ⟨rfl, hlimit⟩ := traverseEdge_eq_error hvisit
      refine ⟨fun id other hother => ?_, Nat.lt_of_le_of_lt hlimit (hgathered.lt_length
        (fun other hother => ?_) (h.mem root edge (hpart.subset (by simp))) hnew)⟩
      · exact hpart.subset (List.mem_append_left _ ((hgathered.selected id other).1 hother).1)
      · exact h.mem root other (hpart.subset (List.mem_append_left _ hother))
    | ok next =>
      have hlook : Gathered _ (search.kept.look reverse edge) := hgathered.look hnew
      rw [← (traverseEdge_eq_ok hvisit).1] at hlook
      have happend : (fun other => other ∈ looked ∨ other = edge) = (· ∈ looked ++ [edge]) := by
        funext other
        simp
      rw [happend] at hlook
      exact ih (by rw [List.append_assoc]; exact hsplit) hlook

/-- **Without `transitive` the edges of the root are selected.** -/
theorem explore_direct (h : ListsEdges listed edges) {fuel : Nat} :
    ExploredAs edges maxTraversal (· ∈ listed root)
      (explore listed root false reverse maxTraversal fuel) := by
  have hstart : Gathered (· ∈ ([] : List EdgeRecord)) (Traversal.start root) :=
    Gathered.start root fun edge hnone => (by cases hnone)
  obtain ⟨hstops, hends⟩ := @foldlM_traverseEdge listed reverse edges root maxTraversal h []
    (listed root) (List.nil_append _) ⟨[], .start root⟩ hstart
  unfold explore
  rw [if_neg Bool.false_ne_true]
  cases hturn : (listed root).foldlM (traverseEdge false reverse maxTraversal root)
      ⟨[], Traversal.start root⟩ with
  | error kept =>
    have hstopped := hstops kept hturn
    refine ⟨hstopped.selected, fun hfalse => (by cases hfalse), fun hlimit => ?_⟩
    exact absurd hstopped.limit (Nat.not_lt.2 hlimit)
  | ok search =>
    have hgathered := hends search hturn
    refine ⟨fun id edge hedge => ?_, fun _ id edge => hgathered.selected id edge, fun _ => rfl⟩
    exact ((hgathered.selected id edge).1 hedge).1

end Explored

/-! ### The traversal of a snapshot -/

section Snapshot

variable (snapshot : GraphSnapshot) (reverse : Bool) (filter : GraphQueryFilter)
  (edgeKinds : EdgeKindFilter)

/-- An edge that passes the filters leads from the first node to the second. -/
def Follows (k y : String) : Prop :=
  ∃ edge, Passes snapshot filter edgeKinds edge ∧ edgeEnds reverse edge = (k, y)

/-- The node is reachable from the root over edges that pass the filters. -/
def Reachable (root k : String) : Prop :=
  ∃ n, Search.Walk (Follows snapshot reverse filter edgeKinds) n root k

/-- An edge that passes the filters and starts at a reachable node, or without `transitive` at the
root. -/
def Selected (root : String) (transitive : Bool) (edge : EdgeRecord) : Prop :=
  Passes snapshot filter edgeKinds edge ∧
    if transitive then Reachable snapshot reverse filter edgeKinds root (edgeEnds reverse edge).1
    else (edgeEnds reverse edge).1 = root

variable {snapshot reverse filter edgeKinds} {maxInspection : Nat}

/-- The edges that a traversal of the snapshot looks at. -/
abbrev listedEdges (snapshot : GraphSnapshot) (reverse : Bool) (filter : GraphQueryFilter)
    (edgeKinds : EdgeKindFilter) (maxInspection : Nat) (node : String) : List EdgeRecord :=
  edgesOf (adjacency snapshot reverse filter edgeKinds maxInspection).1 node

theorem listsEdges (unique : snapshot.UniqueIds) : ListsEdges
    (listedEdges snapshot reverse filter edgeKinds maxInspection) snapshot.edges where
  mem _ _ hedge := List.mem_of_mem_take ((adjacency_mem unique.edges).1 hedge).1
  nodup := edgesOf_nodup unique.edges
  ids := unique.edges
  once _ _ _ hk hk' := ((adjacency_mem unique.edges).1 hk).2.2.symm.trans
    ((adjacency_mem unique.edges).1 hk').2.2

theorem passes_of_listed (unique : snapshot.UniqueIds) {node : String} {edge : EdgeRecord}
    (h : edge ∈ listedEdges snapshot reverse filter edgeKinds maxInspection node) :
    Passes snapshot filter edgeKinds edge ∧ (edgeEnds reverse edge).1 = node := by
  obtain ⟨hmem, hselects, hnode⟩ := (adjacency_mem unique.edges).1 h
  exact ⟨⟨List.mem_of_mem_take hmem, hselects⟩, hnode⟩

theorem follows_of_leads (unique : snapshot.UniqueIds) {k y : String}
    (h : Leads (listedEdges snapshot reverse filter edgeKinds maxInspection)
      (fun edge => (edgeEnds reverse edge).2) k y) : Follows snapshot reverse filter edgeKinds k y := by
  obtain ⟨edge, hedge, rfl⟩ := h
  obtain ⟨hpasses, rfl⟩ := passes_of_listed unique hedge
  exact ⟨edge, hpasses, rfl⟩

/-- When all edges have been inspected, the traversal follows the edges that pass. -/
theorem leads_eq_follows (unique : snapshot.UniqueIds)
    (hcomplete : (adjacency snapshot reverse filter edgeKinds maxInspection).2 = true) :
    Leads (listedEdges snapshot reverse filter edgeKinds maxInspection)
      (fun edge => (edgeEnds reverse edge).2) = Follows snapshot reverse filter edgeKinds := by
  funext k y
  refine propext ⟨follows_of_leads unique, ?_⟩
  rintro ⟨edge, hpasses, hends⟩
  refine ⟨edge, (adjacency_complete unique.edges hcomplete).2 ⟨hpasses, ?_⟩, ?_⟩
  · rw [hends]
  · exact congrArg Prod.snd hends

/-- What the traversal looks at is selected, and all of it if all edges have been inspected. -/
theorem selected_of_reachesEdge (unique : snapshot.UniqueIds) {root : String} {edge : EdgeRecord}
    (h : ReachesEdge (listedEdges snapshot reverse filter edgeKinds maxInspection) reverse root edge) :
    Selected snapshot reverse filter edgeKinds root true edge := by
  obtain ⟨k, n, hwalk, hedge⟩ := h
  obtain ⟨hpasses, rfl⟩ := passes_of_listed unique hedge
  exact ⟨hpasses, n, hwalk.mono fun _ _ => follows_of_leads unique⟩

theorem reachesEdge_iff (unique : snapshot.UniqueIds)
    (hcomplete : (adjacency snapshot reverse filter edgeKinds maxInspection).2 = true)
    {root : String} {edge : EdgeRecord} :
    ReachesEdge (listedEdges snapshot reverse filter edgeKinds maxInspection) reverse root edge ↔
      Selected snapshot reverse filter edgeKinds root true edge := by
  refine ⟨selected_of_reachesEdge unique, ?_⟩
  rintro ⟨hpasses, n, hwalk⟩
  refine ⟨_, n, ?_, (adjacency_complete unique.edges hcomplete).2 ⟨hpasses, rfl⟩⟩
  rwa [leads_eq_follows unique hcomplete]

/-- The traversal of a snapshot selects what it should, with and without limits. -/
structure TraversedAs (snapshot : GraphSnapshot) (reverse : Bool) (filter : GraphQueryFilter)
    (edgeKinds : EdgeKindFilter) (root : String) (transitive : Bool) (kept : Traversal)
    (ended : Bool) : Prop where
  sound : ∀ (id : String) (edge : EdgeRecord), kept.selectedEdges[id]? = some edge →
    Selected snapshot reverse filter edgeKinds root transitive edge
  complete : ended = true → ∀ (id : String) (edge : EdgeRecord),
    kept.selectedEdges[id]? = some edge ↔
      Selected snapshot reverse filter edgeKinds root transitive edge ∧ edge.id = id
  visited : ended = true → transitive = true → ∀ k, k ∈ kept.visited ↔
    Reachable snapshot reverse filter edgeKinds root k

theorem explore_traversed (unique : snapshot.UniqueIds) {root : String} {transitive : Bool}
    {maxTraversal : Nat} {explored : Traversal × Bool}
    (h : explore (listedEdges snapshot reverse filter edgeKinds maxInspection) root transitive reverse
      maxTraversal (snapshot.edges.length + 1) = explored) :
    TraversedAs snapshot reverse filter edgeKinds root transitive explored.1
        ((adjacency snapshot reverse filter edgeKinds maxInspection).2 && explored.2) ∧
      (snapshot.edges.length ≤ maxTraversal → explored.2 = true) := by
  subst h
  have hlists := @listsEdges snapshot reverse filter edgeKinds maxInspection unique
  cases transitive with
  | true =>
    obtain ⟨hexplored, hvisited⟩ := @explore_transitive _ reverse _ root maxTraversal hlists
    refine ⟨⟨fun id edge hedge => ?_, fun hcomplete id edge => ?_, fun hcomplete _ k => ?_⟩,
      hexplored.ends⟩
    · exact selected_of_reachesEdge unique (hexplored.sound id edge hedge)
    · obtain ⟨hinspected, hended⟩ := Bool.and_eq_true_iff.1 hcomplete
      rw [hexplored.complete hended, reachesEdge_iff unique hinspected]
    · obtain ⟨hinspected, hended⟩ := Bool.and_eq_true_iff.1 hcomplete
      rw [hvisited hended, leads_eq_follows unique hinspected, Reachable]
  | false =>
    have hexplored := @explore_direct _ reverse _ root maxTraversal hlists
      (snapshot.edges.length + 1)
    refine ⟨⟨fun id edge hedge => ?_, fun hcomplete id edge => ?_, fun _ hfalse => (by cases hfalse)⟩,
      hexplored.ends⟩
    · exact passes_of_listed unique (hexplored.sound id edge hedge)
    · obtain ⟨hinspected, hended⟩ := Bool.and_eq_true_iff.1 hcomplete
      rw [hexplored.complete hended, adjacency_complete unique.edges hinspected]
      rfl

/-! ### What is returned -/

/-- The nodes that are returned are the visited ones but the root. -/
theorem selectNodes_mem (unique : snapshot.UniqueIds) {maximum : Nat} {root : String}
    {visited : ExtTreeSet String} : Ensures (selectNodes maximum snapshot root visited) fun nodes =>
      ∀ node, node ∈ nodes ↔ node ∈ snapshot.nodes ∧ node.id ≠ root ∧ node.id ∈ visited := by
  have hselected : Ensures (snapshot.nodes.foldlM (selectNode maximum root visited) ∅)
      fun selected => ∀ (id : String) (node : NodeRecord), selected[id]? = some node ↔
        (node ∈ snapshot.nodes ∧ node.id ≠ root ∧ node.id ∈ visited) ∧ node.id = id := by
    refine Ensures.foldlM (motive := fun (nodes : List NodeRecord)
      (selected : ExtTreeMap String NodeRecord) => ∀ (id : String) (node : NodeRecord),
        selected[id]? = some node ↔
          (node ∈ nodes ∧ node.id ≠ root ∧ node.id ∈ visited) ∧ node.id = id) ?_ ?_
    · intro id node
      simp
    intro done next selected hpart hselected
    have hdistinct : ∀ other ∈ done, other.id ≠ next.id := by
      have := unique.nodes.sublist (hpart.sublist.map NodeRecord.id)
      rw [List.map_append, List.nodup_append] at this
      exact fun other hother => this.2.2 _ (List.mem_map_of_mem hother) _ (by simp)
    refine Ensures.after fun _ => Ensures.ite (fun htaken => Ensures.after fun _ => ?_) fun hleft => ?_
    · refine Ensures.pure fun id node => ?_
      rw [getElem?_insert, List.mem_append, List.mem_singleton]
      split_ifs with hid
      · constructor
        · intro hnode
          obtain rfl := Option.some.inj hnode
          exact ⟨⟨Or.inr rfl, htaken⟩, hid.symm⟩
        · rintro ⟨⟨hnode | rfl, -⟩, hsame⟩
          · exact absurd (hsame.trans hid) (hdistinct node hnode)
          · rfl
      · rw [hselected]
        refine and_congr_left fun hsame => and_congr_left fun _ => (or_iff_left ?_).symm
        rintro rfl
        exact hid hsame.symm
    · refine Ensures.pure fun id node => ?_
      rw [hselected, List.mem_append, List.mem_singleton]
      refine and_congr_left fun _ => and_congr_left fun htaken => (or_iff_left ?_).symm
      rintro rfl
      exact hleft htaken
  refine hselected.bind fun selected hselected => ?_
  have hcopies : Ensures ((values selected).mapM fun node => do
      SelectorWork.step maximum
      return node) (· = (values selected).map id) :=
    Ensures.mapM fun node _ => Ensures.after fun _ => Ensures.pure rfl
  refine hcopies.mono fun nodes hnodes node => ?_
  rw [hnodes, List.map_id, mem_values]
  simp only [hselected, exists_and_left, exists_eq', and_true]

/-- Every selected edge is returned, with a step about it. -/
theorem outputEdges_eq {F : FloatText} {maximum : Nat} {edges : List EdgeRecord} :
    Ensures (outputEdges F maximum snapshot filter edges) fun output =>
      output.map Prod.snd = edges ∧ (output.map Prod.fst).map PathStep.edge = edges := by
  refine Ensures.after fun projection => ?_
  have hpairs : Ensures (edges.mapM fun edge => do
      let step ← projection.materialize F maximum edge
      let copy ← cloneEdgeOutput maximum edge
      return (step, copy)) (List.Forall₂ (fun edge output => output.2 = edge ∧ output.1.edge = edge)
        edges) :=
    Ensures.mapM_forall₂ fun edge _ => materialize_edge.bind fun step hstep =>
      (Ensures.after fun _ => Ensures.pure rfl : Ensures (cloneEdgeOutput maximum edge) (· = edge)).bind
        fun copy hcopy => Ensures.pure ⟨hcopy, hstep⟩
  refine hpairs.mono fun output houtput => ?_
  clear hpairs
  induction houtput with
  | nil => exact ⟨rfl, rfl⟩
  | cons hhead _ ih => simp only [List.map_cons, hhead.1, hhead.2, ih, and_self]

theorem runPathSteps_ok {α : Type} {work : PathStepWork α} {a : α} {P : α → Prop}
    (hensures : Ensures work P) (h : runPathSteps work = .ok a) : P a := by
  unfold runPathSteps at h
  cases hrun : Metered.run work ⟨0, 0⟩ with
  | error error => rw [hrun] at h; cases h
  | ok value =>
    rw [hrun] at h
    obtain rfl := Except.ok.inj h
    exact hensures.run hrun

/-- The parts of a result. -/
theorem traverseBounded_ok (unique : snapshot.UniqueIds) {F : FloatText} {root : NodeRecord}
    {transitive : Bool} {maxTraversal : Nat} {result : BoundedTraversalResult}
    (h : traverseBounded F snapshot root transitive reverse filter edgeKinds maxTraversal
      maxInspection = .ok result) :
    ∃ kept, TraversedAs snapshot reverse filter edgeKinds root.id transitive kept result.complete ∧
      (snapshot.edges.length ≤ maxTraversal → snapshot.edges.length ≤ maxInspection →
        result.complete = true) ∧
      (∀ edge, edge ∈ result.result.edges ↔ ∃ id : String, kept.selectedEdges[id]? = some edge) ∧
      (∀ node, node ∈ result.result.nodes ↔
        node ∈ snapshot.nodes ∧ node.id ≠ root.id ∧ node.id ∈ kept.visited) ∧
      result.result.steps.map PathStep.edge = result.result.edges := by
  unfold traverseBounded at h
  dsimp only at h
  simp only [Fallible.bind_eq_ok] at h
  obtain ⟨nodes, hnodes, output, houtput, hresult⟩ := h
  obtain ⟨hedges, hsteps⟩ := runPathSteps_ok outputEdges_eq houtput
  have hselected := (selectNodes_mem unique).run hnodes
  obtain ⟨htraversed, hended⟩ := @explore_traversed snapshot reverse filter edgeKinds maxInspection
    unique root.id transitive maxTraversal _ rfl
  rw [← Except.ok.inj hresult]
  refine ⟨_, htraversed, fun hlimit hinspection => ?_, fun edge => ?_, hselected, ?_⟩
  · exact Bool.and_eq_true_iff.2 ⟨decide_eq_true hinspection, hended hlimit⟩
  · rw [hedges, mem_values]
  · rw [hsteps, hedges]

/-- **A complete transitive result is exact, and an incomplete result says that it is.** -/
theorem traverseBounded_exact (F : FloatText) (snapshot : GraphSnapshot)
    (unique : snapshot.UniqueIds) (root : NodeRecord) (transitive reverse : Bool)
    (filter : GraphQueryFilter) (edgeKinds : EdgeKindFilter) (maxTraversal maxInspection : Nat)
    (result : BoundedTraversalResult)
    (h : traverseBounded F snapshot root transitive reverse filter edgeKinds maxTraversal
      maxInspection = .ok result) :
    (result.complete = true → transitive = true →
      (∀ edge, edge ∈ result.result.edges ↔ Passes snapshot filter edgeKinds edge ∧
        Reachable snapshot reverse filter edgeKinds root.id (edgeEnds reverse edge).1) ∧
      ∀ node, node ∈ result.result.nodes ↔ node ∈ snapshot.nodes ∧ node.id ≠ root.id ∧
        Reachable snapshot reverse filter edgeKinds root.id node.id) ∧
    ∀ unlimitedTraversal unlimitedInspection unlimited,
      snapshot.edges.length ≤ unlimitedTraversal → snapshot.edges.length ≤ unlimitedInspection →
      traverseBounded F snapshot root transitive reverse filter edgeKinds unlimitedTraversal
        unlimitedInspection = .ok unlimited →
      unlimited.complete = true ∧
      (∀ edge ∈ result.result.edges, edge ∈ unlimited.result.edges) ∧
      ((∃ edge ∈ unlimited.result.edges, edge ∉ result.result.edges) → result.complete = false) := by
  obtain ⟨kept, htraversed, -, hedges, hnodes, -⟩ := traverseBounded_ok unique h
  constructor
  · rintro hcomplete rfl
    refine ⟨fun edge => ?_, fun node => ?_⟩
    · rw [hedges]
      simp only [htraversed.complete hcomplete, exists_and_left, exists_eq', and_true]
      rfl
    · rw [hnodes, htraversed.visited hcomplete rfl]
  · intro unlimitedTraversal unlimitedInspection unlimited hlimit hinspection hunlimited
    obtain ⟨kept', htraversed', hended, hedges', -, -⟩ := traverseBounded_ok unique hunlimited
    have hcomplete := hended hlimit hinspection
    have hall (edge : EdgeRecord) : edge ∈ unlimited.result.edges ↔
        Selected snapshot reverse filter edgeKinds root.id transitive edge := by
      rw [hedges']
      simp only [htraversed'.complete hcomplete, exists_and_left, exists_eq', and_true]
    refine ⟨hcomplete, fun edge hedge => ?_, ?_⟩
    · obtain ⟨id, hid⟩ := (hedges edge).1 hedge
      exact (hall edge).2 (htraversed.sound id edge hid)
    · rintro ⟨edge, hedge, hmissing⟩
      by_contra hclaimed
      rw [Bool.not_eq_false] at hclaimed
      refine hmissing ((hedges edge).2 ⟨edge.id, ?_⟩)
      exact (htraversed.complete hclaimed edge.id edge).2 ⟨(hall edge).1 hedge, rfl⟩

end Snapshot

namespace TraverseSample

/-- A filter that lets all edges pass. -/
def everything : GraphQueryFilter := ⟨[], [], [], []⟩

/-- The traversal of a circle of three files from one of them. -/
def traversal : Except QueryError BoundedTraversalResult :=
  traverseBounded .plain Sample.snapshot (Sample.file "a" "a.rs") true false everything .unrestricted
    10 10

theorem traversal_complete :
    traversal.toOption.map BoundedTraversalResult.complete = some true := by
  decide +kernel

end TraverseSample

open TraverseSample in
theorem traverseBounded_exact_circle :
    ∃ result, traversal = .ok result ∧ result.complete = true ∧
      ∀ edge, edge ∈ result.result.edges ↔ Passes Sample.snapshot everything .unrestricted edge ∧
        Reachable Sample.snapshot false everything .unrestricted "a" edge.source := by
  cases h : traversal with
  | error e =>
    have hcomplete := traversal_complete
    rw [h] at hcomplete
    cases hcomplete
  | ok result =>
    have hcomplete := traversal_complete
    rw [h] at hcomplete
    have hcomplete : result.complete = true := Option.some.inj hcomplete
    obtain ⟨hexact, -⟩ := traverseBounded_exact .plain Sample.snapshot Sample.snapshot_unique
      (Sample.file "a" "a.rs") true false everything .unrestricted 10 10 result h
    exact ⟨result, rfl, hcomplete, (hexact hcomplete rfl).1⟩

end Query
