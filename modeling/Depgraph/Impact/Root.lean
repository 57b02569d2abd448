import Depgraph.Impact.Exact
import Depgraph.Library.Breadth

/-!
# The impact on a root

`impact`, from the root that its selector has been resolved to: a search along the edges from the root
to a changed node, and if there is one, the reverse traversal from the root. Both share one budget.

* `reversePathIndexFromSeeds_free`: a traversal that no limit has stopped is one without limits,
  whatever its budget had admitted before;
* `impact_exact`: what a complete result says.
-/

namespace Impact

open Json Protocol Store OrderedMap Metered SortDedup Fallible Std Breadth

def TraversalBudget.new (rootId : String) : TraversalBudget :=
  ⟨(∅ : ExtTreeSet String).insert rootId, ∅, true, ∅⟩

structure ImpactNode where
  node : NodeRecord
  depth : Nat
  changedNodeId : String
  dependencyPath : List PathStep

structure ImpactResult where
  root : NodeRecord
  rootImpacted : Bool
  complete : Bool
  filters : ImpactFilters
  changedSet : Option GitChangedSet
  mappings : List ChangedNodeMapping
  changedNodes : List NodeRecord
  impacts : List ImpactNode
  diagnostics : List ImpactDiagnostic

/-! ### The search for a changed node -/

/-- What the search keeps beside its queue. -/
structure RootSearch where
  seen : ExtTreeSet String
  predecessor : ExtTreeMap String String
  budget : TraversalBudget

/-- The target of an edge is entered. -/
def RootSearch.enter (kept : RootSearch) (edge : EdgeRecord) (budget : TraversalBudget) :
    RootSearch :=
  ⟨kept.seen.insert edge.target, kept.predecessor.insert edge.target edge.id, budget⟩

/-- A turn of the loop over the edges of a node. A limit ends the search, and a changed node does. -/
def rootEdge (filters : ImpactFilters) (changedIds : ExtTreeSet String) (_nodeId : String)
    (search : Queued String RootSearch) (edge : EdgeRecord) :
    Except (RootSearch × Option String) (Queued String RootSearch) :=
  let (admitted, budget) := search.kept.budget.admitEdge filters edge
  if !admitted then .error ({ search.kept with budget }, none)
  else if edge.target ∈ search.kept.seen then
    .ok { search with kept := { search.kept with budget } }
  else
    let (admitted, budget) := budget.admitNode filters edge.target
    if !admitted then .error ({ search.kept with budget }, none)
    else if edge.target ∈ changedIds then
      .error (search.kept.enter edge budget, some edge.target)
    else .ok ⟨search.queue ++ [edge.target], search.kept.enter edge budget⟩

/-- The loop that follows the predecessors back, with the number of steps that it may still take. -/
def followPredecessors (edges : ExtTreeMap String EdgeRecord)
    (predecessor : ExtTreeMap String String) (rootId : String) :
    Nat → String → List EdgeRecord → Except ImpactError (Option (List EdgeRecord))
  | 0, current, path =>
    if current = rootId then .ok (some path)
    else .error (.pathMaterializationExhausted maxDependencyPathSteps)
  | remaining + 1, current, path =>
    if current = rootId then .ok (some path)
    else
      match predecessor[current]?.bind (edges[·]?) with
      | none => .ok none
      | some edge =>
        followPredecessors edges predecessor rootId remaining edge.source (edge :: path)

/-- `shortest_path_to_changed`: the path, and the budget. -/
def shortestPathToChanged (rootId : String) (changedIds : ExtTreeSet String) (forward : Adjacency)
    (edges : ExtTreeMap String EdgeRecord) (filters : ImpactFilters) (budget : TraversalBudget) :
    Except ImpactError (Option (List EdgeRecord) × TraversalBudget) :=
  if changedIds.isEmpty then .ok (none, budget)
  else
    match loop forward.of (rootEdge filters changedIds) (forward.edges.length + 1)
      ⟨[rootId], ⟨(∅ : ExtTreeSet String).insert rootId, ∅, budget⟩⟩ with
    | .ok search => .ok (none, search.kept.budget)
    | .error (kept, none) => .ok (none, kept.budget)
    | .error (kept, some found) => do
      let path ← followPredecessors edges kept.predecessor rootId maxDependencyPathSteps found []
      return (path, kept.budget)

/-! ### The impacts -/

section Impacts

variable (F : FloatText) (maximum : Nat) (projection : PathStepProjection)
  (edges : ExtTreeMap String EdgeRecord) (paths : ReversePathIndex) (rootId : String)

/-- The loop that follows the successors to the root. The preflight has bounded its steps. -/
def followToRoot : Nat → String → List PathStep → PathStepWork (List PathStep)
  | 0, current, path =>
    if current = rootId then return path
    else Metered.fail (.message "impact reverse path successor is unavailable")
  | fuel + 1, current, path =>
    if current = rootId then return path
    else
      match paths.successor[current]? with
      | none => Metered.fail (.message "impact reverse path successor is unavailable")
      | some edgeId =>
        match edges[edgeId]? with
        | none => Metered.fail (.message "impact reverse path edge is unavailable")
        | some edge => do
          let step ← projection.materialize F maximum edge
          followToRoot fuel edge.target (path ++ [step])

/-- The impact on a node: its path to the root, and the path of the root. -/
def rootImpactNode (rootPath : List EdgeRecord) (changedNodeId : String)
    (entry : NodeRecord × String × Nat) : PathStepWork ImpactNode := do
  let toRoot ← followToRoot F maximum projection edges paths rootId (maxDependencyPathSteps + 1)
    entry.2.1 []
  let fromRoot ← rootPath.mapM (projection.materialize F maximum)
  return ⟨entry.1, entry.2.2, changedNodeId, toRoot ++ fromRoot⟩

end Impacts

section Impact

variable (F : FloatText) (snapshot : GraphSnapshot) (root : NodeRecord) (filters : ImpactFilters)

/-- The changed node that the path of the root leads to. -/
def pathEnd (rootPath : List EdgeRecord) : String :=
  (rootPath.getLast?.map EdgeRecord.target).getD root.id

/-- The impacts when the root is impacted, and the budget. -/
def impactsOfRoot (rootPath : List EdgeRecord) (reverse : Adjacency) (budget : TraversalBudget) :
    Except ImpactError (List ImpactNode × TraversalBudget) := do
  let (paths, budget) := reversePathIndexFromSeeds [root.id] reverse filters budget
  preflightPathMaterialization paths rootPath.length (nodeMap snapshot)
  let projectionEdges ← (values paths.successor).mapM (pathEdge (edgeMap snapshot))
  let impacts ← Metered.run (do
    let projection ← newMaterializer F maxGraphServicePreprocessingWorkItems snapshot
      ⟨filters.phases, filters.profiles, filters.sessions, filters.environments⟩
      (projectionEdges ++ rootPath)
    (impactEntries snapshot paths).mapM
      (rootImpactNode F maxGraphServicePreprocessingWorkItems projection (edgeMap snapshot) paths
        root.id rootPath (pathEnd root rootPath))) ⟨0, 0⟩
  return (impacts, budget)

/-- The mappings of the changes, and the identities of the changed nodes. -/
def changesOfRoot (changedSet : Option GitChangedSet) :
    Except ImpactError (List ChangedNodeMapping × ExtTreeSet String) :=
  match changedSet with
  | none => .ok ([], (∅ : ExtTreeSet String).insert root.id)
  | some changedSet => do
    let mappings ← mapChangedSet snapshot changedSet
    let changedIds ← changedNodeIds mappings
    return (mappings, changedIds)

/-- The path of the root to a changed node, if it has one, and the budget. -/
def rootPathOf (changedIds : ExtTreeSet String) (forward : Adjacency) :
    Except ImpactError (Option (List EdgeRecord) × TraversalBudget) :=
  if root.id ∈ changedIds then .ok (some [], .new root.id)
  else shortestPathToChanged root.id changedIds forward (edgeMap snapshot) filters (.new root.id)

/-- The impacts, of which there are none unless the root is impacted. -/
def impactsOf (rootPath : Option (List EdgeRecord)) (reverse : Adjacency)
    (budget : TraversalBudget) : Except ImpactError (List ImpactNode × TraversalBudget) :=
  match rootPath with
  | none => .ok ([], budget)
  | some rootPath => impactsOfRoot F snapshot root filters rootPath reverse budget

/-- `impact`, behind the selector. -/
def impact (changedSet : Option GitChangedSet) : Except ImpactError ImpactResult := do
  let (mappings, changedIds) ← changesOfRoot snapshot root changedSet
  let runtimeContexts ← runtimeContextIndex snapshot filters
  let forward ← adjacency F snapshot false filters runtimeContexts
  let reverse ← adjacency F snapshot true filters runtimeContexts
  let (rootPath, budget) ← rootPathOf snapshot root filters changedIds forward
  let (impacts, budget) ← impactsOf F snapshot root filters rootPath reverse budget
  return { root
           rootImpacted := rootPath.isSome
           complete := budget.complete
           filters
           changedSet
           mappings
           changedNodes := changedIds.toList.filterMap fun id => (nodeMap snapshot)[id]?
           impacts
           diagnostics := changedSetDiagnostics budget mappings }

end Impact

/-! ### A traversal that no limit stops -/

section Free

theorem size_le_of_subset {ids ids' : ExtTreeSet String} (h : ∀ id ∈ ids, id ∈ ids') :
    ids.size ≤ ids'.size := by
  have hnodup : ids.toList.Nodup :=
    (ExtTreeSet.ordered_toList (t := ids)).imp fun hlt => by
      rintro rfl
      rw [compare_self] at hlt
      cases hlt
  rw [← ExtTreeSet.length_toList, ← ExtTreeSet.length_toList]
  refine (hnodup.subperm fun id hid => ?_).length_le
  exact ExtTreeSet.mem_toList.2 (h id (ExtTreeSet.mem_toList.1 hid))

/-- What is known to, or has room in, a budget has room in a smaller one. -/
theorem size_lt_of_room {ids free : ExtTreeSet String} {id : String} {limit : Nat}
    (h : ∀ id ∈ free, id ∈ ids) (hroom : (id ∈ ids ∧ ids.size ≤ limit) ∨ ids.size < limit)
    (hnew : id ∉ free) : free.size < limit := by
  rcases hroom with ⟨hid, hsize⟩ | hsize
  · have hmore : (free.insert id).size ≤ ids.size := by
      refine size_le_of_subset fun other hother => ?_
      rcases mem_insert.1 hother with rfl | hother
      · exact hid
      · exact h other hother
    rw [ExtTreeSet.size_insert, if_neg (by simpa using hnew)] at hmore
    omega
  · exact Nat.lt_of_le_of_lt (size_le_of_subset h) hsize

variable {adjacency : Adjacency} {filters limits : ImpactFilters} {search search' free : PathSearch}
  {depth : Nat} {edge : EdgeRecord}

/-- A search, and the same search with a budget that has admitted less. -/
structure Freed (limits : ImpactFilters) (search free : PathSearch) : Prop where
  queue : free.queue = search.queue
  seen : free.seen = search.seen
  paths : free.paths = search.paths
  nodes : ∀ id ∈ free.budget.nodeIds, id ∈ search.budget.nodeIds
  edges : ∀ id ∈ free.budget.edgeIds, id ∈ search.budget.edgeIds
  nodeCount : search.budget.nodeIds.size ≤ limits.maxNodes
  edgeCount : search.budget.edgeIds.size ≤ limits.maxEdges
  complete : free.budget.complete = true

/-- A turn that a limit ends leaves an incomplete budget. -/
theorem visitEdge_error (h : visitEdge filters depth search edge = .error search') :
    search'.budget.complete = false := by
  unfold visitEdge at h
  have hedge := search.budget.admitEdge_admission filters edge
  have hnode := (search.budget.admitEdge filters edge).2.admitNode_admission filters edge.source
  cases hadmitted : (search.budget.admitEdge filters edge).1 with
  | false =>
    simp only [hadmitted, Bool.not_false, if_true] at h
    obtain rfl := Except.error.inj h
    exact hedge.incomplete_of_false hadmitted
  | true =>
    simp only [hadmitted, Bool.not_true, Bool.false_eq_true, if_false] at h
    split_ifs at h with hseen hrefused
    · obtain rfl := Except.error.inj h
      exact hnode.incomplete_of_false (by simpa using hrefused)

/-- An edge that is admitted is admitted by the smaller budget. -/
theorem Freed.admitEdge (h : Freed limits search free) (hmax : filters.maxEdges ≤ limits.maxEdges)
    (hadmitted : (search.budget.admitEdge filters edge).1 = true) :
    (free.budget.admitEdge limits edge).1 = true ∧
      Freed limits { search with budget := (search.budget.admitEdge filters edge).2 }
        { free with budget := (free.budget.admitEdge limits edge).2 } := by
  unfold TraversalBudget.admitEdge at hadmitted ⊢
  by_cases hfree : edge.id ∈ free.budget.edgeIds
  · rw [if_pos hfree, if_pos (h.edges _ hfree)]
    exact ⟨rfl, { h with }⟩
  · rw [if_neg hfree]
    by_cases hknown : edge.id ∈ search.budget.edgeIds
    · rw [if_pos hknown, if_neg (Nat.not_le.2
        (size_lt_of_room h.edges (Or.inl ⟨hknown, h.edgeCount⟩) hfree))]
      refine ⟨rfl, { h with edges := fun id hid => ?_ }⟩
      rcases mem_insert.1 hid with rfl | hid
      · exact hknown
      · exact h.edges id hid
    · rw [if_neg hknown] at hadmitted ⊢
      by_cases hfull : filters.maxEdges ≤ search.budget.edgeIds.size
      · rw [if_pos hfull] at hadmitted
        cases hadmitted
      · rw [if_neg hfull, if_neg (Nat.not_le.2
          (size_lt_of_room h.edges (Or.inr (by omega)) hfree))]
        refine ⟨rfl, { h with edges := fun id hid => ?_, edgeCount := size_insert_le_limit (by omega) }⟩
        rcases mem_insert.1 hid with rfl | hid
        · exact mem_insert.2 (Or.inl rfl)
        · exact mem_insert.2 (Or.inr (h.edges id hid))

theorem Freed.admitNode (h : Freed limits search free) (hmax : filters.maxNodes ≤ limits.maxNodes)
    {nodeId : String} (hadmitted : (search.budget.admitNode filters nodeId).1 = true) :
    (free.budget.admitNode limits nodeId).1 = true ∧
      Freed limits { search with budget := (search.budget.admitNode filters nodeId).2 }
        { free with budget := (free.budget.admitNode limits nodeId).2 } := by
  unfold TraversalBudget.admitNode at hadmitted ⊢
  by_cases hfree : nodeId ∈ free.budget.nodeIds
  · rw [if_pos hfree, if_pos (h.nodes _ hfree)]
    exact ⟨rfl, { h with }⟩
  · rw [if_neg hfree]
    by_cases hknown : nodeId ∈ search.budget.nodeIds
    · rw [if_pos hknown, if_neg (Nat.not_le.2
        (size_lt_of_room h.nodes (Or.inl ⟨hknown, h.nodeCount⟩) hfree))]
      refine ⟨rfl, { h with nodes := fun id hid => ?_ }⟩
      rcases mem_insert.1 hid with rfl | hid
      · exact hknown
      · exact h.nodes id hid
    · rw [if_neg hknown] at hadmitted ⊢
      by_cases hfull : filters.maxNodes ≤ search.budget.nodeIds.size
      · rw [if_pos hfull] at hadmitted
        cases hadmitted
      · rw [if_neg hfull, if_neg (Nat.not_le.2
          (size_lt_of_room h.nodes (Or.inr (by omega)) hfree))]
        refine ⟨rfl, { h with nodes := fun id hid => ?_, nodeCount := size_insert_le_limit (by omega) }⟩
        rcases mem_insert.1 hid with rfl | hid
        · exact mem_insert.2 (Or.inl rfl)
        · exact mem_insert.2 (Or.inr (h.nodes id hid))

/-- A turn of the search is a turn of the search with the smaller budget. -/
theorem Freed.visitEdge (h : Freed limits search free) (hnodes : filters.maxNodes ≤ limits.maxNodes)
    (hedges : filters.maxEdges ≤ limits.maxEdges)
    (hvisit : visitEdge filters depth search edge = .ok search') :
    ∃ free', Impact.visitEdge limits depth free edge = .ok free' ∧ Freed limits search' free' := by
  unfold Impact.visitEdge at hvisit ⊢
  cases hedge : (search.budget.admitEdge filters edge).1 with
  | false =>
    simp only [hedge, Bool.not_false, if_true] at hvisit
    cases hvisit
  | true =>
    obtain ⟨hfree, hfreed⟩ := h.admitEdge hedges hedge
    simp only [hedge, hfree, Bool.not_true, Bool.false_eq_true, if_false, h.seen] at hvisit ⊢
    by_cases hseen : edge.source ∈ search.seen
    · rw [if_pos hseen] at hvisit ⊢
      obtain rfl := Except.ok.inj hvisit
      exact ⟨_, rfl, { hfreed with seen := rfl }⟩
    · rw [if_neg hseen] at hvisit ⊢
      cases hnode : ((search.budget.admitEdge filters edge).2.admitNode filters edge.source).1 with
      | false =>
        simp only [hnode, Bool.not_false, if_true] at hvisit
        cases hvisit
      | true =>
        obtain ⟨hfree', hfreed'⟩ := hfreed.admitNode hnodes hnode
        simp only [hnode, hfree', Bool.not_true, Bool.false_eq_true, if_false] at hvisit ⊢
        obtain rfl := Except.ok.inj hvisit
        refine ⟨_, rfl, { hfreed' with queue := ?_, seen := ?_, paths := ?_ }⟩
        · simp only [enterSource, h.queue]
        · rfl
        · simp only [enterSource, h.paths]

theorem Freed.visits (h : Freed limits search free) (hnodes : filters.maxNodes ≤ limits.maxNodes)
    (hedges : filters.maxEdges ≤ limits.maxEdges) {edges : List EdgeRecord} :
    (∀ stopped, edges.foldlM (Impact.visitEdge filters depth) search = .error stopped →
      stopped.budget.complete = false) ∧
    ∀ search', edges.foldlM (Impact.visitEdge filters depth) search = .ok search' →
      ∃ free', edges.foldlM (Impact.visitEdge limits depth) free = .ok free' ∧
        Freed limits search' free' := by
  induction edges generalizing search free with
  | nil =>
    refine ⟨fun stopped hstopped => (by cases hstopped), fun search' hsearch => ?_⟩
    obtain rfl := Except.ok.inj hsearch
    exact ⟨free, rfl, h⟩
  | cons edge edges ih =>
    rw [List.foldlM_cons, List.foldlM_cons]
    cases hvisit : Impact.visitEdge filters depth search edge with
    | error stopped =>
      refine ⟨fun stopped' hstopped => ?_, fun search' hsearch => (by cases hsearch)⟩
      obtain rfl := Except.error.inj hstopped
      exact visitEdge_error hvisit
    | ok next =>
      obtain ⟨free', hfree, hfreed⟩ := h.visitEdge hnodes hedges hvisit
      rw [hfree]
      exact ih hfreed

/-- **A search that ends with a complete budget is a search with any smaller budget.** -/
theorem Freed.searchLoop (h : Freed limits search free) (hnodes : filters.maxNodes ≤ limits.maxNodes)
    (hedges : filters.maxEdges ≤ limits.maxEdges) (hdepth : limits.depth = filters.depth) {fuel : Nat}
    (hcomplete : (Impact.searchLoop adjacency filters fuel search).budget.complete = true) :
    Freed limits (Impact.searchLoop adjacency filters fuel search)
      (Impact.searchLoop adjacency limits fuel free) := by
  induction fuel generalizing search free with
  | zero => exact h
  | succ fuel ih =>
    rw [Impact.searchLoop] at hcomplete
    rw [Impact.searchLoop, Impact.searchLoop, h.queue]
    cases hqueue : search.queue with
    | nil => exact h
    | cons entry queue =>
      obtain ⟨k, n⟩ := entry
      have hpopped : Freed limits { search with queue } { free with queue } := { h with queue := rfl }
      have hlimit : atLimit limits n = atLimit filters n := by rw [atLimit, atLimit, hdepth]
      simp only [hqueue, hlimit] at hcomplete ⊢
      split_ifs at hcomplete ⊢ with hexpands
      · exact ih hpopped hcomplete
      · obtain ⟨hstops, hends⟩ := @Freed.visits filters limits _ _ n hpopped hnodes hedges
          (adjacency.of k)
        cases hscan : (adjacency.of k).foldlM (Impact.visitEdge filters n) { search with queue } with
        | error stopped =>
          rw [hscan] at hcomplete
          exact absurd (hcomplete.symm.trans (hstops stopped hscan)) (by simp)
        | ok next =>
          obtain ⟨free', hfree, hfreed⟩ := hends next hscan
          rw [hscan] at hcomplete
          rw [hfree]
          exact ih hfreed hcomplete

/-- **A complete traversal from a node is exact, whatever its budget had admitted before.** -/
theorem reversePathIndexFromSeeds_free {rootId : String} {budget : TraversalBudget}
    (hroot : rootId ∈ budget.nodeIds)
    (hcomplete : (reversePathIndexFromSeeds [rootId] adjacency filters budget).2.complete = true) :
    (∀ k n, (reversePathIndexFromSeeds [rootId] adjacency filters budget).1.depths[k]? = some n ↔
      Search.IsDistance adjacency.Leads (· = rootId) k n ∧ Search.Within filters.depth n) ∧
    ∀ k n, (reversePathIndexFromSeeds [rootId] adjacency filters budget).1.depths[k]? = some n →
      (reversePathIndexFromSeeds [rootId] adjacency filters budget).1.Linked adjacency (· = rootId)
        k n := by
  -- limits that neither of the two budgets reaches
  obtain ⟨limits, hlimits⟩ : ∃ limits : ImpactFilters, limits = { filters with
      maxNodes := max filters.maxNodes budget.nodeIds.size
      maxEdges := max filters.maxEdges budget.edgeIds.size } := ⟨_, rfl⟩
  have hmember : ∀ id ∈ (TraversalBudget.new rootId).nodeIds, id = rootId := fun id hid =>
    (mem_insert.1 hid).resolve_right ExtTreeSet.not_mem_empty
  have hstart : Freed limits ([rootId].foldl seedPath ⟨[], ∅, ⟨∅, ∅⟩, budget⟩)
      ([rootId].foldl seedPath ⟨[], ∅, ⟨∅, ∅⟩, .new rootId⟩) := by
    simp only [List.foldl_cons, List.foldl_nil, seedPath, if_neg ExtTreeSet.not_mem_empty]
    refine ⟨rfl, rfl, rfl, fun id hid => ?_, fun id hid => ?_, ?_, ?_, rfl⟩
    · rwa [hmember id hid]
    · exact absurd hid ExtTreeSet.not_mem_empty
    · rw [hlimits]
      exact Nat.le_max_right _ _
    · rw [hlimits]
      exact Nat.le_max_right _ _
  have hfreed := hstart.searchLoop (by rw [hlimits]; exact Nat.le_max_left _ _)
    (by rw [hlimits]; exact Nat.le_max_left _ _) (by rw [hlimits]) hcomplete
  have hkept : (TraversalBudget.new rootId).Kept limits (adjacency.InScope limits (· = rootId))
      (adjacency.EdgeInScope limits (· = rootId)) := by
    refine ⟨fun id hid => ?_, fun id hid => absurd hid ExtTreeSet.not_mem_empty, ?_, Nat.zero_le _,
      fun h => (by cases h)⟩
    · exact ⟨0, ⟨rootId, rfl, hmember id hid ▸ .refl _⟩, fun _ _ => Nat.zero_le _⟩
    · rw [hlimits]
      exact Nat.le_trans (size_le_of_subset fun id hid => hmember id hid ▸ hroot) (Nat.le_max_right _ _)
  obtain ⟨-, hexact⟩ := reversePathIndexFromSeeds_kept (fun s hs => List.mem_singleton.1 hs)
    (fun s hs => mem_insert.2 (Or.inl (List.mem_singleton.1 hs))) hkept
  obtain ⟨-, hexplored⟩ := hexact hfreed.complete
  have hsources : (fun k => k ∈ [rootId]) = fun k => k = rootId := by
    funext k
    exact propext List.mem_singleton
  rw [hsources] at hexplored
  have hpaths : (reversePathIndexFromSeeds [rootId] adjacency filters budget).1 =
      (reversePathIndexFromSeeds [rootId] adjacency limits (.new rootId)).1 := hfreed.paths.symm
  have hdepth : limits.depth = filters.depth := by rw [hlimits]
  rw [hpaths, ← hdepth]
  exact ⟨hexplored.depth_iff, hexplored.linked⟩

end Free

/-! ### The path of the root -/

section RootPath

variable {forward : Adjacency} {filters : ImpactFilters} {changedIds : ExtTreeSet String}
  {rootId k : String} {search : Queued String RootSearch} {edge : EdgeRecord}

/-- What a turn of the search does. -/
inductive RootTurn (changedIds : ExtTreeSet String) (search : Queued String RootSearch)
    (edge : EdgeRecord) : Except (RootSearch × Option String) (Queued String RootSearch) → Prop
  | refused {kept : RootSearch} : kept.budget.complete = false →
      RootTurn changedIds search edge (.error (kept, none))
  | known {budget : TraversalBudget} : edge.target ∈ search.kept.seen →
      (∀ id ∈ search.kept.budget.nodeIds, id ∈ budget.nodeIds) →
      RootTurn changedIds search edge (.ok { search with kept := { search.kept with budget } })
  | found {budget : TraversalBudget} : edge.target ∉ search.kept.seen → edge.target ∈ changedIds →
      (∀ id ∈ search.kept.budget.nodeIds, id ∈ budget.nodeIds) →
      RootTurn changedIds search edge (.error (search.kept.enter edge budget, some edge.target))
  | entered {budget : TraversalBudget} : edge.target ∉ search.kept.seen → edge.target ∉ changedIds →
      (∀ id ∈ search.kept.budget.nodeIds, id ∈ budget.nodeIds) →
      RootTurn changedIds search edge
        (.ok ⟨search.queue ++ [edge.target], search.kept.enter edge budget⟩)

theorem rootEdge_turn : RootTurn changedIds search edge (rootEdge filters changedIds k search edge) := by
  have hedge := search.kept.budget.admitEdge_admission filters edge
  have hnode := (search.kept.budget.admitEdge filters edge).2.admitNode_admission filters edge.target
  have hsame : (search.kept.budget.admitEdge filters edge).2.nodeIds = search.kept.budget.nodeIds :=
    TraversalBudget.admitEdge_nodeIds
  unfold rootEdge
  cases hadmitted : (search.kept.budget.admitEdge filters edge).1 with
  | false =>
    simp only [hadmitted, Bool.not_false, if_true]
    exact .refused (hedge.incomplete_of_false hadmitted)
  | true =>
    simp only [hadmitted, Bool.not_true, Bool.false_eq_true, if_false]
    by_cases hseen : edge.target ∈ search.kept.seen
    · rw [if_pos hseen]
      exact .known hseen fun id hid => hsame ▸ hid
    · rw [if_neg hseen]
      cases hadmitted' : ((search.kept.budget.admitEdge filters edge).2.admitNode filters
          edge.target).1 with
      | false =>
        simp only [Bool.not_false, if_true]
        exact .refused (hnode.incomplete_of_false hadmitted')
      | true =>
        have hgrows : ∀ id ∈ search.kept.budget.nodeIds, id ∈
            ((search.kept.budget.admitEdge filters edge).2.admitNode filters
              edge.target).2.nodeIds := fun id hid =>
          (hnode.admitted_of_true hadmitted').2.1 id (hsame ▸ hid)
        simp only [Bool.not_true, Bool.false_eq_true, if_false]
        by_cases hchanged : edge.target ∈ changedIds
        · rw [if_pos hchanged]
          exact .found hseen hchanged hgrows
        · rw [if_neg hchanged]
          exact .entered hseen hchanged hgrows

/-- An edge of this identity leads from the first node to the second. -/
def LeadsBy (forward : Adjacency) (edgeId x y : String) : Prop :=
  ∃ edge ∈ forward.of x, edge.id = edgeId ∧ edge.target = y

/-- The links of the search. -/
abbrev RootLinks (forward : Adjacency) (rootId : String) (depth : String → Option Nat)
    (predecessor : ExtTreeMap String String) : Prop :=
  Links (LeadsBy forward) rootId depth (predecessor[·]?)

/-- What the search keeps: no changed node has been found, and the root stays admitted. -/
structure RootKept (forward : Adjacency) (rootId : String) (changedIds : ExtTreeSet String)
    (depth : String → Option Nat) (kept : RootSearch) : Prop where
  links : RootLinks forward rootId depth kept.predecessor
  unchanged : ∀ k n, depth k = some n → k ∉ changedIds
  root : rootId ∈ kept.budget.nodeIds

/-- What ends the search: a limit, or a changed node that is as close as any. -/
inductive RootStopped (forward : Adjacency) (rootId : String) (changedIds : ExtTreeSet String) :
    RootSearch × Option String → Prop
  | refused {kept : RootSearch} : kept.budget.complete = false →
      RootStopped forward rootId changedIds (kept, none)
  | found {kept : RootSearch} {found : String} {depth : String → Option Nat} {n : Nat} :
      found ∈ changedIds → RootLinks forward rootId depth kept.predecessor → depth found = some n →
      (∀ m, ∀ c ∈ changedIds, Search.Walk (Leads forward.of EdgeRecord.target) m rootId c → n ≤ m) →
      rootId ∈ kept.budget.nodeIds → RootStopped forward rootId changedIds (kept, some found)

theorem RootLinks.enter {depth : String → Option Nat} {kept : RootSearch} {n : Nat}
    {budget : TraversalBudget} (h : RootLinks forward rootId depth kept.predecessor)
    (hk : depth k = some n) (hnew : depth edge.target = none) (hedge : edge ∈ forward.of k) :
    RootLinks forward rootId (Breadth.enter depth edge.target (n + 1))
      (kept.enter edge budget).predecessor := by
  refine Links.enter h hk hnew ⟨edge, hedge, rfl, rfl⟩ ?_ fun y hy => ?_
  · exact getElem?_insert.trans (if_pos rfl)
  · exact getElem?_insert.trans (if_neg hy)

theorem root_rules : Rules forward.of EdgeRecord.target (fun kept k => k ∈ kept.seen)
    (rootEdge filters changedIds) rootId
    (fun depth _ kept => RootKept forward rootId changedIds depth kept)
    (fun depth _ _ _ kept => RootKept forward rootId changedIds depth kept)
    (RootStopped forward rootId changedIds) where
  enters := by
    intro k edge search search' _ hvisit
    have hturn := @rootEdge_turn filters changedIds k search edge
    rw [hvisit] at hturn
    cases hturn with
    | known hseen _ => exact .known hseen rfl fun _ => Iff.rfl
    | entered hnew _ _ =>
      refine .new hnew rfl fun y => ?_
      rw [RootSearch.enter, mem_insert, or_comm]
  pop h := h
  known := by
    intro depth done k looked edge search search' h _ _ hseen hvisit
    have hturn := @rootEdge_turn filters changedIds k search edge
    rw [hvisit] at hturn
    cases hturn with
    | known _ hgrows => exact ⟨h.links, h.unchanged, hgrows _ h.root⟩
    | entered hnew _ _ => exact absurd hseen hnew
  new := by
    intro depth done k looked edge search search' n h _ hpart hk hnone hnew hvisit
    have hturn := @rootEdge_turn filters changedIds k search edge
    rw [hvisit] at hturn
    cases hturn with
    | known hseen _ => exact absurd hseen hnew
    | entered _ hother hgrows =>
      refine ⟨RootLinks.enter h.links hk hnone (hpart.subset (by simp)), fun y m hy => ?_,
        hgrows _ h.root⟩
      unfold Breadth.enter at hy
      split_ifs at hy with hsame
      · rw [hsame]
        exact hother
      · exact h.unchanged y m hy
  finish h := h
  stop := by
    intro depth queue done k n looked edge search stopped htraced hturn h _ hpart hvisit
    have hrefused := @rootEdge_turn filters changedIds k search edge
    rw [hvisit] at hrefused
    cases hrefused with
    | refused hincomplete => exact .refused hincomplete
    | found hnew hchanged hgrows =>
      have hnone : depth edge.target = none := by
        rw [htraced.seen_iff, not_exists] at hnew
        exact Option.eq_none_iff_forall_ne_some.2 hnew
      refine .found hchanged (RootLinks.enter h.links hturn.here hnone (hpart.subset (by simp)))
        (if_pos rfl) (fun m c hc hwalk => ?_) (hgrows _ h.root)
      -- a changed node that is closer would have been found before
      by_contra hcloser
      obtain ⟨m', -, hm'⟩ := hturn.reached (fun l hl => absurd hl (by simp)) ⟨rootId, rfl, hwalk⟩
        (by omega)
      exact h.unchanged c m' hm' hc

/-- **Following the predecessors back ends at the root**, unless the path is too long. -/
theorem followPredecessors_eq {edges : ExtTreeMap String EdgeRecord}
    (hedges : ∀ k, ∀ edge ∈ forward.of k, edges[edge.id]? = some edge ∧ edge.source = k)
    {depth : String → Option Nat} {predecessor : ExtTreeMap String String}
    (hlinks : RootLinks forward rootId depth predecessor) {current : String} {n : Nat}
    (h : depth current = some n) :
    ∃ path, EdgePath rootId path current ∧ (∀ edge ∈ path, ∃ k, edge ∈ forward.of k) ∧
      path.length = n ∧ ∀ remaining behind,
        followPredecessors edges predecessor rootId remaining current behind =
          if n ≤ remaining then .ok (some (path ++ behind))
          else .error (.pathMaterializationExhausted maxDependencyPathSteps) := by
  induction n generalizing current with
  | zero =>
    rcases hlinks.linked current 0 h with ⟨rfl, -⟩ | ⟨edgeId, k, m, hm, -⟩
    · refine ⟨[], .nil _, by simp, rfl, fun remaining behind => ?_⟩
      rw [if_pos (Nat.zero_le _)]
      cases remaining <;> exact if_pos rfl
    · omega
  | succ n ih =>
    rcases hlinks.linked current (n + 1) h with ⟨-, hzero⟩ | ⟨edgeId, k, m, hm, hlink, hvia, hk⟩
    · omega
    obtain rfl : n = m := Nat.succ.inj hm
    obtain ⟨edge, hedge, rfl, rfl⟩ := hvia
    obtain ⟨hfound, hfrom⟩ := hedges k edge hedge
    obtain ⟨path, hpath, hlisted, hlength, hback⟩ := ih hk
    have hother : edge.target ≠ rootId := by
      intro hroot
      rw [hroot, hlinks.start] at h
      cases h
    refine ⟨path ++ [edge], hpath.snoc hfrom, fun other hmem => ?_, ?_, fun remaining behind => ?_⟩
    · rcases List.mem_append.1 hmem with hmem | hmem
      · exact hlisted other hmem
      · exact ⟨k, List.mem_singleton.1 hmem ▸ hedge⟩
    · rw [List.length_append, hlength, List.length_singleton]
    · cases remaining with
      | zero => rw [followPredecessors, if_neg hother, if_neg (Nat.not_succ_le_zero n)]
      | succ remaining =>
        have hlink : predecessor[edge.target]? = some edge.id := hlink
        rw [followPredecessors, if_neg hother, hlink, Option.bind_some, hfound]
        simp only [hfrom, hback, Nat.add_le_add_iff_right, List.append_assoc, List.singleton_append]

end RootPath

/-! ### What the result is to say -/

/-- An edge that passes the filters leads from the first node to the second. -/
def LeadsOn (F : FloatText) (snapshot : GraphSnapshot) (filters : ImpactFilters) (x y : String) :
    Prop :=
  ∃ edge, EdgePasses F snapshot filters edge ∧ edge.source = x ∧ edge.target = y

/-- The changed nodes: those that a change is mapped to, or without a changed set the root. -/
def IsChange (root : NodeRecord) (changedSet : Option GitChangedSet)
    (mappings : List ChangedNodeMapping) (nodeId : String) : Prop :=
  (changedSet = none ∧ nodeId = root.id) ∨
    (changedSet ≠ none ∧ ∃ mapping ∈ mappings, nodeId ∈ mapping.correlatedNodeIds)

/-- A path from the root to a change, as short as any. -/
structure ShortestChange (F : FloatText) (snapshot : GraphSnapshot) (filters : ImpactFilters)
    (rootId : String) (isChange : String → Prop) (rootPath : List EdgeRecord)
    (changedNodeId : String) : Prop where
  change : isChange changedNodeId
  path : EdgePath rootId rootPath changedNodeId
  passes : ∀ edge ∈ rootPath, EdgePasses F snapshot filters edge
  shortest : ∀ m c, isChange c → Search.Walk (LeadsOn F snapshot filters) m rootId c →
    rootPath.length ≤ m

/-- What a complete result says about a node: its distance from the root, and a path to the root that
goes on as the path of the root. -/
structure RootImpactExact (F : FloatText) (snapshot : GraphSnapshot) (filters : ImpactFilters)
    (rootId : String) (rootPath : List EdgeRecord) (changedNodeId : String) (impact : ImpactNode) :
    Prop where
  distance : Search.IsDistance (DependsOn F snapshot filters) (· = rootId) impact.node.id impact.depth
  within : Search.Within filters.depth impact.depth
  changedNode : impact.changedNodeId = changedNodeId
  path : ∃ toRoot, impact.dependencyPath.map PathStep.edge = toRoot ++ rootPath ∧
    EdgePath impact.node.id toRoot rootId ∧ (∀ edge ∈ toRoot, EdgePasses F snapshot filters edge) ∧
    toRoot.length = impact.depth

section Result

variable {F : FloatText} {snapshot : GraphSnapshot} {filters : ImpactFilters} {root : NodeRecord}
  {changedSet : Option GitChangedSet}

theorem leads_forward {forward : Adjacency} (h : ∀ k edge, edge ∈ forward.of k ↔
    EdgePasses F snapshot filters edge ∧ edge.source = k) :
    Leads forward.of EdgeRecord.target = LeadsOn F snapshot filters := by
  funext x y
  simp only [Leads, LeadsOn, h, and_assoc]

/-- The end of a path is where it leads. -/
theorem pathEnd_eq {path : List EdgeRecord} {c : String} (h : EdgePath root.id path c) :
    pathEnd root path = c := by
  unfold pathEnd
  generalize root.id = start at h
  induction h with
  | nil => rfl
  | @cons edge edges c _ ih =>
    cases edges with
    | nil => exact ih
    | cons other edges => exact ih

/-- **The search finds a shortest path to a change if there is one**, unless a limit stops it. -/
theorem shortestPathToChanged_spec (hunique : snapshot.UniqueIds) {forward : Adjacency}
    (hlisted : ∀ k edge, edge ∈ forward.of k ↔ EdgePasses F snapshot filters edge ∧ edge.source = k)
    {changedIds : ExtTreeSet String} {rootId : String} (hother : rootId ∉ changedIds)
    {path : Option (List EdgeRecord)} {budget budget' : TraversalBudget}
    (hroot : rootId ∈ budget.nodeIds)
    (h : shortestPathToChanged rootId changedIds forward (edgeMap snapshot) filters budget =
      .ok (path, budget')) :
    (path = none → budget'.complete = true → ∀ c ∈ changedIds, ∀ n,
      ¬ Search.Walk (LeadsOn F snapshot filters) n rootId c) ∧
    ∀ rootPath, path = some rootPath → rootId ∈ budget'.nodeIds ∧ ∃ changedNodeId,
      ShortestChange F snapshot filters rootId (· ∈ changedIds) rootPath changedNodeId := by
  unfold shortestPathToChanged at h
  have hinit : Between forward.of EdgeRecord.target (fun (kept : RootSearch) k => k ∈ kept.seen) rootId
      (fun depth _ kept => RootKept forward rootId changedIds depth kept)
      ⟨[rootId], ⟨(∅ : ExtTreeSet String).insert rootId, ∅, budget⟩⟩ := by
    refine Between.start (fun k => ?_) ⟨?_, fun k n hk => ?_, hroot⟩
    · rw [mem_insert, or_iff_left ExtTreeSet.not_mem_empty]
    · unfold RootLinks
      simp only [ExtTreeMap.getElem?_empty]
      exact Links.init
    · unfold Breadth.enter at hk
      split_ifs at hk with hsame
      exact hsame ▸ hother
  obtain ⟨hstops, hends⟩ := (@root_rules forward filters changedIds rootId).loop
    (fun _ _ hedge => Adjacency.mem_edges hedge) hinit (pending_start_le _ _ _ _ _)
  have hleads := leads_forward hlisted
  by_cases hempty : changedIds.isEmpty = true
  · rw [if_pos hempty] at h
    obtain ⟨rfl, -⟩ := Prod.mk.inj (Except.ok.inj h)
    refine ⟨fun _ _ c hc => ?_, fun rootPath hpath => (by cases hpath)⟩
    rw [ExtTreeSet.isEmpty_iff] at hempty
    exact absurd (hempty ▸ hc) ExtTreeSet.not_mem_empty
  rw [if_neg hempty] at h
  cases hloop : loop forward.of (rootEdge filters changedIds) (forward.edges.length + 1)
      ⟨[rootId], ⟨(∅ : ExtTreeSet String).insert rootId, ∅, budget⟩⟩ with
  | ok search =>
    rw [hloop] at h
    obtain ⟨rfl, -⟩ := Prod.mk.inj (Except.ok.inj h)
    refine ⟨fun _ _ c hc n hwalk => ?_, fun rootPath hpath => (by cases hpath)⟩
    obtain ⟨hqueue, depth, queue, done, htraced, hinv, hkept⟩ := hends search hloop
    obtain rfl : queue = [] := by simpa [hqueue] using htraced.queue_eq
    rw [← hleads] at hwalk
    obtain ⟨m, hm⟩ := hinv.found_iff.2 ⟨n, ⟨rootId, rfl, hwalk⟩, fun l hl => absurd hl (by simp)⟩
    exact hkept.unchanged c m hm hc
  | error stopped =>
    rw [hloop] at h
    have hstopped := hstops stopped hloop
    cases hstopped with
    | refused hincomplete =>
      obtain ⟨rfl, rfl⟩ := Prod.mk.inj (Except.ok.inj h)
      refine ⟨fun _ hcomplete => ?_, fun rootPath hpath => (by cases hpath)⟩
      rw [hincomplete] at hcomplete
      cases hcomplete
    | @found kept changed depth n hchanged hlinks hdepth hshortest hadmitted =>
      have hedges : ∀ k, ∀ edge ∈ forward.of k,
          (edgeMap snapshot)[edge.id]? = some edge ∧ edge.source = k := fun k edge hedge => by
        obtain ⟨hpasses, hsource⟩ := (hlisted k edge).1 hedge
        exact ⟨(getElem?_indexed hunique.edges).2 ⟨hpasses.1, rfl⟩, hsource⟩
      obtain ⟨rootPath, hpath, hof, hlength, hback⟩ := followPredecessors_eq hedges hlinks hdepth
      obtain ⟨found, hfound, hresult⟩ := bind_eq_ok.1 h
      obtain ⟨rfl, rfl⟩ := Prod.mk.inj (Except.ok.inj hresult)
      rw [hback, List.append_nil] at hfound
      split_ifs at hfound
      obtain rfl := Except.ok.inj hfound
      refine ⟨fun hnone => (by cases hnone), fun rootPath' hsome => ?_⟩
      obtain rfl := Option.some.inj hsome
      refine ⟨hadmitted, changed, hchanged, hpath, fun edge hedge => ?_, fun m c hc hwalk => ?_⟩
      · obtain ⟨k, hk⟩ := hof edge hedge
        exact ((hlisted k edge).1 hk).1
      · rw [hlength]
        rw [← hleads] at hwalk
        exact hshortest m c hc hwalk

/-- A root that has changed is its own change. -/
theorem rootPathOf_spec (hunique : snapshot.UniqueIds) {forward : Adjacency}
    (hlisted : ∀ k edge, edge ∈ forward.of k ↔ EdgePasses F snapshot filters edge ∧ edge.source = k)
    {changedIds : ExtTreeSet String} {path : Option (List EdgeRecord)} {budget : TraversalBudget}
    (h : rootPathOf snapshot root filters changedIds forward = .ok (path, budget)) :
    (path = none → budget.complete = true → ∀ c ∈ changedIds, ∀ n,
      ¬ Search.Walk (LeadsOn F snapshot filters) n root.id c) ∧
    ∀ rootPath, path = some rootPath → root.id ∈ budget.nodeIds ∧ ∃ changedNodeId,
      ShortestChange F snapshot filters root.id (· ∈ changedIds) rootPath changedNodeId := by
  unfold rootPathOf at h
  split_ifs at h with hroot
  · obtain ⟨rfl, rfl⟩ := Prod.mk.inj (Except.ok.inj h)
    refine ⟨fun hnone => (by cases hnone), fun path hsome => ?_⟩
    obtain rfl := Option.some.inj hsome
    exact ⟨mem_insert.2 (Or.inl rfl), root.id, hroot, .nil _, by simp, fun _ _ _ _ => Nat.zero_le _⟩
  · exact shortestPathToChanged_spec hunique hlisted hroot (mem_insert.2 (Or.inl rfl)) h

/-- **The successors of a node lead to the root, one step for each unit of depth.** -/
theorem followToRoot_followed (hunique : snapshot.UniqueIds) {reverse : Adjacency}
    (hlisted : ∀ k edge, edge ∈ reverse.of k ↔
      EdgePasses F snapshot filters edge ∧ edge.target = k) {rootId : String}
    {paths : ReversePathIndex} (hroot : paths.depths[rootId]? = some 0)
    (hlinked : ∀ k n, paths.depths[k]? = some n → paths.Linked reverse (· = rootId) k n)
    {maximum fuel depth : Nat} {projection : PathStepProjection} {current : String}
    (hdepth : paths.depths[current]? = some depth) (hfuel : depth ≤ fuel) (path : List PathStep) :
    Ensures (followToRoot F maximum projection (edgeMap snapshot) paths rootId fuel current path)
      fun result => ∃ steps, result = path ++ steps ∧
        Followed F snapshot filters (· = rootId) current depth steps rootId := by
  have hlink := hlinked current depth hdepth
  induction fuel generalizing depth current path with
  | zero =>
    obtain rfl := Nat.le_zero.1 hfuel
    obtain ⟨rfl, -⟩ := hlink
    rw [followToRoot, if_pos rfl]
    exact Ensures.pure ⟨[], by simp, .nil _, by simp, rfl, rfl⟩
  | succ fuel ih =>
    rw [followToRoot]
    cases depth with
    | zero =>
      obtain ⟨rfl, -⟩ := hlink
      rw [if_pos rfl]
      exact Ensures.pure ⟨[], by simp, .nil _, by simp, rfl, rfl⟩
    | succ d =>
      obtain ⟨x, hx, edge, hedge, rfl, hsuccessor⟩ := hlink
      obtain ⟨hpasses, rfl⟩ := (hlisted x edge).1 hedge
      have hfound : (edgeMap snapshot)[edge.id]? = some edge :=
        (getElem?_indexed hunique.edges).2 ⟨hpasses.1, rfl⟩
      have hother : edge.source ≠ rootId := by
        intro hsame
        rw [hsame, hroot] at hdepth
        cases hdepth
      simp only [if_neg hother, hsuccessor, hfound]
      refine materialize_edge.bind fun step hstep => ?_
      refine (ih hx (Nat.le_of_succ_le_succ hfuel) (path ++ [step])
        (hlinked _ d hx)).mono fun result hresult => ?_
      obtain ⟨steps, hsteps, hfollowed⟩ := hresult
      exact ⟨step :: steps, by rw [hsteps, List.append_assoc]; rfl, hfollowed.cons hpasses hstep⟩

/-- An impact comes from an entry and is exact. -/
structure RootImpactOf (F : FloatText) (snapshot : GraphSnapshot) (filters : ImpactFilters)
    (rootId : String) (rootPath : List EdgeRecord) (changedNodeId : String)
    (entry : NodeRecord × String × Nat) (impact : ImpactNode) : Prop where
  node : impact.node = entry.1
  exact : RootImpactExact F snapshot filters rootId rootPath changedNodeId impact

theorem rootImpactNode_exact (hunique : snapshot.UniqueIds) {reverse : Adjacency}
    (hlisted : ∀ k edge, edge ∈ reverse.of k ↔
      EdgePasses F snapshot filters edge ∧ edge.target = k) {rootId changedNodeId : String}
    {paths : ReversePathIndex} (hdepths : ∀ k n, paths.depths[k]? = some n ↔
      Search.IsDistance (DependsOn F snapshot filters) (· = rootId) k n ∧
        Search.Within filters.depth n)
    (hlinked : ∀ k n, paths.depths[k]? = some n → paths.Linked reverse (· = rootId) k n)
    {rootPath : List EdgeRecord}
    (hpreflight : preflightPathMaterialization paths rootPath.length (nodeMap snapshot) = .ok ())
    {maximum : Nat} {projection : PathStepProjection} {entry : NodeRecord × String × Nat}
    (hentry : entry ∈ impactEntries snapshot paths) :
    Ensures (rootImpactNode F maximum projection (edgeMap snapshot) paths rootId rootPath
      changedNodeId entry) (RootImpactOf F snapshot filters rootId rootPath changedNodeId entry) := by
  obtain ⟨hdepth, hnode⟩ := mem_impactEntries.1 hentry
  obtain ⟨-, hid⟩ := (getElem?_indexed hunique.nodes).1 hnode
  have hshort := preflight_depth hpreflight hdepth (mem_iff.2 ⟨_, hnode⟩)
  have hroot : paths.depths[rootId]? = some 0 :=
    (hdepths rootId 0).2 ⟨⟨⟨rootId, rfl, .refl _⟩, fun _ _ => Nat.zero_le _⟩, fun _ _ => Nat.zero_le _⟩
  have hrest : Ensures (rootPath.mapM (projection.materialize F maximum))
      fun steps => steps.map PathStep.edge = rootPath :=
    (Ensures.mapM_forall₂ fun _ _ => materialize_edge).mono fun _ => map_edge_eq
  refine (followToRoot_followed hunique hlisted hroot hlinked hdepth (Nat.le_succ_of_le hshort)
    []).bind fun toRoot htoRoot => hrest.bind fun fromRoot hfromRoot => Ensures.pure ?_
  obtain ⟨steps, hsteps, hfollowed⟩ := htoRoot
  rw [List.nil_append] at hsteps
  subst hsteps
  obtain ⟨hdistance, hwithin⟩ := (hdepths _ _).1 hdepth
  refine ⟨rfl, ?_, hwithin, rfl, toRoot.map PathStep.edge, ?_, ?_, fun edge hedge => ?_, ?_⟩
  · rw [hid]
    exact hdistance
  · rw [List.map_append, hfromRoot]
  · rw [hid]
    exact hfollowed.path
  · obtain ⟨step, hstep, rfl⟩ := List.mem_map.1 hedge
    exact hfollowed.passes step hstep
  · rw [List.length_map, hfollowed.length]

/-- The impacts come from the nodes that the traversal has found, one by one. -/
theorem impactsOfRoot_exact (hunique : snapshot.UniqueIds) {reverse : Adjacency}
    (hlisted : ∀ k edge, edge ∈ reverse.of k ↔
      EdgePasses F snapshot filters edge ∧ edge.target = k)
    {rootPath : List EdgeRecord} {budget budget' : TraversalBudget} {impacts : List ImpactNode}
    (hroot : root.id ∈ budget.nodeIds)
    (h : impactsOfRoot F snapshot root filters rootPath reverse budget = .ok (impacts, budget'))
    (hcomplete : budget'.complete = true) :
    (∀ impact ∈ impacts, RootImpactExact F snapshot filters root.id rootPath (pathEnd root rootPath)
      impact) ∧
    (impacts.map fun impact => impact.node.id).Nodup ∧
    ∀ node, (∃ impact ∈ impacts, impact.node = node) ↔
      node ∈ snapshot.nodes ∧ Depends F snapshot filters (· = root.id) node.id := by
  have hexact := @reversePathIndexFromSeeds_free reverse filters root.id budget hroot
  unfold impactsOfRoot at h
  cases hsearch : reversePathIndexFromSeeds [root.id] reverse filters budget with
  | mk paths ended =>
  rw [hsearch] at h hexact
  simp only [bind_eq_ok] at h
  obtain ⟨_, hpreflight, projectionEdges, -, found, himpacts, hresult⟩ := h
  obtain ⟨rfl, rfl⟩ := Prod.mk.inj (Except.ok.inj hresult)
  obtain ⟨hdepths, hlinked⟩ := hexact hcomplete
  dsimp only at hdepths hlinked
  rw [leads_eq hlisted] at hdepths
  have hforall : List.Forall₂ (RootImpactOf F snapshot filters root.id rootPath
      (pathEnd root rootPath)) (impactEntries snapshot paths) found := by
    refine Ensures.run (Ensures.after fun projection => Ensures.mapM_forall₂ fun entry hentry => ?_)
      himpacts
    exact rootImpactNode_exact hunique hlisted hdepths hlinked hpreflight hentry
  refine ⟨fun impact hmem => ?_, ?_, fun node => ?_⟩
  · obtain ⟨entry, -, himpact⟩ := exists_left hforall hmem
    exact himpact.exact
  · have hids : ∀ entry ∈ impactEntries snapshot paths, entry.1.id = entry.2.1 :=
      fun entry hentry => ((getElem?_indexed hunique.nodes).1 (mem_impactEntries.1 hentry).2).2
    have hnodup := @impactEntries_nodup snapshot paths
    generalize impactEntries snapshot paths = entries at hforall hids hnodup
    have hsame : found.map (fun impact => impact.node.id) = entries.map fun entry => entry.2.1 := by
      clear hnodup himpacts hresult
      induction hforall with
      | nil => rfl
      | cons himpact _ ih =>
        rw [List.map_cons, List.map_cons, himpact.node, hids _ List.mem_cons_self,
          ih fun entry hentry => hids entry (List.mem_cons_of_mem _ hentry)]
    rwa [hsame]
  · rw [← exists_depth_iff (hdepths node.id)]
    exact impacts_iff hunique (hforall.imp fun _ _ himpact => himpact.node) node

/-- A path of edges that pass is a walk. -/
theorem walk_of_path {path : List EdgeRecord} {k c : String} (h : EdgePath k path c)
    (hpasses : ∀ edge ∈ path, EdgePasses F snapshot filters edge) :
    Search.Walk (LeadsOn F snapshot filters) path.length k c := by
  induction h with
  | nil k => exact .refl k
  | cons _ ih =>
    exact .cons ⟨_, hpasses _ List.mem_cons_self, rfl, rfl⟩
      (ih fun edge hedge => hpasses edge (List.mem_cons_of_mem _ hedge))

/-- The changed nodes, and the mappings. -/
theorem changesOfRoot_spec {mappings : List ChangedNodeMapping} {changedIds : ExtTreeSet String}
    (h : changesOfRoot snapshot root changedSet = .ok (mappings, changedIds)) :
    (∀ set ∈ changedSet, mapChangedSet snapshot set = .ok mappings) ∧
      ∀ nodeId, nodeId ∈ changedIds ↔ IsChange root changedSet mappings nodeId := by
  cases changedSet with
  | none =>
    obtain ⟨rfl, rfl⟩ := Prod.mk.inj (Except.ok.inj h)
    refine ⟨fun set hset => (by cases hset), fun nodeId => ?_⟩
    rw [mem_insert, or_iff_left ExtTreeSet.not_mem_empty]
    simp [IsChange]
  | some set =>
    obtain ⟨found, hfound, h⟩ := bind_eq_ok.1 h
    obtain ⟨ids, hids, h⟩ := bind_eq_ok.1 h
    obtain ⟨rfl, rfl⟩ := Prod.mk.inj (Except.ok.inj h)
    refine ⟨fun other hother => Option.some.inj hother ▸ hfound, fun nodeId => ?_⟩
    rw [mem_changedNodeIds hids]
    simp [IsChange]

end Result

/-- **The impact on a root is exact** when it is complete. -/
theorem impact_exact (F : FloatText) (snapshot : GraphSnapshot) (hunique : snapshot.UniqueIds)
    (root : NodeRecord) (filters : ImpactFilters) (changedSet : Option GitChangedSet)
    (result : ImpactResult) (h : impact F snapshot root filters changedSet = .ok result)
    (hcomplete : result.complete = true) :
    (∀ set ∈ changedSet, mapChangedSet snapshot set = .ok result.mappings) ∧
    (result.rootImpacted = true ↔ ∃ c, IsChange root changedSet result.mappings c ∧
      ∃ n, Search.Walk (LeadsOn F snapshot filters) n root.id c) ∧
    (result.rootImpacted = false → result.impacts = []) ∧
    (changedSet = none → result.rootImpacted = true) ∧
    (result.rootImpacted = true → ∃ rootPath changedNodeId,
      ShortestChange F snapshot filters root.id (IsChange root changedSet result.mappings) rootPath
        changedNodeId ∧
      (changedSet = none → changedNodeId = root.id) ∧
      (∀ impact ∈ result.impacts,
        RootImpactExact F snapshot filters root.id rootPath changedNodeId impact) ∧
      (result.impacts.map fun impact => impact.node.id).Nodup ∧
      ∀ node, (∃ impact ∈ result.impacts, impact.node = node) ↔
        node ∈ snapshot.nodes ∧ Depends F snapshot filters (· = root.id) node.id) := by
  unfold impact at h
  simp only [bind_eq_ok] at h
  obtain ⟨⟨mappings, changedIds⟩, hchanges, contexts, hcontexts, forward, hforward, reverse, hreverse,
    ⟨rootPath, budget⟩, hpath, ⟨impacts, ended⟩, himpacts, hresult⟩ := h
  dsimp only at hpath himpacts hforward hreverse
  obtain rfl := Except.ok.inj hresult
  obtain ⟨hmappings, hchanged⟩ := changesOfRoot_spec hchanges
  have hpasses (edge : EdgeRecord) : (edge ∈ snapshot.edges ∧ filters.matches F edge contexts = true) ↔
      EdgePasses F snapshot filters edge := by
    refine and_congr_right fun _ => ⟨fun h => ⟨contexts, hcontexts, h⟩, ?_⟩
    rintro ⟨other, hother, hmatches⟩
    obtain rfl := Except.ok.inj (hcontexts.symm.trans hother)
    exact hmatches
  have hforwardOf (k : String) (edge : EdgeRecord) : edge ∈ forward.of k ↔
      EdgePasses F snapshot filters edge ∧ edge.source = k := by
    rw [adjacency_mem hunique.edges hforward, ← and_assoc, hpasses]
    rfl
  have hreverseOf (k : String) (edge : EdgeRecord) : edge ∈ reverse.of k ↔
      EdgePasses F snapshot filters edge ∧ edge.target = k := by
    rw [adjacency_mem hunique.edges hreverse, ← and_assoc, hpasses]
    rfl
  have hchanges : (fun c => c ∈ changedIds) = IsChange root changedSet mappings := by
    funext c
    exact propext (hchanged c)
  have hsearch : (rootPath = none → ended.complete = true → ∀ c, IsChange root changedSet mappings c →
      ∀ n, ¬ Search.Walk (LeadsOn F snapshot filters) n root.id c) ∧
      ∀ path, rootPath = some path → root.id ∈ budget.nodeIds ∧ ∃ changedNodeId,
        ShortestChange F snapshot filters root.id (IsChange root changedSet mappings) path
          changedNodeId := by
    obtain ⟨hnone, hsome⟩ := rootPathOf_spec hunique hforwardOf hpath
    rw [hchanges] at hsome
    refine ⟨?_, hsome⟩
    rintro rfl hended c hc n
    obtain ⟨-, rfl⟩ := Prod.mk.inj (Except.ok.inj himpacts)
    exact hnone rfl hended c ((hchanged c).2 hc) n
  have hwithout : changedSet = none → rootPath = some [] := by
    rintro rfl
    have hroot : root.id ∈ changedIds := (hchanged _).2 (Or.inl ⟨rfl, rfl⟩)
    rw [rootPathOf, if_pos hroot] at hpath
    exact (Prod.mk.inj (Except.ok.inj hpath)).1.symm
  cases rootPath with
  | none =>
    obtain ⟨rfl, rfl⟩ := Prod.mk.inj (Except.ok.inj himpacts)
    refine ⟨hmappings, iff_of_false (by simp) ?_, fun _ => rfl, fun hset => ?_, fun h => (by cases h)⟩
    · rintro ⟨c, hc, n, hwalk⟩
      exact hsearch.1 rfl hcomplete c hc n hwalk
    · cases hwithout hset
  | some rootPath =>
    obtain ⟨hroot, changedNodeId, hshortest⟩ := hsearch.2 rootPath rfl
    obtain ⟨himpact, hnodup, hnodes⟩ :=
      impactsOfRoot_exact hunique hreverseOf hroot himpacts hcomplete
    rw [pathEnd_eq hshortest.path] at himpact
    refine ⟨hmappings, iff_of_true rfl ⟨changedNodeId, hshortest.change, _,
      walk_of_path hshortest.path hshortest.passes⟩, fun h => (by cases h), fun _ => rfl,
      fun _ => ⟨rootPath, changedNodeId, hshortest, fun hset => ?_, himpact, hnodup, hnodes⟩⟩
    obtain rfl := Option.some.inj (hwithout hset)
    exact (pathEnd_eq hshortest.path).symm

namespace RootSample

/-- The second of three files that import one another in a circle, when the first has changed. -/
def result : Except ImpactError ImpactResult :=
  impact .plain Sample.snapshot (Sample.file "b" "b.rs") (Sample.filters 10) (some Sample.changedSet)

/-- What a reader of the result sees. -/
def summary (result : ImpactResult) : Bool × List (String × Nat × List String) :=
  (result.complete && result.rootImpacted, result.impacts.map fun impact =>
    (impact.node.id, impact.depth, impact.dependencyPath.map fun step => step.edge.id))

theorem result_complete : result.toOption.map summary =
    some (true, [("a", 2, ["e3", "e2", "e1"]), ("b", 0, ["e1"]), ("c", 1, ["e2", "e1"])]) := by
  decide +kernel

end RootSample

open RootSample in
theorem impact_exact_circle : ∃ found rootPath changedNodeId, result = .ok found ∧
    found.complete = true ∧ found.rootImpacted = true ∧
    (found.impacts.map fun impact => (impact.node.id, impact.depth)) =
      [("a", 2), ("b", 0), ("c", 1)] ∧
    ∀ impact ∈ found.impacts, RootImpactExact .plain Sample.snapshot (Sample.filters 10) "b" rootPath
      changedNodeId impact := by
  have hcomplete := result_complete
  cases h : result with
  | error e =>
    rw [h] at hcomplete
    cases hcomplete
  | ok found =>
    rw [h] at hcomplete
    obtain ⟨hflags, himpacts⟩ := Prod.mk.inj (Option.some.inj hcomplete)
    obtain ⟨hcomplete, himpacted⟩ := Bool.and_eq_true_iff.1 hflags
    have hdepths := congrArg (List.map fun impact => (impact.1, impact.2.1)) himpacts
    rw [List.map_map] at hdepths
    obtain ⟨-, -, -, -, hexact⟩ := impact_exact .plain Sample.snapshot Sample.snapshot_unique
      (Sample.file "b" "b.rs") (Sample.filters 10) (some Sample.changedSet) found h hcomplete
    obtain ⟨rootPath, changedNodeId, -, -, hexact, -⟩ := hexact himpacted
    exact ⟨found, rootPath, changedNodeId, rfl, hcomplete, himpacted, hdepths, hexact⟩

end Impact
