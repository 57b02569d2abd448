import Depgraph.Impact.ChangedSet

/-!
# The impact of a changed set is exact

What the result says about a snapshot: the distance of every node from the changed nodes, a shortest
path of edges that pass the filters, and the changed paths that reach the node. The proof follows the
computation: the seeds, the traversal, the attribution, the paths.
-/

namespace Impact

open Json Protocol Store OrderedMap Metered SortDedup Fallible Std

/-! ### What the result is to say -/

section Meaning

variable (F : FloatText) (snapshot : GraphSnapshot) (filters : ImpactFilters)
  (mappings : List ChangedNodeMapping)

/-- The edge is one of the snapshot and passes the filters. -/
def EdgePasses (edge : EdgeRecord) : Prop :=
  edge ∈ snapshot.edges ∧ ∃ contexts, runtimeContextIndex snapshot filters = .ok contexts ∧
    filters.matches F edge contexts = true

/-- An edge that passes the filters leads from the second node to the first. -/
def DependsOn (k y : String) : Prop :=
  ∃ edge, EdgePasses F snapshot filters edge ∧ edge.target = k ∧ edge.source = y

/-- A node of the snapshot. -/
def HasNode (nodeId : String) : Prop := nodeId ∈ snapshot.nodes.map NodeRecord.id

/-- A node of the snapshot to which a change is mapped. -/
def Changed (nodeId : String) : Prop :=
  HasNode snapshot nodeId ∧ ∃ mapping ∈ mappings, nodeId ∈ mapping.correlatedNodeIds

/-- A node of the snapshot to which a change is mapped that is reported under this path. -/
def ChangedUnder (path nodeId : String) : Prop :=
  HasNode snapshot nodeId ∧ MapsTo mappings path nodeId

/-- One of these nodes is reached from the node within the depth. -/
def Depends (sources : String → Prop) (nodeId : String) : Prop :=
  ∃ n, Search.Reached (DependsOn F snapshot filters) sources n nodeId ∧
    Search.Within filters.depth n

/-- An unlimited traversal follows this edge. -/
def Follows (edgeId : String) : Prop :=
  ∃ edge, EdgePasses F snapshot filters edge ∧ edge.id = edgeId ∧ ∃ n,
    Search.Reached (DependsOn F snapshot filters) (Changed snapshot mappings) n edge.target ∧
      Search.Expands filters.depth n

/-- The edges form a path from one node to another. -/
inductive EdgePath : String → List EdgeRecord → String → Prop
  | nil (k : String) : EdgePath k [] k
  | cons {edge : EdgeRecord} {edges : List EdgeRecord} {c : String} :
      EdgePath edge.target edges c → EdgePath edge.source (edge :: edges) c

/-- A path goes on with an edge from its end. -/
theorem EdgePath.snoc {k x : String} {path : List EdgeRecord} {edge : EdgeRecord}
    (h : EdgePath k path x) (hedge : edge.source = x) : EdgePath k (path ++ [edge]) edge.target := by
  induction h with
  | nil k =>
    subst hedge
    exact .cons (.nil _)
  | cons _ ih => exact .cons (ih hedge)

theorem map_edge_eq {edges : List EdgeRecord} {steps : List PathStep}
    (h : List.Forall₂ (fun edge step => step.edge = edge) edges steps) :
    steps.map PathStep.edge = edges := by
  induction h with
  | nil => rfl
  | cons hhead _ ih => rw [List.map_cons, hhead, ih]

/-- What a complete result says about a node. -/
structure ImpactExact (impact : ChangedSetImpactNode) : Prop where
  distance : Search.IsDistance (DependsOn F snapshot filters) (Changed snapshot mappings)
    impact.node.id impact.depth
  changedNode : Changed snapshot mappings impact.changedNodeId
  path : EdgePath impact.node.id (impact.dependencyPath.map PathStep.edge) impact.changedNodeId
  passes : ∀ step ∈ impact.dependencyPath, EdgePasses F snapshot filters step.edge
  length : impact.dependencyPath.length = impact.depth
  changedPaths : ∀ path, path ∈ impact.changedPaths ↔
    Depends F snapshot filters (ChangedUnder snapshot mappings path) impact.node.id
  sorted : impact.changedPaths.Pairwise (· < ·)

/-- A complete result is exact: its nodes are the nodes that depend on a changed node. -/
structure ResultExact (result : ChangedSetImpactResult) : Prop where
  nodes : ∀ node, (∃ impact ∈ result.impacts, impact.node = node) ↔
    node ∈ snapshot.nodes ∧ Depends F snapshot filters (Changed snapshot result.mappings) node.id
  impacts : ∀ impact ∈ result.impacts, ImpactExact F snapshot filters result.mappings impact

/-- The budget stays within the limits, and the result is incomplete exactly if a limit refuses
something that an unlimited traversal visits. -/
structure BudgetExact (complete : Bool) (budget : TraversalBudget) : Prop where
  nodeCount : budget.nodeIds.size ≤ filters.maxNodes
  edgeCount : budget.edgeIds.size ≤ filters.maxEdges
  incomplete : complete = false ↔
    Refuses filters.maxNodes (Depends F snapshot filters (Changed snapshot mappings))
      budget.nodeIds ∨
    Refuses filters.maxEdges (Follows F snapshot filters mappings) budget.edgeIds

end Meaning

/-! ### Seeds -/

section Proof

variable {F : FloatText} {snapshot : GraphSnapshot} {changedSet : GitChangedSet}
  {filters : ImpactFilters} {changed visitsNode visitsEdge : String → Prop}

/-- What holds of the seeds that are admitted to a budget. -/
structure SeedsKept (filters : ImpactFilters) (changed visitsNode visitsEdge : String → Prop)
    (admitted : TraversalBudget × ExtTreeSet String) : Prop where
  budget : admitted.1.Kept filters visitsNode visitsEdge
  changed : ∀ id ∈ admitted.2, changed id
  admitted : ∀ id ∈ admitted.2, id ∈ admitted.1.nodeIds

/-- **The seeds are nodes that were given, and all of them unless a limit refuses one.** -/
theorem SeedsKept.admitSeeds {nodes : List NodeRecord}
    {admitted : TraversalBudget × ExtTreeSet String}
    (h : SeedsKept filters changed visitsNode visitsEdge admitted)
    (hvisits : ∀ id, changed id → visitsNode id) (hnodes : ∀ node ∈ nodes, changed node.id) :
    SeedsKept filters changed visitsNode visitsEdge (Impact.admitSeeds filters nodes admitted) ∧
      ((Impact.admitSeeds filters nodes admitted).1.complete = true →
        ∀ id, id ∈ (Impact.admitSeeds filters nodes admitted).2 ↔
          id ∈ admitted.2 ∨ ∃ node ∈ nodes, node.id = id) := by
  induction nodes generalizing admitted with
  | nil => exact ⟨h, fun _ id => by simp [Impact.admitSeeds]⟩
  | cons node nodes ih =>
    obtain ⟨budget, seeds⟩ := admitted
    have hkept := h.budget.admitNode (hvisits _ (hnodes node List.mem_cons_self))
    have hadmission := budget.admitNode_admission filters node.id
    cases hnode : (budget.admitNode filters node.id).1 with
    | false =>
      have hstop : Impact.admitSeeds filters (node :: nodes) (budget, seeds) =
          ((budget.admitNode filters node.id).2, seeds) := by simp [Impact.admitSeeds, hnode]
      rw [hstop]
      refine ⟨⟨hkept, h.changed, fun id hid => ?_⟩, fun hcomplete => ?_⟩
      · exact TraversalBudget.mem_admitNode (h.admitted id hid)
      · exact absurd (hcomplete.symm.trans (hadmission.incomplete_of_false hnode)) (by simp)
    | true =>
      obtain ⟨hid, hids, -⟩ := hadmission.admitted_of_true hnode
      have hgo : Impact.admitSeeds filters (node :: nodes) (budget, seeds) =
          Impact.admitSeeds filters nodes
            ((budget.admitNode filters node.id).2, seeds.insert node.id) := by
        simp [Impact.admitSeeds, hnode]
      have hseeds : SeedsKept filters changed visitsNode visitsEdge
          ((budget.admitNode filters node.id).2, seeds.insert node.id) := by
        refine ⟨hkept, fun id hmem => ?_, fun id hmem => ?_⟩
        · rcases mem_insert.1 hmem with rfl | hmem
          · exact hnodes node List.mem_cons_self
          · exact h.changed id hmem
        · rcases mem_insert.1 hmem with rfl | hmem
          · exact hid
          · exact hids id (h.admitted id hmem)
      obtain ⟨hrest, hall⟩ :=
        ih hseeds fun other hother => hnodes other (List.mem_cons_of_mem _ hother)
      rw [hgo]
      refine ⟨hrest, fun hcomplete id => ?_⟩
      rw [hall hcomplete id, mem_insert, List.exists_mem_cons_iff, or_assoc, eq_comm]
      tauto

/-! ### The traversal -/

/-- What holds of the traversal from the changed nodes. -/
structure TraversalExact (F : FloatText) (snapshot : GraphSnapshot) (changedSet : GitChangedSet)
    (filters : ImpactFilters) (t : ChangedSetTraversal) : Prop where
  mapped : mapChangedSet snapshot changedSet = .ok t.mappings
  listed : ∀ k edge, edge ∈ t.reverse.of k ↔ EdgePasses F snapshot filters edge ∧ edge.target = k
  kept : t.budget.Kept filters (Depends F snapshot filters (Changed snapshot t.mappings))
    (Follows F snapshot filters t.mappings)
  seeds : t.budget.complete = true → ∀ id, id ∈ t.seeds ↔ Changed snapshot t.mappings id
  explored : t.budget.complete = true →
    Explored t.reverse filters (Changed snapshot t.mappings) t.paths t.budget

/-- The edges that are listed lead where the snapshot says. -/
theorem leads_eq {reverse : Adjacency} (h : ∀ k edge, edge ∈ reverse.of k ↔
    EdgePasses F snapshot filters edge ∧ edge.target = k) :
    reverse.Leads = DependsOn F snapshot filters := by
  funext k y
  simp only [Adjacency.Leads, DependsOn, h, and_assoc]

theorem edgeInScope_eq {reverse : Adjacency} (h : ∀ k edge, edge ∈ reverse.of k ↔
    EdgePasses F snapshot filters edge ∧ edge.target = k) {mappings : List ChangedNodeMapping} :
    reverse.EdgeInScope filters (Changed snapshot mappings) =
      Follows F snapshot filters mappings := by
  funext id
  unfold Adjacency.EdgeInScope Follows
  rw [leads_eq h]
  refine propext ⟨?_, ?_⟩
  · rintro ⟨k, n, hreached, hexpands, edge, hedge, hid⟩
    obtain ⟨hpasses, rfl⟩ := (h k edge).1 hedge
    exact ⟨edge, hpasses, hid, n, hreached, hexpands⟩
  · rintro ⟨edge, hpasses, hid, n, hreached, hexpands⟩
    exact ⟨edge.target, n, hreached, hexpands, edge, (h _ edge).2 ⟨hpasses, rfl⟩, hid⟩

theorem inScope_eq {reverse : Adjacency} (h : ∀ k edge, edge ∈ reverse.of k ↔
    EdgePasses F snapshot filters edge ∧ edge.target = k) {sources : String → Prop} :
    reverse.InScope filters sources = Depends F snapshot filters sources := by
  funext k
  unfold Adjacency.InScope Depends
  rw [leads_eq h]

/-- The changed nodes that the snapshot has. -/
theorem mem_changedNodes (hunique : snapshot.UniqueIds) {mappings : List ChangedNodeMapping}
    {ids : ExtTreeSet String} (hids : changedNodeIds mappings = .ok ids) {id : String} :
    (∃ node ∈ ids.toList.filterMap fun id => (nodeMap snapshot)[id]?, node.id = id) ↔
      Changed snapshot mappings id := by
  have hmap (k : String) (node : NodeRecord) :
      (nodeMap snapshot)[k]? = some node ↔ node ∈ snapshot.nodes ∧ node.id = k :=
    getElem?_indexed hunique.nodes
  unfold Changed HasNode
  simp only [List.mem_filterMap, ExtTreeSet.mem_toList, hmap, ← mem_changedNodeIds hids,
    List.mem_map]
  constructor
  · rintro ⟨node, ⟨k, hk, hmem, rfl⟩, rfl⟩
    exact ⟨⟨node, hmem, rfl⟩, hk⟩
  · rintro ⟨⟨node, hmem, rfl⟩, hk⟩
    exact ⟨node, ⟨node.id, hk, hmem, rfl⟩, rfl⟩

theorem changedSetTraversal_exact (hunique : snapshot.UniqueIds) {t : ChangedSetTraversal}
    (h : changedSetTraversal F snapshot changedSet filters = .ok t) :
    TraversalExact F snapshot changedSet filters t := by
  simp only [changedSetTraversal, bind_eq_ok] at h
  obtain ⟨mappings, hmappings, changedIds, hchanged, contexts, hcontexts, reverse, hreverse, h⟩ := h
  obtain rfl := Except.ok.inj h
  have hlisted (k : String) (edge : EdgeRecord) : edge ∈ reverse.of k ↔
      EdgePasses F snapshot filters edge ∧ edge.target = k := by
    rw [adjacency_mem hunique.edges hreverse, ← and_assoc]
    refine and_congr_left fun _ => and_congr_right fun _ => ⟨fun h => ⟨contexts, hcontexts, h⟩, ?_⟩
    rintro ⟨other, hother, hmatches⟩
    obtain rfl := Except.ok.inj (hcontexts.symm.trans hother)
    exact hmatches
  set nodes := changedIds.toList.filterMap fun id => (nodeMap snapshot)[id]? with hnodes
  have hmem {id : String} : (∃ node ∈ nodes, node.id = id) ↔ Changed snapshot mappings id :=
    mem_changedNodes hunique hchanged
  have hzero {id : String} (hid : Changed snapshot mappings id) :
      reverse.InScope filters (Changed snapshot mappings) id :=
    ⟨0, ⟨id, hid, .refl id⟩, fun _ _ => Nat.zero_le _⟩
  have hstart : SeedsKept filters (Changed snapshot mappings)
      (reverse.InScope filters (Changed snapshot mappings))
      (reverse.EdgeInScope filters (Changed snapshot mappings)) (TraversalBudget.unseeded, ∅) :=
    ⟨TraversalBudget.kept_unseeded, fun id hid => absurd hid ExtTreeSet.not_mem_empty,
      fun id hid => absurd hid ExtTreeSet.not_mem_empty⟩
  obtain ⟨hseeds, hall⟩ := hstart.admitSeeds (fun _ => hzero)
    fun node (hnode : node ∈ nodes) => hmem.1 ⟨node, hnode, rfl⟩
  obtain ⟨hkept, hexplored⟩ := reversePathIndexFromSeeds_kept
    (fun s hs => hseeds.changed s (ExtTreeSet.mem_toList.1 hs))
    (fun s hs => hseeds.admitted s (ExtTreeSet.mem_toList.1 hs)) hseeds.budget
  rw [inScope_eq hlisted, edgeInScope_eq hlisted] at hkept
  have hseedsOf (hcomplete : (admitSeeds filters nodes (TraversalBudget.unseeded, ∅)).1.complete =
      true) (id : String) : id ∈ (admitSeeds filters nodes (TraversalBudget.unseeded, ∅)).2 ↔
        Changed snapshot mappings id := by
    rw [hall hcomplete id, hmem]
    exact or_iff_right ExtTreeSet.not_mem_empty
  refine ⟨hmappings, hlisted, hkept, fun hcomplete => hseedsOf (hexplored hcomplete).1, fun hcomplete => ?_⟩
  obtain ⟨hbudget, hexplored⟩ := hexplored hcomplete
  have hsources : (· ∈ (admitSeeds filters nodes (TraversalBudget.unseeded, ∅)).2.toList) =
      Changed snapshot mappings := by
    funext id
    rw [ExtTreeSet.mem_toList, hseedsOf hbudget id]
  rw [hsources] at hexplored
  exact hexplored

/-- The budget of the traversal. -/
theorem TraversalExact.budgetExact {t : ChangedSetTraversal}
    (h : TraversalExact F snapshot changedSet filters t) :
    BudgetExact F snapshot filters t.mappings t.budget.complete t.budget where
  nodeCount := h.kept.nodeCount
  edgeCount := h.kept.edgeCount
  incomplete := by
    refine ⟨h.kept.refused, fun hrefused => ?_⟩
    by_contra hcomplete
    have hexplored := h.explored (Bool.not_eq_false _ ▸ hcomplete)
    rcases hrefused with ⟨-, id, hid, hmissing⟩ | ⟨-, id, hid, hmissing⟩
    · exact hmissing (hexplored.nodes id (by rwa [inScope_eq h.listed]))
    · exact hmissing (hexplored.edges id (by rwa [edgeInScope_eq h.listed]))

/-! ### Changed paths -/

theorem mem_scopedIds {paths : ReversePathIndex} {k : String} :
    k ∈ paths.scopedIds ↔ ∃ n, paths.depths[k]? = some n := by
  unfold ReversePathIndex.scopedIds
  rw [ExtTreeSet.mem_ofList, List.contains_iff_mem, List.mem_map]
  simp only [Prod.exists, exists_and_right, exists_eq_right, mem_toList]

/-- **A node gets the changed paths it depends on.** -/
theorem TraversalExact.attributed {t : ChangedSetTraversal}
    (h : TraversalExact F snapshot changedSet filters t) (hcomplete : t.budget.complete = true)
    (path nodeId : String) :
    ReachedWithin t.reverse filters t.paths.scopedIds
        ((changedPathSeeds t.mappings t.seeds)[path]?.getD ∅) nodeId ↔
      Depends F snapshot filters (ChangedUnder snapshot t.mappings path) nodeId := by
  have hexplored := h.explored hcomplete
  have hscoped {n : Nat} {s k : String} (hs : Changed snapshot t.mappings s)
      (hw : Search.Walk t.reverse.Leads n s k) (hn : Search.Within filters.depth n) :
      k ∈ t.paths.scopedIds := by
    obtain ⟨m, hm, hdistance⟩ := Search.exists_distance ⟨s, hs, hw⟩
    exact mem_scopedIds.2 ⟨m, (hexplored.depth_iff k m).2 ⟨hdistance, hn.mono hm⟩⟩
  have hseed {s : String} : s ∈ (changedPathSeeds t.mappings t.seeds)[path]?.getD ∅ ↔
      ChangedUnder snapshot t.mappings path s := by
    rw [mem_changedPathSeeds, h.seeds hcomplete]
    constructor
    · rintro ⟨hmaps, hhas, -⟩
      exact ⟨hhas, hmaps⟩
    · rintro ⟨hhas, mapping, hmapping, hlabel, hmem⟩
      exact ⟨⟨mapping, hmapping, hlabel, hmem⟩, hhas, mapping, hmapping, hmem⟩
  rw [← inScope_eq h.listed]
  constructor
  · rintro ⟨n, ⟨s, ⟨hs, -⟩, hw⟩, hn⟩
    exact ⟨n, ⟨s, hseed.1 hs, hw.mono fun _ _ h => h.1⟩, hn⟩
  · rintro ⟨n, ⟨s, hs, hw⟩, hn⟩
    have hchanged : Changed snapshot t.mappings s := by
      obtain ⟨hhas, mapping, hmapping, -, hmem⟩ := hs
      exact ⟨hhas, mapping, hmapping, hmem⟩
    exact ⟨n, ⟨s, ⟨hseed.2 hs, hscoped hchanged (.refl s) (hn.mono (Nat.zero_le n))⟩,
      hw.restrict fun m hm y hy => hscoped hchanged hy (hn.mono hm)⟩, hn⟩

/-! ### Paths -/

/-- What following the successors of a node yields. -/
structure Followed (F : FloatText) (snapshot : GraphSnapshot) (filters : ImpactFilters)
    (sources : String → Prop) (current : String) (depth : Nat) (steps : List PathStep)
    (last : String) : Prop where
  path : EdgePath current (steps.map PathStep.edge) last
  passes : ∀ step ∈ steps, EdgePasses F snapshot filters step.edge
  length : steps.length = depth
  source : sources last

/-- A step to a node that leads to a source. -/
theorem Followed.cons {sources : String → Prop} {edge : EdgeRecord} {depth : Nat}
    {steps : List PathStep} {last : String}
    (h : Followed F snapshot filters sources edge.target depth steps last)
    (hpasses : EdgePasses F snapshot filters edge) {step : PathStep} (hstep : step.edge = edge) :
    Followed F snapshot filters sources edge.source (depth + 1) (step :: steps) last := by
  refine ⟨?_, ?_, ?_, h.source⟩
  · rw [List.map_cons, hstep]
    exact .cons h.path
  · rintro other (_ | ⟨_, hother⟩)
    · rwa [hstep]
    · exact h.passes other hother
  · rw [List.length_cons, h.length]

/-- **The successors of a node lead to a source, one step for each unit of depth.** -/
theorem followSuccessors_followed (hunique : snapshot.UniqueIds) {reverse : Adjacency}
    (hlisted : ∀ k edge, edge ∈ reverse.of k ↔
      EdgePasses F snapshot filters edge ∧ edge.target = k) {sources : String → Prop}
    {paths : ReversePathIndex}
    (hlinked : ∀ k n, paths.depths[k]? = some n → paths.Linked reverse sources k n)
    {maximum fuel depth : Nat} {projection : PathStepProjection} {current : String}
    (hdepth : paths.depths[current]? = some depth) (hfuel : depth ≤ fuel) (path : List PathStep) :
    Ensures (followSuccessors F maximum projection (edgeMap snapshot) paths.successor fuel current
      path) fun result => ∃ steps, result.1 = path ++ steps ∧
        Followed F snapshot filters sources current depth steps result.2 := by
  have hlink := hlinked current depth hdepth
  induction fuel generalizing depth current path with
  | zero =>
    obtain rfl := Nat.le_zero.1 hfuel
    exact Ensures.pure ⟨[], by simp, .nil current, by simp, rfl, hlink.1⟩
  | succ fuel ih =>
    rw [followSuccessors]
    cases depth with
    | zero =>
      rw [hlink.2]
      exact Ensures.pure ⟨[], by simp, .nil current, by simp, rfl, hlink.1⟩
    | succ d =>
      obtain ⟨x, hx, edge, hedge, rfl, hsuccessor⟩ := hlink
      obtain ⟨hpasses, rfl⟩ := (hlisted x edge).1 hedge
      have hfound : (edgeMap snapshot)[edge.id]? = some edge :=
        (getElem?_indexed hunique.edges).2 ⟨hpasses.1, rfl⟩
      simp only [hsuccessor, hfound]
      refine materialize_edge.bind fun step hstep => ?_
      refine (ih hx (Nat.le_of_succ_le_succ hfuel) (path ++ [step])
        (hlinked _ d hx)).mono fun result hresult => ?_
      obtain ⟨steps, hsteps, hfollowed⟩ := hresult
      exact ⟨step :: steps, by rw [hsteps, List.append_assoc]; rfl, hfollowed.cons hpasses hstep⟩

theorem preflight_depth {paths : ReversePathIndex} {suffixLength : Nat}
    {nodes : ExtTreeMap String NodeRecord}
    (h : preflightPathMaterialization paths suffixLength nodes = .ok ()) {k : String} {n : Nat}
    (hk : paths.depths[k]? = some n) (hnode : k ∈ nodes) : n ≤ maxDependencyPathSteps := by
  simp only [preflightPathMaterialization, bind_eq_ok] at h
  obtain ⟨total, hfold, -⟩ := h
  have hmem : (k, n) ∈ paths.depths.toList := mem_toList.2 hk
  generalize paths.depths.toList = entries at hfold hmem
  generalize 0 = start at hfold
  induction entries generalizing start with
  | nil => cases hmem
  | cons entry entries ih =>
    rw [List.foldlM_cons, bind_eq_ok] at hfold
    obtain ⟨next, hnext, hfold⟩ := hfold
    rcases List.mem_cons.1 hmem with rfl | hmem
    · by_contra hlong
      unfold preflightPath at hnext
      rw [if_neg (not_not_intro hnode), if_pos (by omega)] at hnext
      cases hnext
    · exact ih hmem next hfold

/-! ### The result -/

theorem mem_impactEntries {paths : ReversePathIndex} {entry : NodeRecord × String × Nat} :
    entry ∈ impactEntries snapshot paths ↔
      paths.depths[entry.2.1]? = some entry.2.2 ∧ (nodeMap snapshot)[entry.2.1]? = some entry.1 := by
  obtain ⟨node, k, n⟩ := entry
  unfold impactEntries
  rw [List.mem_filterMap]
  constructor
  · rintro ⟨⟨k', n'⟩, hmem, hfound⟩
    obtain ⟨node', hnode, heq⟩ := Option.map_eq_some_iff.1 hfound
    cases heq
    exact ⟨mem_toList.1 hmem, hnode⟩
  · rintro ⟨hdepth, hnode⟩
    exact ⟨(k, n), mem_toList.2 hdepth, by rw [hnode]; rfl⟩

/-- The nodes of the entries are distinct. -/
theorem impactEntries_nodup {paths : ReversePathIndex} :
    ((impactEntries snapshot paths).map fun entry => entry.2.1).Nodup := by
  have hsublist : ((impactEntries snapshot paths).map Prod.snd).Sublist paths.depths.toList := by
    unfold impactEntries
    generalize paths.depths.toList = entries
    induction entries with
    | nil => exact List.Sublist.refl _
    | cons entry entries ih =>
      rw [List.filterMap_cons]
      cases hnode : (nodeMap snapshot)[entry.1]? with
      | none => exact ih.cons entry
      | some node => exact ih.cons_cons entry
  have hnodup := (hsublist.map Prod.fst).nodup keys_nodup
  rwa [List.map_map] at hnodup

/-- An impact comes from an entry, and it is exact if the traversal is complete. -/
structure ImpactOf (F : FloatText) (snapshot : GraphSnapshot) (filters : ImpactFilters)
    (t : ChangedSetTraversal) (entry : NodeRecord × String × Nat) (impact : ChangedSetImpactNode) :
    Prop where
  node : impact.node = entry.1
  depth : impact.depth = entry.2.2
  exact : t.budget.complete = true → ImpactExact F snapshot filters t.mappings impact

theorem TraversalExact.impactNode {t : ChangedSetTraversal} (hunique : snapshot.UniqueIds)
    (h : TraversalExact F snapshot changedSet filters t)
    {attribution : ExtTreeMap String (List String)} {limit maximum : Nat}
    (hattribution : attributeChangedPathsWithLimit t.reverse filters limit t.paths.scopedIds
      (changedPathSeeds t.mappings t.seeds) = .ok attribution)
    (hpreflight : preflightPathMaterialization t.paths 0 (nodeMap snapshot) = .ok ())
    {projection : PathStepProjection} {entry : NodeRecord × String × Nat}
    (hentry : entry ∈ impactEntries snapshot t.paths) :
    Ensures (impactNode F maximum projection (edgeMap snapshot) t.paths attribution entry)
      (ImpactOf F snapshot filters t entry) := by
  obtain ⟨hdepth, hnode⟩ := mem_impactEntries.1 hentry
  obtain ⟨hmem, hid⟩ := (getElem?_indexed hunique.nodes).1 hnode
  have hshort := preflight_depth hpreflight hdepth (mem_iff.2 ⟨_, hnode⟩)
  have hfollow : Ensures (followSuccessors F maximum projection (edgeMap snapshot) t.paths.successor
      (maxDependencyPathSteps + 1) entry.2.1 []) fun result => t.budget.complete = true →
        Followed F snapshot filters (Changed snapshot t.mappings) entry.2.1 entry.2.2 result.1
          result.2 := by
    by_cases hcomplete : t.budget.complete = true
    · refine (followSuccessors_followed hunique h.listed (h.explored hcomplete).linked hdepth
        (Nat.le_succ_of_le hshort) []).mono fun result hresult _ => ?_
      obtain ⟨steps, hsteps, hfollowed⟩ := hresult
      rwa [hsteps]
    · exact Ensures.trivial.mono fun _ _ hother => absurd hother hcomplete
  refine hfollow.bind fun result hresult => Ensures.pure ⟨rfl, rfl, fun hcomplete => ?_⟩
  have hfollowed := hresult hcomplete
  obtain ⟨hpaths, hsorted⟩ := attribution_mem hattribution entry.2.1
  refine ⟨?_, hfollowed.source, ?_, hfollowed.passes, hfollowed.length, fun path => ?_, hsorted⟩
  · rw [← leads_eq h.listed, hid]
    exact (((h.explored hcomplete).depth_iff _ _).1 hdepth).1
  · rw [hid]
    exact hfollowed.path
  · rw [hpaths, h.attributed hcomplete, hid]

/-- The impacts come from the entries, one by one. -/
theorem TraversalExact.impactNodes {t : ChangedSetTraversal} (hunique : snapshot.UniqueIds)
    (h : TraversalExact F snapshot changedSet filters t)
    {attribution : ExtTreeMap String (List String)} {limit maximum : Nat}
    (hattribution : attributeChangedPathsWithLimit t.reverse filters limit t.paths.scopedIds
      (changedPathSeeds t.mappings t.seeds) = .ok attribution)
    (hpreflight : preflightPathMaterialization t.paths 0 (nodeMap snapshot) = .ok ())
    {edges : List EdgeRecord} {impacts : List ChangedSetImpactNode}
    (himpacts : impactNodes F snapshot filters maximum t.paths attribution edges = .ok impacts) :
    List.Forall₂ (ImpactOf F snapshot filters t) (impactEntries snapshot t.paths) impacts := by
  refine Ensures.run (Ensures.after fun projection => Ensures.mapM_forall₂ fun entry hentry => ?_)
    himpacts
  exact h.impactNode hunique hattribution hpreflight hentry

theorem exists_left {α β : Type} {R : α → β → Prop} {l : List α} {l' : List β}
    (h : List.Forall₂ R l l') {b : β} (hb : b ∈ l') : ∃ a ∈ l, R a b := by
  induction h with
  | nil => cases hb
  | cons hab _ ih =>
    rcases List.mem_cons.1 hb with rfl | hb
    · exact ⟨_, List.mem_cons_self, hab⟩
    · obtain ⟨a, ha, hab⟩ := ih hb
      exact ⟨a, List.mem_cons_of_mem _ ha, hab⟩

theorem exists_right {α β : Type} {R : α → β → Prop} {l : List α} {l' : List β}
    (h : List.Forall₂ R l l') {a : α} (ha : a ∈ l) : ∃ b ∈ l', R a b :=
  exists_left h.flip ha

/-- A node has a depth if and only if one of the sources is reached from it within the depth. -/
theorem exists_depth_iff {sources : String → Prop} {depths : ExtTreeMap String Nat} {k : String}
    (hdepths : ∀ n, depths[k]? = some n ↔
      Search.IsDistance (DependsOn F snapshot filters) sources k n ∧ Search.Within filters.depth n) :
    (∃ n, depths[k]? = some n) ↔ Depends F snapshot filters sources k := by
  simp only [hdepths]
  constructor
  · rintro ⟨n, hdistance, hwithin⟩
    exact ⟨n, hdistance.reached, hwithin⟩
  · rintro ⟨n, hreached, hwithin⟩
    obtain ⟨m, hm, hdistance⟩ := Search.exists_distance hreached
    exact ⟨m, hdistance, hwithin.mono hm⟩

/-- The nodes of the impacts are those of the entries. -/
theorem impacts_iff {Impact : Type} {nodeOf : Impact → NodeRecord} {paths : ReversePathIndex}
    {impacts : List Impact} (hunique : snapshot.UniqueIds)
    (h : List.Forall₂ (fun entry impact => nodeOf impact = entry.1) (impactEntries snapshot paths)
      impacts) (node : NodeRecord) :
    (∃ impact ∈ impacts, nodeOf impact = node) ↔
      node ∈ snapshot.nodes ∧ ∃ n, paths.depths[node.id]? = some n := by
  constructor
  · rintro ⟨impact, hmem, rfl⟩
    obtain ⟨entry, hentry, himpact⟩ := exists_left h hmem
    obtain ⟨hdepth, hnode⟩ := mem_impactEntries.1 hentry
    obtain ⟨hmem, hid⟩ := (getElem?_indexed hunique.nodes).1 hnode
    rw [himpact, hid]
    exact ⟨hmem, _, hdepth⟩
  · rintro ⟨hmem, n, hdepth⟩
    have hentry : (node, node.id, n) ∈ impactEntries snapshot paths :=
      mem_impactEntries.2 ⟨hdepth, (getElem?_indexed hunique.nodes).2 ⟨hmem, rfl⟩⟩
    exact exists_right h hentry

/-- The keys by which the impacts are sorted are distinct. -/
theorem impactKeys_nodup {t : ChangedSetTraversal} (hunique : snapshot.UniqueIds)
    {impacts : List ChangedSetImpactNode}
    (h : List.Forall₂ (ImpactOf F snapshot filters t) (impactEntries snapshot t.paths) impacts) :
    (impacts.map fun impact => toLex (impact.depth, impact.node.id)).Nodup := by
  have hids : impacts.map (fun impact => impact.node.id) =
      (impactEntries snapshot t.paths).map fun entry => entry.2.1 := by
    have hnode : ∀ entry ∈ impactEntries snapshot t.paths, entry.1.id = entry.2.1 :=
      fun entry hentry => ((getElem?_indexed hunique.nodes).1 (mem_impactEntries.1 hentry).2).2
    generalize impactEntries snapshot t.paths = entries at h hnode
    induction h with
    | nil => rfl
    | cons himpact _ ih =>
      rw [List.map_cons, List.map_cons, himpact.node, hnode _ List.mem_cons_self,
        ih fun entry hentry => hnode entry (List.mem_cons_of_mem _ hentry)]
  have hnodup : ((impactEntries snapshot t.paths).map fun entry => entry.2.1).Nodup :=
    impactEntries_nodup
  rw [← hids] at hnodup
  refine List.Nodup.of_map (fun key => (ofLex key).2) ?_
  rwa [List.map_map]

/-- **The impact of a changed set is exact**: a complete result has exactly the nodes that depend on
a changed node, each with its distance, a path and its changed paths; the nodes are in order; and the
result is incomplete exactly if a limit refuses something. -/
theorem impactChangedSet_exact (hunique : snapshot.UniqueIds) {result : ChangedSetImpactResult}
    (h : impactChangedSet F snapshot changedSet filters = .ok result) :
    (result.complete = true → ResultExact F snapshot filters result) ∧
    (result.impacts.Pairwise fun a b => toLex (a.depth, a.node.id) < toLex (b.depth, b.node.id)) ∧
    mapChangedSet snapshot changedSet = .ok result.mappings ∧
    ∃ traversal, changedSetTraversal F snapshot changedSet filters = .ok traversal ∧
      BudgetExact F snapshot filters result.mappings result.complete traversal.budget := by
  simp only [impactChangedSet, bind_eq_ok] at h
  obtain ⟨t, htraversal, attribution, hattribution, ⟨⟩, hpreflight, edges, -, impacts, himpacts, h⟩ := h
  obtain rfl := Except.ok.inj h
  have hexact := changedSetTraversal_exact hunique htraversal
  have hforall := hexact.impactNodes hunique hattribution hpreflight himpacts
  refine ⟨fun hcomplete => ⟨fun node => ?_, fun impact hmem => ?_⟩,
    sortByKey_strict _ (impactKeys_nodup hunique hforall), hexact.mapped, t, htraversal,
    hexact.budgetExact⟩
  · have hexplored := hexact.explored hcomplete
    have hdepths (n : Nat) : t.paths.depths[node.id]? = some n ↔
        Search.IsDistance (DependsOn F snapshot filters) (Changed snapshot t.mappings) node.id n ∧
          Search.Within filters.depth n := by
      rw [← leads_eq hexact.listed]
      exact hexplored.depth_iff node.id n
    rw [← exists_depth_iff hdepths,
      ← impacts_iff hunique (hforall.imp fun _ _ himpact => himpact.node) node]
    simp only [mem_sortByKey]
  · obtain ⟨entry, -, himpact⟩ := exists_left hforall ((mem_sortByKey _).1 hmem)
    exact himpact.exact hcomplete

end Proof

namespace Sample

def file (id path : String) : NodeRecord :=
  ⟨id, "file", path, path, .object [("path", .string path)] (List.nodup_singleton _)⟩

def imports (id source target : String) : EdgeRecord :=
  ⟨id, none, source, target, "imports", "static", "production", "p", "resolved", "exact",
    .object [] List.nodup_nil, false⟩

/-- Three files that import one another in a circle. -/
def snapshot : GraphSnapshot where
  nodes := [file "a" "a.rs", file "b" "b.rs", file "c" "c.rs"]
  sites := []
  edges := [imports "e1" "b" "a", imports "e2" "c" "b", imports "e3" "a" "c"]
  evidence := []
  profileMatrix := ⟨[], []⟩

def changedSet : GitChangedSet :=
  ⟨"main", "main", "0", "1", "", [⟨"modified", none, some "a.rs", some "a.rs", []⟩]⟩

def filters (maxNodes : Nat) : ImpactFilters := ⟨some 2, [], [], [], [], [], maxNodes, 10⟩

theorem snapshot_unique : snapshot.UniqueIds := by
  constructor <;> decide

/-- What a reader of the result sees. -/
def summary (result : ChangedSetImpactResult) : Bool × List (String × Nat × List String) :=
  (result.complete, result.impacts.map fun impact =>
    (impact.node.id, impact.depth, impact.dependencyPath.map fun step => step.edge.id))

example : (impactChangedSet .plain snapshot changedSet (filters 10)).toOption.map summary =
    some (true, [("a", 0, []), ("b", 1, ["e1"]), ("c", 2, ["e2", "e1"])]) := by
  decide +kernel

example : (impactChangedSet .plain snapshot changedSet (filters 2)).toOption.map summary =
    some (false, [("a", 0, []), ("b", 1, ["e1"])]) := by
  decide +kernel

theorem impactChangedSet_complete :
    (impactChangedSet .plain snapshot changedSet (filters 10)).toOption.map
      ChangedSetImpactResult.complete = some true := by
  decide +kernel

end Sample

open Sample in
theorem impactChangedSet_exact_circle :
    ∃ result, impactChangedSet .plain snapshot changedSet (filters 10) = .ok result ∧
      result.complete = true ∧ ResultExact .plain snapshot (filters 10) result ∧
      ∃ traversal, changedSetTraversal .plain snapshot changedSet (filters 10) = .ok traversal ∧
        BudgetExact .plain snapshot (filters 10) result.mappings true traversal.budget := by
  cases h : impactChangedSet .plain snapshot changedSet (filters 10) with
  | error e =>
    have hcomplete := impactChangedSet_complete
    rw [h] at hcomplete
    cases hcomplete
  | ok result =>
    have hcomplete := impactChangedSet_complete
    rw [h] at hcomplete
    have hcomplete : result.complete = true := Option.some.inj hcomplete
    obtain ⟨hresult, -, -, t, ht, hbudget⟩ := impactChangedSet_exact snapshot_unique h
    exact ⟨result, rfl, hcomplete, hresult hcomplete, t, ht, hcomplete ▸ hbudget⟩

end Impact
