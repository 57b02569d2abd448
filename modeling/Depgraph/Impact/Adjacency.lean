import Depgraph.Impact.Types

/-!
# Runtime contexts and adjacency

What a filter needs to know about runtime edges, and the edges that pass the filters, ordered by the
node they are listed under. `adjacency_mem` says that exactly these edges are listed.
-/

namespace Impact

open Json Protocol Store OrderedMap Metered Std

/-! ### Runtime contexts -/

structure RuntimeContextAccumulator where
  sessionIds : ExtTreeSet String
  sourceSessionIds : ExtTreeSet String
  environmentNames : ExtTreeSet String
  runtimes : ExtTreeSet String
  regions : ExtTreeSet String
  observationCount : Nat
  firstObservedAt : Option String
  lastObservedAt : Option String

def RuntimeContextAccumulator.default : RuntimeContextAccumulator :=
  ⟨∅, ∅, ∅, ∅, ∅, 0, none, none⟩

/-- `RuntimeContextWorkBudget`. -/
abbrev RuntimeContextWork : Type → Type := Work Nat ImpactError

def RuntimeContextWork.step (maximum : Nat) : RuntimeContextWork Unit :=
  Metered.step maximum (.runtimeContextIndexExhausted maximum)

def insertRuntimeString (maximum : Nat) (output : ExtTreeSet String) (value : Option Proper) :
    RuntimeContextWork (ExtTreeSet String) :=
  match value.bind Proper.asStr with
  | none => return output
  | some value =>
    if value ∈ output then return output
    else do
      RuntimeContextWork.step maximum
      return output.insert value

/-- `update_runtime_min` and `update_runtime_max`: the new value counts if it is better. -/
def updateRuntime (maximum : Nat) (better : String → String → Bool) (current value : Option String) :
    RuntimeContextWork (Option String) :=
  match value with
  | none => return current
  | some value =>
    if current.all (better value) then do
      RuntimeContextWork.step maximum
      return some value
    else return current

def updateRuntimeMin (maximum : Nat) : Option String → Option String →
    RuntimeContextWork (Option String) :=
  updateRuntime maximum fun value current => value < current

def updateRuntimeMax (maximum : Nat) : Option String → Option String →
    RuntimeContextWork (Option String) :=
  updateRuntime maximum fun value current => current < value

/-- `u64::MAX`. -/
def maxU64 : Nat := 2 ^ 64 - 1

def asU64 (value : Proper) : Option Nat :=
  match value.value with
  | .number (.int n) => if 0 ≤ n then some n.toNat else none
  | _ => none

/-- Adds the evidence of an edge to its accumulator. -/
def accumulateRuntime (maximum : Nat) (acc : RuntimeContextAccumulator)
    (evidence : EvidenceRecord) : RuntimeContextWork RuntimeContextAccumulator := do
  let sessionIds ← insertRuntimeString maximum acc.sessionIds (evidence.properties.get "session_id")
  let sourceSessionIds ← insertRuntimeString maximum acc.sourceSessionIds
    (evidence.properties.get "source_session_id")
  let environment := evidence.properties.get "environment"
  let environmentNames ← insertRuntimeString maximum acc.environmentNames
    (environment.bind fun environment => environment.get "name")
  let runtimes ← insertRuntimeString maximum acc.runtimes
    (environment.bind fun environment => environment.get "runtime")
  let regions ← insertRuntimeString maximum acc.regions
    (environment.bind fun environment => environment.get "region")
  let count := ((evidence.properties.get "count").bind asU64).getD 0
  let firstObservedAt ← updateRuntimeMin maximum acc.firstObservedAt
    ((evidence.properties.get "first_observed_at").bind Proper.asStr)
  let lastObservedAt ← updateRuntimeMax maximum acc.lastObservedAt
    ((evidence.properties.get "last_observed_at").bind Proper.asStr)
  return { sessionIds, sourceSessionIds, environmentNames, runtimes, regions,
           observationCount := min (acc.observationCount + count) maxU64,
           firstObservedAt, lastObservedAt }

/-- A turn of the loop over the evidence. -/
def accumulateEvidence (maximum : Nat)
    (accumulators : ExtTreeMap String RuntimeContextAccumulator) (evidence : EvidenceRecord) :
    RuntimeContextWork (ExtTreeMap String RuntimeContextAccumulator) := do
  RuntimeContextWork.step maximum
  if evidence.ownerType ≠ "edge" ∨ evidence.kind ≠ "runtime" then return accumulators
  else
    if evidence.ownerId ∉ accumulators then RuntimeContextWork.step maximum
    let acc ← accumulateRuntime maximum
      (accumulators[evidence.ownerId]?.getD RuntimeContextAccumulator.default) evidence
    return accumulators.insert evidence.ownerId acc

def materializeRuntimeValues (maximum : Nat) (values : ExtTreeSet String) :
    RuntimeContextWork (List String) :=
  values.toList.mapM fun value => do
    RuntimeContextWork.step maximum
    return value

/-- The context of an edge from its accumulator. -/
def materializeContext (maximum : Nat) (acc : RuntimeContextAccumulator) :
    RuntimeContextWork RuntimeEdgeContext := do
  RuntimeContextWork.step maximum
  let sessionIds ← materializeRuntimeValues maximum acc.sessionIds
  let sourceSessionIds ← materializeRuntimeValues maximum acc.sourceSessionIds
  let environmentNames ← materializeRuntimeValues maximum acc.environmentNames
  let runtimes ← materializeRuntimeValues maximum acc.runtimes
  let regions ← materializeRuntimeValues maximum acc.regions
  return { sessionIds, sourceSessionIds, environmentNames, runtimes, regions,
           observationCount := acc.observationCount, firstObservedAt := acc.firstObservedAt,
           lastObservedAt := acc.lastObservedAt }

def runtimeContextIndexWithLimit (snapshot : GraphSnapshot) (filters : ImpactFilters)
    (maximum : Nat) : Except ImpactError (Option (ExtTreeMap String RuntimeEdgeContext)) :=
  if (filters.sessions.isEmpty && filters.environments.isEmpty) ||
      (!filters.phases.isEmpty && !binarySearch filters.phases "runtime") then .ok none
  else Metered.run (do
    let accumulators ← snapshot.evidence.foldlM (accumulateEvidence maximum) ∅
    let contexts ← accumulators.toList.foldlM (fun (contexts : ExtTreeMap String _) entry => do
      let context ← materializeContext maximum entry.2
      return contexts.insert entry.1 context) ∅
    return some contexts) 0

/-- `runtime_context_index_cancellable`. -/
def runtimeContextIndex (snapshot : GraphSnapshot) (filters : ImpactFilters) :
    Except ImpactError (Option (ExtTreeMap String RuntimeEdgeContext)) :=
  runtimeContextIndexWithLimit snapshot filters maxGraphSnapshotScanWorkItems

/-! ### Adjacency -/

/-- `ImpactAdjacencyWork`. -/
abbrev AdjacencyWork : Type → Type := Work Nat ImpactError

def AdjacencyWork.step (maximum : Nat) : AdjacencyWork Unit :=
  Metered.step maximum (.adjacencyPreprocessingExhausted maximum)

/-- The edges that are listed under each node. -/
abbrev Adjacency : Type := ExtTreeMap String (List EdgeRecord)

/-- The node an edge is listed under, and the node it leads to. -/
def edgeEnds (reverse : Bool) (edge : EdgeRecord) : String × String :=
  if reverse then (edge.target, edge.source) else (edge.source, edge.target)

/-- Edges by the node they lead to and their identity. -/
abbrev EdgeGroup : Type := ExtTreeMap (String ×ₗ String) EdgeRecord

/-- The edges under each node. -/
abbrev OrderedEdges : Type := ExtTreeMap String EdgeGroup

/-- A turn of the loop over the edges. -/
def orderEdge (F : FloatText) (reverse : Bool) (filters : ImpactFilters)
    (runtimeContexts : Option (ExtTreeMap String RuntimeEdgeContext)) (maximum : Nat)
    (ordered : OrderedEdges) (edge : EdgeRecord) : AdjacencyWork OrderedEdges := do
  AdjacencyWork.step maximum
  if filters.matches F edge runtimeContexts then
    AdjacencyWork.step maximum
    return ordered.alter (edgeEnds reverse edge).1 fun edges =>
      some ((edges.getD ∅).insert (toLex ((edgeEnds reverse edge).2, edge.id)) edge)
  else return ordered

/-- The edges of a node as a list. -/
def materializeEdges (maximum : Nat) (adjacency : Adjacency)
    (entry : String × EdgeGroup) : AdjacencyWork Adjacency := do
  let edges ← (values entry.2).mapM fun edge => do
    AdjacencyWork.step maximum
    return edge
  return adjacency.insert entry.1 edges

def adjacencyWithLimit (F : FloatText) (snapshot : GraphSnapshot) (reverse : Bool)
    (filters : ImpactFilters) (runtimeContexts : Option (ExtTreeMap String RuntimeEdgeContext))
    (maximum : Nat) : Except ImpactError Adjacency :=
  Metered.run (do
    let ordered ← snapshot.edges.foldlM (orderEdge F reverse filters runtimeContexts maximum) ∅
    ordered.toList.foldlM (materializeEdges maximum) ∅) 0

/-- `adjacency_cancellable`. -/
def adjacency (F : FloatText) (snapshot : GraphSnapshot) (reverse : Bool)
    (filters : ImpactFilters) (runtimeContexts : Option (ExtTreeMap String RuntimeEdgeContext)) :
    Except ImpactError Adjacency :=
  adjacencyWithLimit F snapshot reverse filters runtimeContexts maxGraphSnapshotScanWorkItems

/-- The edges listed under a node. -/
def Adjacency.of (adjacency : Adjacency) (node : String) : List EdgeRecord :=
  adjacency[node]?.getD []

/-! ### What is listed -/

section Listed

variable {F : FloatText} {reverse : Bool} {filters : ImpactFilters}
  {contexts : Option (ExtTreeMap String RuntimeEdgeContext)} {maximum : Nat}

/-- The edges of a list are ordered by their ends and identities. -/
def OrderedBy (F : FloatText) (reverse : Bool) (filters : ImpactFilters)
    (contexts : Option (ExtTreeMap String RuntimeEdgeContext)) (edges : List EdgeRecord)
    (ordered : OrderedEdges) : Prop :=
  ∀ node key edge, (ordered[node]?.getD ∅)[key]? = some edge ↔
    edge ∈ edges ∧ filters.matches F edge contexts = true ∧ (edgeEnds reverse edge).1 = node ∧
      toLex ((edgeEnds reverse edge).2, edge.id) = key

theorem orderEdge_ordered {edges done : List EdgeRecord} (hids : (edges.map EdgeRecord.id).Nodup)
    {edge : EdgeRecord} (hpart : done ++ [edge] <+: edges) {ordered : OrderedEdges}
    (h : OrderedBy F reverse filters contexts done ordered) :
    Ensures (orderEdge F reverse filters contexts maximum ordered edge)
      (OrderedBy F reverse filters contexts (done ++ [edge])) := by
  refine Ensures.after fun _ => Ensures.ite (fun hmatches => Ensures.after fun _ => ?_) fun hfails =>
    ?_
  · refine Ensures.pure fun node key other => ?_
    have hsame (hother : other ∈ done) (hid : other.id = edge.id) : other = edge :=
      List.inj_on_of_nodup_map hids (hpart.subset (List.mem_append_left _ hother))
        (hpart.subset (by simp)) hid
    rw [getElem?_alter, List.mem_append, List.mem_singleton]
    by_cases hnode : node = (edgeEnds reverse edge).1
    · rw [if_pos hnode, Option.getD_some, getElem?_insert]
      by_cases hkey : key = toLex ((edgeEnds reverse edge).2, edge.id)
      · rw [if_pos hkey]
        constructor
        · rintro h
          obtain rfl := Option.some.inj h
          exact ⟨Or.inr rfl, hmatches, hnode.symm, hkey.symm⟩
        · rintro ⟨hother | rfl, -, -, hkey'⟩
          · rw [hsame hother (Prod.mk.inj (hkey'.trans hkey)).2]
          · rfl
      · rw [if_neg hkey, ← hnode, h node key other]
        refine and_congr_left fun hother => (or_iff_left ?_).symm
        rintro rfl
        exact hkey hother.2.2.symm
    · rw [if_neg hnode, h node key other]
      refine and_congr_left fun hother => (or_iff_left ?_).symm
      rintro rfl
      exact hnode hother.2.1.symm
  · refine Ensures.pure fun node key other => ?_
    rw [h node key other, List.mem_append, List.mem_singleton]
    refine and_congr_left fun hother => (or_iff_left ?_).symm
    rintro rfl
    exact hfails hother.1

theorem materializeEdges_eq {adjacency : Adjacency} {entry : String × EdgeGroup} :
    Ensures (materializeEdges maximum adjacency entry)
      (· = adjacency.insert entry.1 (values entry.2)) := by
  have hvalues : Ensures ((values entry.2).mapM fun edge => do
      AdjacencyWork.step maximum
      return edge) (· = (values entry.2).map id) :=
    Ensures.mapM fun edge _ => Ensures.after fun _ => Ensures.pure rfl
  refine hvalues.bind fun edges hedges => Ensures.pure ?_
  rw [hedges, List.map_id]

/-- **Under a node exactly the edges are listed that pass the filters and end there.** -/
theorem adjacency_mem {snapshot : GraphSnapshot} (hids : (snapshot.edges.map EdgeRecord.id).Nodup)
    {adj : Adjacency} (h : adjacencyWithLimit F snapshot reverse filters contexts maximum = .ok adj)
    {node : String} {edge : EdgeRecord} : edge ∈ adj.of node ↔
      edge ∈ snapshot.edges ∧ filters.matches F edge contexts = true ∧
        (edgeEnds reverse edge).1 = node := by
  have hensures : Ensures (do
      let ordered ← snapshot.edges.foldlM (orderEdge F reverse filters contexts maximum) ∅
      ordered.toList.foldlM (materializeEdges maximum) ∅)
      fun adj => ∃ ordered, OrderedBy F reverse filters contexts snapshot.edges ordered ∧
        ∀ node : String, adj[node]? = ordered[node]?.map values := by
    refine (Ensures.foldlM (motive := OrderedBy F reverse filters contexts) (by simp [OrderedBy])
      fun done edge ordered hpart => orderEdge_ordered hids hpart).bind fun ordered hordered => ?_
    exact (Ensures.foldlM_entries fun adj entry => materializeEdges_eq).mono fun adj hadj =>
      ⟨ordered, hordered, hadj⟩
  obtain ⟨ordered, hordered, hadj⟩ := hensures.run h
  have hof : adj.of node = values (ordered[node]?.getD ∅) := by
    rw [Adjacency.of, hadj node]
    cases ordered[node]? <;> rfl
  rw [hof, mem_values]
  constructor
  · rintro ⟨key, hkey⟩
    obtain ⟨hmem, hmatches, hnode, -⟩ := (hordered node key edge).1 hkey
    exact ⟨hmem, hmatches, hnode⟩
  · rintro ⟨hmem, hmatches, hnode⟩
    exact ⟨_, (hordered node _ edge).2 ⟨hmem, hmatches, hnode, rfl⟩⟩

end Listed

end Impact
