import Depgraph.Impact.Types

/-!
# Mapping changes to nodes

`map_changed_set`: the nodes that a changed path belongs to, through the paths in their properties
and through the evidence of nodes, sites and edges.
-/

namespace Impact

open Json Protocol Store OrderedMap Metered Std

/-- The nodes of each changed path. -/
abbrev PathIndex : Type := ExtTreeMap String (ExtTreeSet String)

/-- `ImpactChangedSetWork`. -/
abbrev ChangedSetWork : Type → Type := Work Nat ImpactError

def ChangedSetWork.step (maximum : Nat) : ChangedSetWork Unit :=
  Metered.step maximum (.changedSetPreprocessingExhausted maximum)

/-- The components of a path between its slashes. -/
def pathComponents (value : String) : List String :=
  (value.toList.splitOn '/').map String.ofList

/-- `normalize_git_path(value).is_ok()` on a Unix system: of `Path::components`, a root, a parent and
a leading `.` are refused; other `.` components and empty ones are not components. -/
def isGitPath (value : String) : Bool :=
  !value.isEmpty && !value.toList.contains '\\' && value.toList.head? != some '/' &&
    (pathComponents value).head? != some "." && !(pathComponents value).contains ".."

def insertChangedNodePath (maximum : Nat) (index : PathIndex) (path nodeId : String) :
    ChangedSetWork PathIndex := do
  ChangedSetWork.step maximum
  return index.alter path fun ids => some ((ids.getD ∅).insert nodeId)

def indexChangedNodePath (maximum : Nat) (changedPaths : ExtTreeSet String) (nodeId : String)
    (index : PathIndex) (path : String) : ChangedSetWork PathIndex :=
  if path ∈ changedPaths then insertChangedNodePath maximum index path nodeId else return index

/-- The paths in the properties of a node. -/
def nodePaths (node : NodeRecord) : List String :=
  (["path", "source_path", "manifest_path", "relative_path"].filterMap fun key =>
    (node.properties.get key).bind Proper.asStr) ++
  (match node.properties.get "canonical_identity" with
    | none => []
    | some identity => ["path", "source_path", "relative_path"].filterMap fun key =>
      (identity.get key).bind Proper.asStr)

/-- The paths under which sites and edges are to be indexed, by their identities. -/
structure OwnerPaths where
  index : PathIndex
  sitePaths : ExtTreeMap String (List String)
  edgePaths : ExtTreeMap String (List String)

/-- Appends a path to the list of an owner. -/
def pushPath (paths : ExtTreeMap String (List String)) (owner path : String) :
    ExtTreeMap String (List String) :=
  paths.alter owner fun known => some (known.getD [] ++ [path])

/-- A turn of the loop over the evidence. -/
def indexEvidence (maximum : Nat) (changedPaths : ExtTreeSet String) (paths : OwnerPaths)
    (evidence : EvidenceRecord) : ChangedSetWork OwnerPaths :=
  if evidence.path ∈ changedPaths then
    if evidence.ownerType = "node" then do
      let index ← insertChangedNodePath maximum paths.index evidence.path evidence.ownerId
      return { paths with index }
    else if evidence.ownerType = "site" then do
      ChangedSetWork.step maximum
      return { paths with sitePaths := pushPath paths.sitePaths evidence.ownerId evidence.path }
    else if evidence.ownerType = "edge" then do
      ChangedSetWork.step maximum
      return { paths with edgePaths := pushPath paths.edgePaths evidence.ownerId evidence.path }
    else return paths
  else return paths

/-- The kinds of the edges whose target belongs to the path of their evidence. -/
def indexesTarget (edge : EdgeRecord) : Bool :=
  ["declares", "contains", "defines", "routes", "instantiates"].contains edge.kind

/-- `path_node_index_cancellable`. Of records with one identity the later one counts. -/
def pathNodeIndex (maximum : Nat) (snapshot : GraphSnapshot) (changedSet : GitChangedSet) :
    ChangedSetWork PathIndex := do
  let changedPaths ← (changedSet.changes.flatMap fun change =>
    change.oldPath.toList ++ change.newPath.toList).foldlM (fun (paths : ExtTreeSet String) path => do
      ChangedSetWork.step maximum
      return if isGitPath path then paths.insert path else paths) ∅
  let index ← snapshot.nodes.foldlM (fun index node =>
    (nodePaths node).foldlM (indexChangedNodePath maximum changedPaths node.id) index) ∅
  let paths ← snapshot.evidence.foldlM (indexEvidence maximum changedPaths) ⟨index, ∅, ∅⟩
  let sites := OrderedMap.indexed SiteRecord.id
    (snapshot.sites.filter fun site => paths.sitePaths.contains site.id)
  let edges := OrderedMap.indexed EdgeRecord.id
    (snapshot.edges.filter fun edge => paths.edgePaths.contains edge.id)
  let index ← paths.sitePaths.toList.foldlM (fun index (siteId, sitePaths) =>
    match sites[siteId]? with
    | none => return index
    | some site => sitePaths.foldlM (fun index path =>
      insertChangedNodePath maximum index path site.source) index) paths.index
  paths.edgePaths.toList.foldlM (fun index (edgeId, edgePaths) =>
    match edges[edgeId]? with
    | none => return index
    | some edge => edgePaths.foldlM (fun index path => do
      let index ← insertChangedNodePath maximum index path edge.source
      if indexesTarget edge then insertChangedNodePath maximum index path edge.target
      else return index) index) index

/-- `copy_changed_node_ids`: the identities, and the set they are added to. -/
def copyChangedNodeIds (maximum : Nat) (ids : Option (ExtTreeSet String))
    (correlated : ExtTreeSet String) : ChangedSetWork (List String × ExtTreeSet String) :=
  ((ids.elim [] ExtTreeSet.toList)).foldlM (fun (copied, correlated) nodeId => do
    ChangedSetWork.step maximum
    ChangedSetWork.step maximum
    return (copied ++ [nodeId], correlated.insert nodeId)) ([], correlated)

/-- The mapping of one change. -/
def mapChange (maximum : Nat) (index : PathIndex) (change : GitChange) :
    ChangedSetWork ChangedNodeMapping := do
  ChangedSetWork.step maximum
  let (oldNodeIds, correlated) ←
    copyChangedNodeIds maximum (change.oldPath.bind fun path => index[path]?) ∅
  let (newNodeIds, correlated) ←
    copyChangedNodeIds maximum (change.newPath.bind fun path => index[path]?) correlated
  let correlatedNodeIds ← correlated.toList.mapM fun nodeId => do
    ChangedSetWork.step maximum
    return nodeId
  let sources ← change.sources.mapM fun source => do
    ChangedSetWork.step maximum
    return source
  return ⟨{ change with sources }, oldNodeIds, newNodeIds, correlatedNodeIds⟩

def mapChangedSetWithLimit (snapshot : GraphSnapshot) (changedSet : GitChangedSet)
    (maximum : Nat) : Except ImpactError (List ChangedNodeMapping) :=
  Metered.run (do
    let index ← pathNodeIndex maximum snapshot changedSet
    changedSet.changes.mapM (mapChange maximum index)) 0

def mapChangedSet (snapshot : GraphSnapshot) (changedSet : GitChangedSet) :
    Except ImpactError (List ChangedNodeMapping) :=
  mapChangedSetWithLimit snapshot changedSet maxGraphServicePreprocessingWorkItems

/-- `changed_node_ids_cancellable`. -/
def changedNodeIds (mappings : List ChangedNodeMapping) :
    Except ImpactError (ExtTreeSet String) :=
  Metered.run ((mappings.flatMap ChangedNodeMapping.correlatedNodeIds).foldlM
    (fun (ids : ExtTreeSet String) nodeId => do
      ChangedSetWork.step maxGraphServicePreprocessingWorkItems
      return ids.insert nodeId) ∅) 0

/-- The changed nodes are the nodes that some change is mapped to. -/
theorem mem_changedNodeIds {mappings : List ChangedNodeMapping} {ids : ExtTreeSet String}
    (h : changedNodeIds mappings = .ok ids) {nodeId : String} :
    nodeId ∈ ids ↔ ∃ mapping ∈ mappings, nodeId ∈ mapping.correlatedNodeIds := by
  have hensures : Ensures ((mappings.flatMap ChangedNodeMapping.correlatedNodeIds).foldlM
      (fun (ids : ExtTreeSet String) nodeId => do
        ChangedSetWork.step maxGraphServicePreprocessingWorkItems
        return ids.insert nodeId) ∅)
      fun ids => ∀ id, id ∈ ids ↔ id ∈ mappings.flatMap ChangedNodeMapping.correlatedNodeIds := by
    refine Ensures.foldlM (motive := fun done (ids : ExtTreeSet String) => ∀ id, id ∈ ids ↔ id ∈ done)
      ?_ ?_
    · simp
    · intro done nodeId ids _ hids
      refine Ensures.after fun _ => Ensures.pure fun id => ?_
      rw [mem_insert, hids, List.mem_append, List.mem_singleton, or_comm]
  rw [hensures.run h nodeId, List.mem_flatMap]

end Impact
