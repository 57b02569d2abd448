import Depgraph.Library.Grouping
import Depgraph.Library.Metered
import Depgraph.Protocol.ConditionText
import Depgraph.Store.Record

/-!
# Changed sets, filters and results

The records of `impact.rs`, and the limits of its work. A computation that counts work is a `Work`
with the number of items used.
-/

namespace Impact

open Json Protocol Store OrderedMap Metered Std

/-! ### Limits and errors -/

/-- The errors, with the limit that is exceeded. -/
inductive ImpactError where
  | pathMaterializationExhausted (maximum : Nat)
  | runtimeContextIndexExhausted (maximum : Nat)
  | changedSetPreprocessingExhausted (maximum : Nat)
  | adjacencyPreprocessingExhausted (maximum : Nat)
  | changedPathAttributionExhausted (maximum : Nat)
  | queryPostprocessingExhausted
  | queryPostprocessingWorkExhausted (maximum : Nat)
  | queryPostprocessingIntegrity
  | message (text : String)
deriving DecidableEq

/-- `MAX_GRAPH_SERVICE_PREPROCESSING_WORK_ITEMS`, which is `MAX_INTERACTIVE_QUERY_TRAVERSAL`. -/
def maxGraphServicePreprocessingWorkItems : Nat := 1000000

def maxGraphSnapshotScanWorkItems : Nat := 16000000

def maxDependencyPathSteps : Nat := 1000

def maxImpactMaterializedPathSteps : Nat := 50000

def maxGraphEvidenceItems : Nat := 64

def maxUnresolvedCorrelationReasons : Nat := 16

def maxGraphPhaseCoverageItems : Nat := 64

/-! ### Snapshots -/

structure PhaseCoverageRecord where
  profileIds : List String
  sites : Nat
  edges : Nat
  evidence : Nat
  resolved : Nat
  candidates : Nat
  external : Nat
  unresolved : Nat
  completeness : List String

/-- `ProfileMatrixEntryRecord`, as far as it is read. -/
structure ProfileMatrixEntryRecord where
  id : String
  phaseCoverage : ExtTreeMap String PhaseCoverageRecord

/-- `ProfileCorrelationRecord`, as far as it is read. -/
structure ProfileCorrelationRecord where
  effectiveProfileId : String
  status : String
  edgeIdsByPhase : ExtTreeMap String (List String)
  differenceReasons : List String

/-- `ProfileMatrixRecord`, as far as it is read. -/
structure ProfileMatrixRecord where
  entries : List ProfileMatrixEntryRecord
  correlations : List ProfileCorrelationRecord

/-- `GraphSnapshot`, as far as it is read. -/
structure GraphSnapshot where
  nodes : List NodeRecord
  sites : List SiteRecord
  edges : List EdgeRecord
  evidence : List EvidenceRecord
  profileMatrix : ProfileMatrixRecord

/-- The identities of the nodes and of the edges are distinct. -/
structure GraphSnapshot.UniqueIds (s : GraphSnapshot) : Prop where
  nodes : (s.nodes.map NodeRecord.id).Nodup
  edges : (s.edges.map EdgeRecord.id).Nodup

/-! ### Changed sets -/

structure GitChange where
  status : String
  similarity : Option Nat
  oldPath : Option String
  newPath : Option String
  sources : List String

structure GitChangedSet where
  requestedRef : String
  resolvedRef : String
  mergeBase : String
  head : String
  repositoryPrefix : String
  changes : List GitChange

structure ChangedNodeMapping where
  change : GitChange
  oldNodeIds : List String
  newNodeIds : List String
  correlatedNodeIds : List String

/-- `changed_path_label`: the path a change is reported under. -/
def changedPathLabel (change : GitChange) : Option String := change.newPath.or change.oldPath

/-! ### Filters -/

/-- The loop of `binary_search`. -/
def searchBase (values : List String) (value : String) : Nat → Nat → Nat → Nat
  | 0, base, _ => base
  | fuel + 1, base, size =>
    if size ≤ 1 then base
    else
      let half := size / 2
      let mid := base + half
      searchBase values value fuel
        (if (values[mid]?).any fun candidate => value < candidate then base else mid) (size - half)

/-- `binary_search(value).is_ok()`. -/
def binarySearch (values : List String) (value : String) : Bool :=
  values[searchBase values value values.length 0 values.length]? = some value

structure RuntimeEdgeContext where
  sessionIds : List String
  sourceSessionIds : List String
  environmentNames : List String
  runtimes : List String
  regions : List String
  observationCount : Nat
  firstObservedAt : Option String
  lastObservedAt : Option String

structure ImpactFilters where
  depth : Option Nat
  profiles : List String
  conditions : List String
  phases : List String
  sessions : List String
  environments : List String
  maxNodes : Nat
  maxEdges : Nat

def ImpactFilters.matches (F : FloatText) (filters : ImpactFilters) (edge : EdgeRecord)
    (runtimeContexts : Option (ExtTreeMap String RuntimeEdgeContext)) : Bool :=
  let structural :=
    (filters.profiles.isEmpty || binarySearch filters.profiles edge.profileId) &&
    (filters.conditions.isEmpty ||
      binarySearch filters.conditions (renderCondition F edge.condition.value)) &&
    (filters.phases.isEmpty || binarySearch filters.phases edge.phase)
  if !structural then false
  else if filters.sessions.isEmpty && filters.environments.isEmpty then true
  else if edge.phase != "runtime" then false
  else
    match runtimeContexts.bind fun contexts => contexts[edge.id]? with
    | none => false
    | some context =>
      (filters.sessions.isEmpty ||
        (context.sessionIds ++ context.sourceSessionIds).any (binarySearch filters.sessions)) &&
      (filters.environments.isEmpty ||
        (context.environmentNames ++ context.runtimes ++ context.regions).any
          (binarySearch filters.environments))

/-! ### Results -/

structure ImpactDiagnostic where
  code : String
  message : String
deriving DecidableEq

structure PathStep where
  edge : EdgeRecord
  conditionText : String
  evidence : List EvidenceRecord
  effectiveProfileId : Option String
  correlationStatus : Option String
  observedDifferenceReasons : List String
  phaseCoverage : ExtTreeMap String PhaseCoverageRecord

structure ChangedSetImpactNode where
  node : NodeRecord
  depth : Nat
  changedNodeId : String
  changedPaths : List String
  dependencyPath : List PathStep

structure UnmappedChange where
  status : String
  oldPath : Option String
  newPath : Option String
  reason : String

structure ChangedSetImpactResult where
  mode : String
  complete : Bool
  filters : ImpactFilters
  changedSet : GitChangedSet
  mappings : List ChangedNodeMapping
  changedNodes : List NodeRecord
  unmapped : List UnmappedChange
  impacts : List ChangedSetImpactNode
  diagnostics : List ImpactDiagnostic

end Impact
