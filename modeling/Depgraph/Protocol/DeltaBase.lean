import Depgraph.Protocol.Validator
import Mathlib.Data.Prod.Lex
import Mathlib.Order.WithBot

/-!
# The base of a delta and the request for one

`delta.rs`: `DeltaBaseGraph::from_protocol` turns an accepted stream into a base, with the evidence in
a map of its own; a `WorkerDeltaRequest` carries a base as sorted lists, and `base_graph` builds the
maps again.
-/

namespace Protocol

open Json Fallible OrderedMap

/-! ### From a stream -/

/-- The evidence of an owner with the keys that `from_protocol` gives it: `ordinal as u32`. -/
def ownedRecords (ownerType : DeltaEvidenceOwner) (ownerId : String) (evidence : List Evidence) :
    List (DeltaEvidenceKey × Evidence) :=
  evidence.mapIdx fun ordinal item => (⟨ownerType, ownerId, ordinal % 2 ^ 32⟩, item)

/-- The loops of `from_protocol` over the sites and the edges. -/
def protocolEvidence (sites : SiteMap) (edges : EdgeMap) : EvidenceMap :=
  insertAll ∅ ((values sites).flatMap (fun site => ownedRecords .site site.id site.evidence) ++
    (values edges).flatMap fun edge => ownedRecords .edge edge.id edge.evidence)

/-- The coverage record of an event. -/
def eventCoverage (event : ProtocolEvent) : Option DeltaCoverage :=
  match event.payload with
  | .fileCompleted path discoveredSites emittedSites skippedSites skipped reason =>
    some (.file event.common.adapter path
      ⟨discoveredSites, emittedSites, skippedSites, skipped, reason⟩)
  | .profileCompleted profileId coverage => some (.profile profileId coverage)
  | .scanCompleted coverage => some (.aggregate coverage)
  | _ => none

/-- The loop of `from_protocol` over the events. -/
def protocolCoverage (events : List ProtocolEvent) : CoverageMap :=
  insertAll ∅ ((events.filterMap eventCoverage).map fun item => (item.key, item))

/-- `DeltaBaseGraph::from_protocol`, the maps. -/
def DeltaGraph.fromProtocol (protocol : ValidatedProtocol) : DeltaGraph where
  profiles := .ofList protocol.profiles.keys
  nodes := protocol.nodes
  sites := protocol.sites.map fun _ site => { site with evidence := [] }
  edges := protocol.edges.map fun _ edge => { edge with evidence := [] }
  evidence := protocolEvidence protocol.sites protocol.edges
  coverage := protocolCoverage protocol.events

def DeltaBaseGraph.fromProtocol (snapshotId graphDigest : String) (protocol : ValidatedProtocol) :
    DeltaBaseGraph where
  toDeltaGraph := .fromProtocol protocol
  snapshotId
  graphDigest

/-! ### Requests -/

/-- One entry of the evidence map on the wire. -/
structure DeltaEvidenceRecord where
  key : DeltaEvidenceKey
  evidence : Evidence

def DeltaEvidenceRecord.toValue (entry : DeltaEvidenceRecord) : Value :=
  .object (entry.key.members ++ [("evidence", entry.evidence.toValue)])

/-- Canonical graph payload supplied to a delta-capable worker. -/
structure WorkerDeltaBaseGraph where
  profiles : List String
  nodes : List GraphNode
  sites : List DependencySite
  edges : List GraphEdge
  evidence : List DeltaEvidenceRecord
  coverage : List DeltaCoverage

def DeltaGraph.workerRequestPayload (graph : DeltaGraph) : WorkerDeltaBaseGraph where
  profiles := graph.profiles.toList
  nodes := values graph.nodes
  sites := values graph.sites
  edges := values graph.edges
  evidence := graph.evidence.toList.map fun entry => ⟨entry.1, entry.2⟩
  coverage := values graph.coverage

inductive WorkerDeltaFileChangeKind where
  | added | modified | deleted | renamed
deriving DecidableEq

/-- The position of a kind in the derived order. -/
def WorkerDeltaFileChangeKind.rank : WorkerDeltaFileChangeKind → Nat
  | .added => 0
  | .modified => 1
  | .deleted => 2
  | .renamed => 3

structure WorkerDeltaFileChange where
  kind : WorkerDeltaFileChangeKind
  oldPath : Option String
  newPath : Option String
deriving DecidableEq

/-- What the derived order compares; a missing path comes first. -/
def WorkerDeltaFileChange.orderKey (change : WorkerDeltaFileChange) :
    Nat ×ₗ WithBot String ×ₗ WithBot String :=
  toLex (change.kind.rank, toLex (change.oldPath, change.newPath))

inductive WorkerDeltaAnalysisMode where
  | complete | semanticNoop
deriving DecidableEq

/-- A deterministic, exact-base request for one worker's analysis closure. -/
structure WorkerDeltaRequest where
  schemaVersion : String
  protocolVersion : String
  scanId : String
  adapter : String
  analysisMode : WorkerDeltaAnalysisMode
  baseSnapshotId : String
  baseGraphDigest : String
  changes : List WorkerDeltaFileChange
  scope : DeltaScope
  baseGraph : WorkerDeltaBaseGraph

def workerDeltaRequestSchemaVersion : String := "worker-delta-request-v1"

/-- Whether the paths of a change are those of its kind. -/
def WorkerDeltaFileChange.fitsKind (change : WorkerDeltaFileChange) : Bool :=
  match change.kind with
  | .added | .modified => change.oldPath.isNone && change.newPath.isSome
  | .deleted => change.oldPath.isSome && change.newPath.isNone
  | .renamed => change.oldPath.isSome && change.newPath.isSome && change.oldPath != change.newPath

/-- The checks of one path of a change. The paths of a validated scope are sorted, so the binary
search of the source finds every member. -/
def validateChangePath (scope : DeltaScope) (which : String) (path : Option String) :
    Except ProtocolError Unit :=
  match path with
  | none => .ok ()
  | some path => do
    validateRelativePath ("worker delta request " ++ which ++ " path") path
    ensure (path ∈ scope.paths)
      ("worker delta request " ++ which ++ " path is outside its analysis closure")

/-- The checks of one change. -/
def validateChange (scope : DeltaScope) (change : WorkerDeltaFileChange) :
    Except ProtocolError Unit := do
  ensure (change.fitsKind = true) "worker delta request change does not match its change kind"
  validateChangePath scope "old" change.oldPath
  validateChangePath scope "new" change.newPath

/-- The checks of the list of changes. -/
def validateChanges (scope : DeltaScope) (changes : List WorkerDeltaFileChange) :
    Except ProtocolError Unit := do
  ensure (changes ≠ []) "worker delta request must include at least one file change"
  ensure ((changes.map WorkerDeltaFileChange.orderKey).IsChain (· < ·))
    "worker delta request changes must be sorted and unique"
  changes.forM (validateChange scope)

/-- The collections of a payload are sorted and unique. -/
def WorkerDeltaBaseGraph.Sorted (graph : WorkerDeltaBaseGraph) : Prop :=
  graph.profiles.IsChain (· < ·) ∧ (graph.nodes.map GraphNode.id).IsChain (· < ·) ∧
    (graph.sites.map DependencySite.id).IsChain (· < ·) ∧
    (graph.edges.map GraphEdge.id).IsChain (· < ·) ∧
    (graph.evidence.map DeltaEvidenceRecord.key).IsChain (fun a b => compare a b = .lt) ∧
    (graph.coverage.map DeltaCoverage.key).IsChain fun a b => compare a b = .lt

instance WorkerDeltaBaseGraph.decidableSorted (graph : WorkerDeltaBaseGraph) :
    Decidable graph.Sorted :=
  inferInstanceAs (Decidable (_ ∧ _))

/-- One turn of a loop of `base_graph`: an insertion that must not replace anything. -/
def insertOnce {K V : Type} [Ord K] [Std.TransOrd K] (entity : String) (name : K → String)
    (m : Std.ExtTreeMap K V) (entry : K × V) : Except ProtocolError (Std.ExtTreeMap K V) := do
  ensure (entry.1 ∉ m) ("worker delta request repeats " ++ entity ++ " " ++ name entry.1)
  return m.insert entry.1 entry.2

/-- One turn of the loop over the profiles. -/
def insertProfile (profiles : IdSet) (profileId : String) : Except ProtocolError IdSet := do
  ensure (profileId ∉ profiles) ("worker delta request repeats profile " ++ profileId)
  return profiles.insert profileId

section

variable (S : StableIds)

/-- `delta_graph_digest`: the digest in the stable id of the graph. -/
def deltaGraphDigest (graph : DeltaGraph) : String :=
  let stableId := S.stableIdFromValue "worker-graph" (.object [("schema", .string deltaContractVersion),
    ("profiles", stringsValue graph.profiles.toList),
    ("nodes", .array ((values graph.nodes).map GraphNode.toValue)),
    ("sites", .array ((values graph.sites).map DependencySite.toValue)),
    ("edges", .array ((values graph.edges).map GraphEdge.toValue)),
    ("evidence", .array ((graph.evidence.toList.map fun entry =>
      DeltaEvidenceRecord.mk entry.1 entry.2).map DeltaEvidenceRecord.toValue)),
    ("coverage", .array ((values graph.coverage).map DeltaCoverage.toValue))])
  String.ofList (stableId.toList.drop "worker-graph:sha256:".length)

namespace WorkerDeltaRequest

variable (request : WorkerDeltaRequest)

/-- `base_graph`. -/
def buildBaseGraph : Except ProtocolError DeltaBaseGraph := do
  let payload := request.baseGraph
  let profiles ← payload.profiles.foldlM insertProfile ∅
  let nodes ← (payload.nodes.map fun node => (node.id, node)).foldlM (insertOnce "node" id) ∅
  let sites ← (payload.sites.map fun site => (site.id, site)).foldlM (insertOnce "site" id) ∅
  let edges ← (payload.edges.map fun edge => (edge.id, edge)).foldlM (insertOnce "edge" id) ∅
  let evidence ← (payload.evidence.map fun entry => (entry.key, entry.evidence)).foldlM
    (insertOnce "evidence" evidenceKeyString) ∅
  let coverage ← (payload.coverage.map fun item => (item.key, item)).foldlM
    (insertOnce "coverage" coverageKeyString) ∅
  let graph : DeltaGraph := ⟨profiles, nodes, sites, edges, evidence, coverage⟩
  let computed := deltaGraphDigest S graph
  ensure (computed = request.baseGraphDigest)
    ("worker delta request base graph digest mismatch: declared " ++ request.baseGraphDigest ++
      ", computed " ++ computed)
  return { toDeltaGraph := graph, snapshotId := request.baseSnapshotId,
           graphDigest := request.baseGraphDigest }

def validate : Except ProtocolError Unit := do
  ensure (request.schemaVersion = workerDeltaRequestSchemaVersion)
    ("unsupported worker delta request schema " ++ request.schemaVersion ++ "; expected " ++
      workerDeltaRequestSchemaVersion)
  check (request.protocolVersion = Protocol.protocolVersion)
    (.unsupportedVersion Protocol.protocolVersion request.protocolVersion)
  requireNonEmpty "worker delta request scan ID" request.scanId
  requireNonEmpty "worker delta request adapter" request.adapter
  validateStableId "worker delta request base snapshot ID" request.baseSnapshotId (some "snapshot")
  validateDigest "worker delta request base graph digest" request.baseGraphDigest
  validateScope request.scope
  ensure (request.scope.adapters = [request.adapter])
    "worker delta request scope must name exactly its producing adapter"
  validateChanges request.scope request.changes
  ensure request.baseGraph.Sorted
    "worker delta request base collections must be sorted and unique"
  let base ← request.buildBaseGraph S
  ensure (base.snapshotId = request.baseSnapshotId ∧ base.graphDigest = request.baseGraphDigest)
    "worker delta request base identity does not match its graph payload"

end WorkerDeltaRequest

def WorkerDeltaRequest.newWithMode (scanId adapter : String) (analysisMode : WorkerDeltaAnalysisMode)
    (changes : List WorkerDeltaFileChange) (scope : DeltaScope) (base : DeltaBaseGraph) :
    Except ProtocolError WorkerDeltaRequest := do
  let request : WorkerDeltaRequest := {
    schemaVersion := workerDeltaRequestSchemaVersion
    protocolVersion := Protocol.protocolVersion
    scanId
    adapter
    analysisMode
    baseSnapshotId := base.snapshotId
    baseGraphDigest := base.graphDigest
    changes
    scope
    baseGraph := base.workerRequestPayload }
  request.validate S
  return request

end

end Protocol
