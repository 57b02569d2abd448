import Depgraph.Protocol.DeltaState

/-!
# The delta validator

`delta.rs`: `DeltaValidator` takes the events of one stream. It keeps the graph that results from
the mutations so far beside the change sets that summarize them, and the growing set of records in
the declared scope.
-/

namespace Protocol

open Json Fallible OrderedMap

/-- The recorded changes of a delta. -/
structure DeltaChanges where
  nodeUpserts : NodeMap := ∅
  nodeDeletes : IdSet := ∅
  siteUpserts : SiteMap := ∅
  siteDeletes : IdSet := ∅
  edgeUpserts : EdgeMap := ∅
  edgeDeletes : IdSet := ∅
  evidenceUpserts : EvidenceMap := ∅
  evidenceDeletes : Std.ExtTreeSet DeltaEvidenceKey := ∅
  coverageUpserts : CoverageMap := ∅
  coverageDeletes : Std.ExtTreeSet DeltaCoverageKey := ∅

/-- What a mutation works on: the graph, the recorded changes and the scoped records. -/
structure DeltaState where
  graph : DeltaGraph
  changes : DeltaChanges
  closure : DeltaScoped

/-- The state of the stream, with the boundary events that have been seen. -/
inductive DeltaStreamState where
  | awaitingStart
  | mutating (started : DeltaStarted)
  | completed (started : DeltaStarted) (completed : DeltaCompleted)

structure DeltaStreamIdentity where
  scanId : String
  adapter : String
  adapterVersion : String
deriving DecidableEq

/-- Incremental validator for a single worker delta. -/
structure DeltaValidator extends DeltaState where
  state : DeltaStreamState
  identity : Option DeltaStreamIdentity
  lastSeq : Option Nat
  lastMutationKey : Option (Nat × String)
  mutationIdentities : Std.ExtTreeSet String
  events : List DeltaEvent
  expectedSnapshotId : String
  expectedGraphDigest : String

/-- The validated stream with its summary. -/
structure ValidatedDelta extends DeltaChanges where
  events : List DeltaEvent
  deltaId : String
  baseSnapshotId : String
  baseGraphDigest : String
  resultGraphDigest : String
  scope : DeltaScope

def protocolVersion : String := "1.0"

/-! ### The base graph -/

/-- The loop of `merge_embedded_evidence` from an ordinal on. -/
def mergeEmbeddedFrom (ownerType : DeltaEvidenceOwner) (ownerId : String) (ordinal : Nat)
    (target : EvidenceMap) : List Evidence → Except ProtocolError EvidenceMap
  | [] => .ok target
  | item :: rest => do
    let key : DeltaEvidenceKey := ⟨ownerType, ownerId, ordinal % 2 ^ 32⟩
    ensure (∀ existing ∈ target[key]?, existing.beq item = true)
      ("base graph contains conflicting evidence " ++ evidenceKeyString key)
    mergeEmbeddedFrom ownerType ownerId (ordinal + 1) (target.insert key item) rest

def mergeEmbeddedEvidence (target : EvidenceMap) (ownerType : DeltaEvidenceOwner)
    (ownerId : String) (evidence : List Evidence) : Except ProtocolError EvidenceMap :=
  mergeEmbeddedFrom ownerType ownerId 0 target evidence

/-- The check of one entry of the base nodes. -/
def checkBaseNode (entry : String × GraphNode) : Except ProtocolError Unit := do
  validateStableId "base node ID" entry.1 none
  ensure (entry.1 = entry.2.id)
    ("base node map key " ++ entry.1 ++ " does not match payload ID " ++ entry.2.id)

/-- The check of one entry of the base sites, whose evidence moves to the evidence map. -/
def hoistSite (evidence : EvidenceMap) (entry : String × DependencySite) :
    Except ProtocolError EvidenceMap := do
  validateStableId "base site ID" entry.1 (some "site")
  ensure (entry.1 = entry.2.id)
    ("base site map key " ++ entry.1 ++ " does not match payload ID " ++ entry.2.id)
  mergeEmbeddedEvidence evidence .site entry.1 entry.2.evidence

/-- The check of one entry of the base edges, whose evidence moves to the evidence map. -/
def hoistEdge (evidence : EvidenceMap) (entry : String × GraphEdge) :
    Except ProtocolError EvidenceMap := do
  validateStableId "base edge ID" entry.1 (some "edge")
  ensure (entry.1 = entry.2.id)
    ("base edge map key " ++ entry.1 ++ " does not match payload ID " ++ entry.2.id)
  mergeEmbeddedEvidence evidence .edge entry.1 entry.2.evidence

/-- The loops of `DeltaValidator::new` over the base sites and edges: the graph with all evidence in
the evidence map. -/
def DeltaGraph.hoisted (base : DeltaGraph) : Except ProtocolError DeltaGraph := do
  let evidence ← base.sites.toList.foldlM hoistSite base.evidence
  let evidence ← base.edges.toList.foldlM hoistEdge evidence
  return { base with
    sites := base.sites.map fun _ site => { site with evidence := [] }
    edges := base.edges.map fun _ edge => { edge with evidence := [] }
    evidence }

section

variable (S : StableIds)

def DeltaValidator.new (base : DeltaBaseGraph) : Except ProtocolError DeltaValidator := do
  validateStableId "base snapshot ID" base.snapshotId (some "snapshot")
  validateDigest "base graph digest" base.graphDigest
  base.profiles.toList.forM (requireNonEmpty "base profile ID")
  base.nodes.toList.forM checkBaseNode
  let graph ← base.hoisted
  validateFinalState S graph
  return {
    graph
    changes := {}
    closure := ⟨∅, ∅, ∅⟩
    state := .awaitingStart
    identity := none
    lastSeq := none
    lastMutationKey := none
    mutationIdentities := ∅
    events := []
    expectedSnapshotId := base.snapshotId
    expectedGraphDigest := base.graphDigest }

/-! ### Mutations -/

def requireScoped (inScope : Bool) (entity id : String) : Except ProtocolError Unit :=
  ensure (inScope = true)
    ("delta " ++ entity ++ " mutation " ++ id ++ " is outside the declared scope")

def requirePresent {V : Type} (value : Option V) (entity id : String) :
    Except ProtocolError Unit :=
  ensure (value.isSome = true) (entity ++ "_delete references missing base entity " ++ id)

namespace DeltaState

variable (scope : DeltaScope) (s : DeltaState)

/-! What the mutations write, once they are accepted. -/

def eraseNode (nodeId : String) : DeltaState := { s with
  graph := { s.graph with nodes := s.graph.nodes.erase nodeId }
  changes := { s.changes with nodeDeletes := s.changes.nodeDeletes.insert nodeId } }

def putNode (node : GraphNode) : DeltaState where
  graph := { s.graph with nodes := s.graph.nodes.insert node.id node }
  changes := { s.changes with nodeUpserts := s.changes.nodeUpserts.insert node.id node }
  closure := { s.closure with nodes := s.closure.nodes.insert node.id }

def eraseSite (siteId : String) : DeltaState := { s with
  graph := { s.graph with sites := s.graph.sites.erase siteId }
  changes := { s.changes with siteDeletes := s.changes.siteDeletes.insert siteId } }

def putSite (site : DependencySite) : DeltaState where
  graph := { s.graph with sites := s.graph.sites.insert site.id site }
  changes := { s.changes with siteUpserts := s.changes.siteUpserts.insert site.id site }
  closure := { s.closure with sites := s.closure.sites.insert site.id }

def eraseEdge (edgeId : String) : DeltaState := { s with
  graph := { s.graph with edges := s.graph.edges.erase edgeId }
  changes := { s.changes with edgeDeletes := s.changes.edgeDeletes.insert edgeId } }

def putEdge (edge : GraphEdge) : DeltaState where
  graph := { s.graph with edges := s.graph.edges.insert edge.id edge }
  changes := { s.changes with edgeUpserts := s.changes.edgeUpserts.insert edge.id edge }
  closure := { s.closure with edges := s.closure.edges.insert edge.id }

def eraseEvidence (key : DeltaEvidenceKey) : DeltaState := { s with
  graph := { s.graph with evidence := s.graph.evidence.erase key }
  changes := { s.changes with evidenceDeletes := s.changes.evidenceDeletes.insert key } }

def putEvidence (key : DeltaEvidenceKey) (evidence : Evidence) : DeltaState := { s with
  graph := { s.graph with evidence := s.graph.evidence.insert key evidence }
  changes := { s.changes with evidenceUpserts := s.changes.evidenceUpserts.insert key evidence } }

def eraseCoverage (key : DeltaCoverageKey) : DeltaState := { s with
  graph := { s.graph with coverage := s.graph.coverage.erase key }
  changes := { s.changes with coverageDeletes := s.changes.coverageDeletes.insert key } }

def putCoverage (coverage : DeltaCoverage) : DeltaState := { s with
  graph := { s.graph with coverage := s.graph.coverage.insert coverage.key coverage }
  changes := { s.changes with
    coverageUpserts := s.changes.coverageUpserts.insert coverage.key coverage } }

def nodeDelete (nodeId : String) : Except ProtocolError DeltaState := do
  validateStableId "node_delete.node_id" nodeId none
  requireScoped (s.closure.nodes.contains nodeId) "node" nodeId
  requirePresent s.graph.nodes[nodeId]? "node" nodeId
  return s.eraseNode nodeId

def nodeUpsert (node : GraphNode) : Except ProtocolError DeltaState := do
  validateStableId "node_upsert.node.id" node.id none
  requireNonEmpty "node.kind" node.kind
  requireNonEmpty "node.locator" node.locator
  ensure (∀ existing ∈ s.graph.nodes[node.id]?,
      existing.kind = node.kind ∧ existing.locator = node.locator)
    ("node " ++ node.id ++ " changed stable kind/locator identity")
  requireScoped (s.closure.nodes.contains node.id || nodeIsScoped scope node) "node" node.id
  return s.putNode node

def siteDelete (siteId : String) : Except ProtocolError DeltaState := do
  validateStableId "site_delete.site_id" siteId (some "site")
  requireScoped (s.closure.sites.contains siteId) "site" siteId
  requirePresent s.graph.sites[siteId]? "site" siteId
  return s.eraseSite siteId

def siteUpsert (site : DependencySite) : Except ProtocolError DeltaState := do
  validateStableId "site_upsert.site.id" site.id (some "site")
  ensure (site.evidence = [])
    ("delta site " ++ site.id ++ " must emit evidence through evidence_upsert")
  ensure (∀ existing ∈ s.graph.sites[site.id]?,
      existing.source = site.source ∧ existing.kind = site.kind ∧
        existing.profileId = site.profileId ∧ existing.condition.beq site.condition = true)
    ("site " ++ site.id ++ " changed stable identity fields")
  requireScoped (s.closure.sites.contains site.id ||
    siteIsScoped scope site s.closure.nodes s.graph.evidence) "site" site.id
  return s.putSite site

def edgeDelete (edgeId : String) : Except ProtocolError DeltaState := do
  validateStableId "edge_delete.edge_id" edgeId (some "edge")
  requireScoped (s.closure.edges.contains edgeId) "edge" edgeId
  requirePresent s.graph.edges[edgeId]? "edge" edgeId
  return s.eraseEdge edgeId

def edgeUpsert (edge : GraphEdge) : Except ProtocolError DeltaState := do
  validateStableId "edge_upsert.edge.id" edge.id (some "edge")
  ensure (edge.evidence = [])
    ("delta edge " ++ edge.id ++ " must emit evidence through evidence_upsert")
  ensure (∀ existing ∈ s.graph.edges[edge.id]?,
      existing.siteId = edge.siteId ∧ existing.source = edge.source ∧
        existing.target = edge.target ∧ existing.kind = edge.kind)
    ("edge " ++ edge.id ++ " changed stable identity fields")
  requireScoped (s.closure.edges.contains edge.id ||
    edgeIsScoped scope edge s.closure.nodes s.closure.sites s.graph.evidence) "edge" edge.id
  return s.putEdge edge

def evidenceDelete (key : DeltaEvidenceKey) : Except ProtocolError DeltaState := do
  validateEvidenceKey key
  let existing := s.graph.evidence[key]?
  requireScoped (evidenceIsScoped scope key existing s.closure) "evidence" (evidenceKeyString key)
  requirePresent existing "evidence" (evidenceKeyString key)
  return s.eraseEvidence key

def evidenceUpsert (key : DeltaEvidenceKey) (evidence : Evidence) :
    Except ProtocolError DeltaState := do
  validateEvidenceKey key
  validateEvidenceRecord evidence
  requireScoped (evidenceIsScoped scope key (some evidence) s.closure) "evidence"
    (evidenceKeyString key)
  return s.putEvidence key evidence

def coverageDelete (key : DeltaCoverageKey) : Except ProtocolError DeltaState := do
  validateCoverageKey key
  requireScoped (coverageKeyIsScoped scope key) "coverage" (coverageKeyString key)
  requirePresent s.graph.coverage[key]? "coverage" (coverageKeyString key)
  return s.eraseCoverage key

def coverageUpsert (coverage : DeltaCoverage) : Except ProtocolError DeltaState := do
  validateDeltaCoverage coverage
  requireScoped (coverageKeyIsScoped scope coverage.key) "coverage" (coverageKeyString coverage.key)
  return s.putCoverage coverage

def applyMutation : DeltaMutation → Except ProtocolError DeltaState
  | .nodeDelete nodeId => s.nodeDelete nodeId
  | .nodeUpsert node => s.nodeUpsert scope node
  | .siteDelete siteId => s.siteDelete siteId
  | .siteUpsert site => s.siteUpsert scope site
  | .edgeDelete edgeId => s.edgeDelete edgeId
  | .edgeUpsert edge => s.edgeUpsert scope edge
  | .evidenceDelete key => s.evidenceDelete scope key
  | .evidenceUpsert key evidence => s.evidenceUpsert scope key evidence
  | .coverageDelete key => s.coverageDelete scope key
  | .coverageUpsert coverage => s.coverageUpsert scope coverage

end DeltaState

/-! ### The identity of a delta -/

/-- The mutations among events. -/
def mutationsOf (events : List DeltaEvent) : List DeltaMutation :=
  events.filterMap fun
    | .mutation _ m => some m
    | _ => none

def buildDeltaStableId (baseSnapshotId baseGraphDigest : String) (scope : DeltaScope)
    (mutations : List DeltaMutation) : Except ProtocolError String := do
  validateStableId "delta base snapshot ID" baseSnapshotId (some "snapshot")
  validateDigest "delta base graph digest" baseGraphDigest
  validateScope scope
  ensure ((mutations.map DeltaMutation.mutationSortKey).IsChain sortKeyLt)
    "delta ID input is not in canonical mutation order"
  ensure (mutations ≠ []) "delta ID requires at least one mutation"
  return S.stableIdFromValue "delta" (.object [("contract", .string deltaContractVersion),
    ("base_snapshot_id", .string baseSnapshotId),
    ("base_graph_digest", .string baseGraphDigest), ("scope", scope.toValue),
    ("mutations", .array (mutations.map DeltaMutation.canonicalMutationPayload))])

/-! ### The stream -/

def normalizeDeltaConditions : DeltaEvent → DeltaEvent
  | .mutation common (.siteUpsert site) => .mutation common
    (.siteUpsert { site with condition := site.condition.canonicalized S.floatText })
  | .mutation common (.edgeUpsert edge) => .mutation common
    (.edgeUpsert { edge with condition := edge.condition.canonicalized S.floatText })
  | event => event

namespace DeltaValidator

variable (v : DeltaValidator)

def validateCommon (common : CommonFields) : Except ProtocolError DeltaValidator := do
  check (common.protocolVersion = protocolVersion)
    (.unsupportedVersion protocolVersion common.protocolVersion)
  requireNonEmpty "scan_id" common.scanId
  requireNonEmpty "adapter" common.adapter
  requireNonEmpty "adapter_version" common.adapterVersion
  match v.lastSeq with
  | none =>
    ensure (common.seq = 1) s!"delta seq must start at 1, found {common.seq}"
  | some previous =>
    ensure (common.seq = previous + 1)
      s!"delta seq must be contiguous; previous={previous}, found={common.seq}"
  let identity : DeltaStreamIdentity := ⟨common.scanId, common.adapter, common.adapterVersion⟩
  ensure (∀ known ∈ v.identity, known = identity)
    "delta routing metadata changed within the stream"
  return { v with identity := some identity, lastSeq := some common.seq }

def start (started : DeltaStarted) : Except ProtocolError DeltaValidator := do
  validateContractVersion started.deltaContractVersion
  validateStableId "delta ID" started.deltaId (some "delta")
  validateStableId "delta base snapshot ID" started.baseSnapshotId (some "snapshot")
  validateDigest "delta base graph digest" started.baseGraphDigest
  ensure (started.baseSnapshotId = v.expectedSnapshotId ∧
      started.baseGraphDigest = v.expectedGraphDigest)
    "delta base snapshot identity or graph digest does not match the validated base"
  validateScope started.scope
  ensure (started.scope.adapters = [started.common.adapter])
    ("delta scope adapters must contain exactly the producing adapter " ++
      debugStr started.common.adapter)
  started.scope.profileIds.forM fun profileId =>
    ensure (profileId ∈ v.graph.profiles)
      ("delta scope references undeclared base profile " ++ profileId)
  return { v with
    closure := scopedBaseEntities started.scope v.graph
    state := .mutating started }

def validateMutationOrder (m : DeltaMutation) : Except ProtocolError DeltaValidator := do
  ensure (∀ previous ∈ v.lastMutationKey, sortKeyLt previous m.mutationSortKey)
    ("delta mutations are not in canonical order at " ++ m.eventName)
  ensure (m.mutationIdentity ∉ v.mutationIdentities)
    ("delta mutates " ++ m.mutationIdentity ++ " more than once")
  return { v with
    mutationIdentities := v.mutationIdentities.insert m.mutationIdentity
    lastMutationKey := some m.mutationSortKey }

def complete (started : DeltaStarted) (completed : DeltaCompleted) :
    Except ProtocolError DeltaValidator := do
  validateContractVersion completed.deltaContractVersion
  validateStableId "delta_completed.delta_id" completed.deltaId (some "delta")
  validateDigest "delta result graph digest" completed.resultGraphDigest
  ensure (completed.deltaId = started.deltaId) "delta ID changed between start and completion"
  let mutations := mutationsOf v.events
  ensure (mutations.length ≠ 0 ∧ completed.mutationCount = mutations.length)
    s!"delta_completed mutation_count={completed.mutationCount} but observed {mutations.length}"
  let expectedDeltaId ← buildDeltaStableId S started.baseSnapshotId started.baseGraphDigest
    started.scope mutations
  ensure (completed.deltaId = expectedDeltaId)
    ("delta ID " ++ completed.deltaId ++ " does not match canonical mutation identity " ++
      expectedDeltaId)
  validateFinalState S v.graph
  return { v with state := .completed started completed }

/-- What an event does, by the state of the stream. -/
def dispatch (event : DeltaEvent) : Except ProtocolError DeltaValidator :=
  match v.state, event with
  | .awaitingStart, .deltaStarted started => v.start started
  | .awaitingStart, event =>
    invariant ("delta stream must start with delta_started, found " ++ event.eventName)
  | .completed _ _, event =>
    invariant ("event " ++ event.eventName ++ " is not allowed after delta_completed")
  | .mutating _, .deltaStarted _ => invariant "duplicate delta_started event"
  | .mutating started, .deltaCompleted completed => v.complete S started completed
  | .mutating started, .mutation _ m => do
    let v ← v.validateMutationOrder m
    let s ← v.toDeltaState.applyMutation started.scope m
    return { v with toDeltaState := s }

def push (event : DeltaEvent) : Except ProtocolError DeltaValidator := do
  let event := normalizeDeltaConditions S event
  let v ← v.validateCommon event.common
  let v ← v.dispatch S event
  return { v with events := v.events ++ [event] }

def finish : Except ProtocolError ValidatedDelta :=
  match v.state with
  | .completed started completed => .ok { v.changes with
      events := v.events
      deltaId := started.deltaId
      baseSnapshotId := started.baseSnapshotId
      baseGraphDigest := started.baseGraphDigest
      resultGraphDigest := completed.resultGraphDigest
      scope := started.scope }
  | _ => invariant "delta stream ended before delta_completed"

end DeltaValidator

/-! ### What a mutation does -/

/-- An accepted mutation with what made it acceptable. -/
inductive Mutates (scope : DeltaScope) (s : DeltaState) : DeltaMutation → DeltaState → Prop
  | nodeDelete (nodeId : String) (owned : nodeId ∈ s.closure.nodes) :
      Mutates scope s (.nodeDelete nodeId) (s.eraseNode nodeId)
  | nodeUpsert (node : GraphNode)
      (owned : node.id ∈ s.closure.nodes ∨ nodeIsScoped scope node = true) :
      Mutates scope s (.nodeUpsert node) (s.putNode node)
  | siteDelete (siteId : String) (owned : siteId ∈ s.closure.sites) :
      Mutates scope s (.siteDelete siteId) (s.eraseSite siteId)
  | siteUpsert (site : DependencySite)
      (identity : ∀ existing : DependencySite, s.graph.sites[site.id]? = some existing →
        existing.source = site.source ∧ existing.profileId = site.profileId)
      (owned : site.id ∈ s.closure.sites ∨
        siteIsScoped scope site s.closure.nodes s.graph.evidence = true) :
      Mutates scope s (.siteUpsert site) (s.putSite site)
  | edgeDelete (edgeId : String) (owned : edgeId ∈ s.closure.edges) :
      Mutates scope s (.edgeDelete edgeId) (s.eraseEdge edgeId)
  | edgeUpsert (edge : GraphEdge)
      (identity : ∀ existing : GraphEdge, s.graph.edges[edge.id]? = some existing →
        existing.siteId = edge.siteId ∧ existing.source = edge.source ∧
          existing.target = edge.target)
      (owned : edge.id ∈ s.closure.edges ∨
        edgeIsScoped scope edge s.closure.nodes s.closure.sites s.graph.evidence = true) :
      Mutates scope s (.edgeUpsert edge) (s.putEdge edge)
  | evidenceDelete (key : DeltaEvidenceKey)
      (owned : evidenceIsScoped scope key s.graph.evidence[key]? s.closure = true) :
      Mutates scope s (.evidenceDelete key) (s.eraseEvidence key)
  | evidenceUpsert (key : DeltaEvidenceKey) (evidence : Evidence)
      (owned : evidenceIsScoped scope key (some evidence) s.closure = true) :
      Mutates scope s (.evidenceUpsert key evidence) (s.putEvidence key evidence)
  | coverageDelete (key : DeltaCoverageKey) (owned : coverageKeyIsScoped scope key = true) :
      Mutates scope s (.coverageDelete key) (s.eraseCoverage key)
  | coverageUpsert (coverage : DeltaCoverage)
      (owned : coverageKeyIsScoped scope coverage.key = true) :
      Mutates scope s (.coverageUpsert coverage) (s.putCoverage coverage)

variable {S} {scope : DeltaScope} {s s' : DeltaState} {m : DeltaMutation}

theorem requireScoped_eq_ok {inScope : Bool} {entity id : String} {u : Unit} :
    requireScoped inScope entity id = .ok u ↔ inScope = true :=
  ensure_eq_ok

theorem DeltaState.applyMutation_ok (h : s.applyMutation scope m = .ok s') :
    Mutates scope s m s' := by
  cases m with
  | nodeDelete nodeId =>
    simp only [applyMutation, nodeDelete, bind_eq_ok, requireScoped_eq_ok] at h
    obtain ⟨_, -, _, howned, _, -, hs⟩ := h
    obtain rfl := Except.ok.inj hs
    exact .nodeDelete nodeId howned
  | nodeUpsert node =>
    simp only [applyMutation, nodeUpsert, bind_eq_ok, requireScoped_eq_ok] at h
    obtain ⟨_, -, _, -, _, -, _, -, _, howned, hs⟩ := h
    obtain rfl := Except.ok.inj hs
    exact .nodeUpsert node (Bool.or_eq_true_iff.1 howned)
  | siteDelete siteId =>
    simp only [applyMutation, siteDelete, bind_eq_ok, requireScoped_eq_ok] at h
    obtain ⟨_, -, _, howned, _, -, hs⟩ := h
    obtain rfl := Except.ok.inj hs
    exact .siteDelete siteId howned
  | siteUpsert site =>
    simp only [applyMutation, siteUpsert, bind_eq_ok, requireScoped_eq_ok, ensure_eq_ok] at h
    obtain ⟨_, -, _, -, _, hidentity, _, howned, hs⟩ := h
    obtain rfl := Except.ok.inj hs
    refine .siteUpsert site (fun existing hexisting => ?_) (Bool.or_eq_true_iff.1 howned)
    obtain ⟨hsource, -, hprofile, -⟩ := hidentity existing hexisting
    exact ⟨hsource, hprofile⟩
  | edgeDelete edgeId =>
    simp only [applyMutation, edgeDelete, bind_eq_ok, requireScoped_eq_ok] at h
    obtain ⟨_, -, _, howned, _, -, hs⟩ := h
    obtain rfl := Except.ok.inj hs
    exact .edgeDelete edgeId howned
  | edgeUpsert edge =>
    simp only [applyMutation, edgeUpsert, bind_eq_ok, requireScoped_eq_ok, ensure_eq_ok] at h
    obtain ⟨_, -, _, -, _, hidentity, _, howned, hs⟩ := h
    obtain rfl := Except.ok.inj hs
    refine .edgeUpsert edge (fun existing hexisting => ?_) (Bool.or_eq_true_iff.1 howned)
    obtain ⟨hsite, hsource, htarget, -⟩ := hidentity existing hexisting
    exact ⟨hsite, hsource, htarget⟩
  | evidenceDelete key =>
    simp only [applyMutation, evidenceDelete, bind_eq_ok, requireScoped_eq_ok] at h
    obtain ⟨_, -, _, howned, _, -, hs⟩ := h
    obtain rfl := Except.ok.inj hs
    exact .evidenceDelete key howned
  | evidenceUpsert key evidence =>
    simp only [applyMutation, evidenceUpsert, bind_eq_ok, requireScoped_eq_ok] at h
    obtain ⟨_, -, _, -, _, howned, hs⟩ := h
    obtain rfl := Except.ok.inj hs
    exact .evidenceUpsert key evidence howned
  | coverageDelete key =>
    simp only [applyMutation, coverageDelete, bind_eq_ok, requireScoped_eq_ok] at h
    obtain ⟨_, -, _, howned, _, -, hs⟩ := h
    obtain rfl := Except.ok.inj hs
    exact .coverageDelete key howned
  | coverageUpsert coverage =>
    simp only [applyMutation, coverageUpsert, bind_eq_ok, requireScoped_eq_ok] at h
    obtain ⟨_, -, _, howned, hs⟩ := h
    obtain rfl := Except.ok.inj hs
    exact .coverageUpsert coverage howned

/-! ### What an event does -/

/-- An accepted event: the stream starts, a fresh mutation in order is applied, or the stream is
completed in a valid state. The routing fields are left open. -/
inductive Takes (S : StableIds) (v : DeltaValidator) : DeltaEvent → DeltaValidator → Prop
  | start (started : DeltaStarted) (identity : Option DeltaStreamIdentity) (lastSeq : Option Nat)
      (awaiting : v.state = .awaitingStart) (scope : validateScope started.scope = .ok ()) :
      Takes S v (.deltaStarted started) { v with
        identity, lastSeq
        closure := scopedBaseEntities started.scope v.graph
        state := .mutating started
        events := v.events ++ [.deltaStarted started] }
  | mutate (started : DeltaStarted) (common : CommonFields) (m : DeltaMutation) (s : DeltaState)
      (identity : Option DeltaStreamIdentity) (lastSeq : Option Nat)
      (mutating : v.state = .mutating started)
      (ordered : ∀ previous, v.lastMutationKey = some previous →
        sortKeyLt previous m.mutationSortKey)
      (fresh : m.mutationIdentity ∉ v.mutationIdentities)
      (mutates : Mutates started.scope v.toDeltaState m s) :
      Takes S v (.mutation common m) { v with
        toDeltaState := s
        identity, lastSeq
        mutationIdentities := v.mutationIdentities.insert m.mutationIdentity
        lastMutationKey := some m.mutationSortKey
        events := v.events ++ [.mutation common m] }
  | complete (started : DeltaStarted) (completed : DeltaCompleted)
      (identity : Option DeltaStreamIdentity) (lastSeq : Option Nat)
      (mutating : v.state = .mutating started)
      (final : validateFinalState S v.graph = .ok ()) :
      Takes S v (.deltaCompleted completed) { v with
        identity, lastSeq
        state := .completed started completed
        events := v.events ++ [.deltaCompleted completed] }

namespace DeltaValidator

variable {v v' : DeltaValidator} {event : DeltaEvent}

theorem validateCommon_ok {common : CommonFields} (h : v.validateCommon common = .ok v') :
    ∃ identity lastSeq, v' = { v with identity, lastSeq } := by
  simp only [validateCommon, bind_eq_ok] at h
  obtain ⟨_, -, _, -, _, -, _, -, h⟩ := h
  split at h <;> obtain ⟨_, -, _, -, hv⟩ := (by simpa only [bind_eq_ok] using h) <;>
    exact ⟨_, _, (Except.ok.inj hv).symm⟩

theorem push_ok (h : v.push S event = .ok v') :
    Takes S v (normalizeDeltaConditions S event) v' := by
  simp only [push, bind_eq_ok] at h
  obtain ⟨v₁, hcommon, v₂, hdispatch, hv⟩ := h
  obtain rfl := Except.ok.inj hv
  obtain ⟨identity, lastSeq, rfl⟩ := validateCommon_ok hcommon
  generalize normalizeDeltaConditions S event = event at hdispatch ⊢
  unfold dispatch at hdispatch
  split at hdispatch
  · rename_i started hstate
    simp only [start, bind_eq_ok, ensure_eq_ok, forM_eq_ok] at hdispatch
    obtain ⟨_, -, _, -, _, -, _, -, _, -, _, hscope, _, -, _, -, hv⟩ := hdispatch
    obtain rfl := Except.ok.inj hv
    exact .start started identity lastSeq hstate hscope
  · cases hdispatch
  · cases hdispatch
  · cases hdispatch
  · rename_i started completed hstate
    simp only [complete, bind_eq_ok, ensure_eq_ok] at hdispatch
    obtain ⟨_, -, _, -, _, -, _, -, _, -, _, -, _, -, _, hfinal, hv⟩ := hdispatch
    obtain rfl := Except.ok.inj hv
    exact .complete started completed identity lastSeq hstate hfinal
  · rename_i started common m hstate
    simp only [validateMutationOrder, bind_eq_ok, ensure_eq_ok] at hdispatch
    obtain ⟨_, ⟨_, hordered, _, hfresh, hv⟩, s, happly, hv'⟩ := hdispatch
    obtain rfl := Except.ok.inj hv
    obtain rfl := Except.ok.inj hv'
    exact .mutate started common m s identity lastSeq hstate hordered hfresh
      (DeltaState.applyMutation_ok happly)

end DeltaValidator

end

end Protocol
