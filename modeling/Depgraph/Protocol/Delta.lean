import Depgraph.Protocol.SiteEdge

/-!
# Worker deltas

`delta.rs`: the events of a delta stream with their canonical order and identity, the ownership
closure of a declared scope, and the texts that name evidence and coverage records.

The base graph is six ordered maps. Evidence lives in a map of its own, keyed by its owner and its
place there.
-/

namespace Protocol

open Json Fallible OrderedMap

/-! ### Keys -/

inductive DeltaEvidenceOwner where
  | node | site | edge
deriving DecidableEq

def DeltaEvidenceOwner.asStr : DeltaEvidenceOwner → String
  | .node => "node"
  | .site => "site"
  | .edge => "edge"

/-- The position of an owner type in the derived order. -/
def DeltaEvidenceOwner.rank : DeltaEvidenceOwner → Nat
  | .node => 0
  | .site => 1
  | .edge => 2

/-- Stable evidence-store key. -/
structure DeltaEvidenceKey where
  ownerType : DeltaEvidenceOwner
  ownerId : String
  ordinal : Nat
deriving DecidableEq

/-- The derived order: owner type, owner, ordinal. -/
instance : Ord DeltaEvidenceKey where
  compare := compareLex (compareOn fun key => key.ownerType.rank)
    (compareLex (compareOn DeltaEvidenceKey.ownerId) (compareOn DeltaEvidenceKey.ordinal))

instance : Std.TransOrd DeltaEvidenceKey :=
  inferInstanceAs (Std.TransCmp (compareLex (compareOn fun key : DeltaEvidenceKey =>
    key.ownerType.rank) (compareLex (compareOn DeltaEvidenceKey.ownerId)
      (compareOn DeltaEvidenceKey.ordinal))))

theorem DeltaEvidenceOwner.rank_injective : Function.Injective DeltaEvidenceOwner.rank := by
  intro a b h
  cases a <;> cases b <;> first | rfl | cases h

instance : Std.LawfulEqOrd DeltaEvidenceKey where
  eq_of_compare {a b} h := by
    obtain ⟨h₁, h⟩ := compareLex_eq_eq.1 h
    obtain ⟨h₂, h₃⟩ := compareLex_eq_eq.1 h
    have hrank : a.ownerType.rank = b.ownerType.rank := Std.compare_eq_iff_eq.1 h₁
    have hownerId : a.ownerId = b.ownerId := Std.compare_eq_iff_eq.1 h₂
    have hordinal : a.ordinal = b.ordinal := Std.compare_eq_iff_eq.1 h₃
    cases a
    cases b
    simp_all [DeltaEvidenceOwner.rank_injective.eq_iff]

inductive DeltaCoverageKey where
  | aggregate
  | profile (profileId : String)
  | file (adapter path : String)
deriving DecidableEq

/-- A variant's position in the derived order. -/
def DeltaCoverageKey.rank : DeltaCoverageKey → Nat
  | .aggregate => 0
  | .profile _ => 1
  | .file _ _ => 2

/-- A variant's first field, which the derived order compares next. -/
def DeltaCoverageKey.first : DeltaCoverageKey → String
  | .aggregate => ""
  | .profile profileId => profileId
  | .file adapter _ => adapter

/-- A variant's second field. -/
def DeltaCoverageKey.second : DeltaCoverageKey → String
  | .aggregate => ""
  | .profile _ => ""
  | .file _ path => path

instance : Ord DeltaCoverageKey where
  compare := compareLex (compareOn DeltaCoverageKey.rank)
    (compareLex (compareOn DeltaCoverageKey.first) (compareOn DeltaCoverageKey.second))

instance : Std.TransOrd DeltaCoverageKey :=
  inferInstanceAs (Std.TransCmp (compareLex (compareOn DeltaCoverageKey.rank)
    (compareLex (compareOn DeltaCoverageKey.first) (compareOn DeltaCoverageKey.second))))

instance : Std.LawfulEqOrd DeltaCoverageKey where
  eq_of_compare {a b} h := by
    obtain ⟨h₁, h⟩ := compareLex_eq_eq.1 h
    obtain ⟨h₂, h₃⟩ := compareLex_eq_eq.1 h
    have hrank : a.rank = b.rank := Std.compare_eq_iff_eq.1 h₁
    have hfirst : a.first = b.first := Std.compare_eq_iff_eq.1 h₂
    have hsecond : a.second = b.second := Std.compare_eq_iff_eq.1 h₃
    cases a <;> cases b <;> simp_all [DeltaCoverageKey.rank, DeltaCoverageKey.first,
      DeltaCoverageKey.second]

/-- `format!("{n:010}")`. -/
def padded (n : Nat) : String :=
  String.ofList ((Nat.toDigits 10 n).leftpad 10 '0')

def evidenceKeyString (key : DeltaEvidenceKey) : String :=
  key.ownerType.asStr ++ "\x00" ++ key.ownerId ++ "\x00" ++ padded key.ordinal

def coverageKeyString : DeltaCoverageKey → String
  | .aggregate => "aggregate"
  | .profile profileId => "profile\x00" ++ profileId
  | .file adapter path => "file\x00" ++ adapter ++ "\x00" ++ path

/-! ### Coverage records -/

structure DeltaFileCoverage where
  discoveredSites : Nat
  emittedSites : Nat
  skippedSites : Nat
  skipped : Bool
  reason : Option String
deriving DecidableEq

inductive DeltaCoverage where
  | aggregate (value : Coverage)
  | profile (profileId : String) (value : Coverage)
  | file (adapter path : String) (value : DeltaFileCoverage)
deriving DecidableEq

def DeltaCoverage.key : DeltaCoverage → DeltaCoverageKey
  | .aggregate _ => .aggregate
  | .profile profileId _ => .profile profileId
  | .file adapter path _ => .file adapter path

/-! ### The scope -/

/-- Canonical ownership closure requested from one worker. -/
structure DeltaScope where
  paths : List String
  packageLocators : List String
  profileIds : List String
  artifactNodeIds : List String
  adapters : List String
deriving DecidableEq

/-! ### Events -/

structure CommonFields where
  protocolVersion : String
  scanId : String
  adapter : String
  adapterVersion : String
  seq : Nat
deriving DecidableEq

structure DeltaStarted where
  common : CommonFields
  deltaContractVersion : String
  deltaId : String
  baseSnapshotId : String
  baseGraphDigest : String
  scope : DeltaScope
deriving DecidableEq

structure DeltaCompleted where
  common : CommonFields
  deltaContractVersion : String
  deltaId : String
  mutationCount : Nat
  resultGraphDigest : String
deriving DecidableEq

/-- The ten kinds of mutations, without the routing fields. -/
inductive DeltaMutation where
  | evidenceDelete (evidenceKey : DeltaEvidenceKey)
  | edgeDelete (edgeId : String)
  | siteDelete (siteId : String)
  | nodeDelete (nodeId : String)
  | nodeUpsert (node : GraphNode)
  | siteUpsert (site : DependencySite)
  | edgeUpsert (edge : GraphEdge)
  | evidenceUpsert (key : DeltaEvidenceKey) (evidence : Evidence)
  | coverageDelete (coverageKey : DeltaCoverageKey)
  | coverageUpsert (coverage : DeltaCoverage)

inductive DeltaEvent where
  | deltaStarted (started : DeltaStarted)
  | mutation (common : CommonFields) (mutation : DeltaMutation)
  | deltaCompleted (completed : DeltaCompleted)

def DeltaEvent.common : DeltaEvent → CommonFields
  | .deltaStarted started => started.common
  | .mutation common _ => common
  | .deltaCompleted completed => completed.common

namespace DeltaMutation

def eventName : DeltaMutation → String
  | evidenceDelete _ => "evidence_delete"
  | edgeDelete _ => "edge_delete"
  | siteDelete _ => "site_delete"
  | nodeDelete _ => "node_delete"
  | nodeUpsert _ => "delta_node_upsert"
  | siteUpsert _ => "site_upsert"
  | edgeUpsert _ => "delta_edge_upsert"
  | evidenceUpsert _ _ => "evidence_upsert"
  | coverageDelete _ => "coverage_delete"
  | coverageUpsert _ => "coverage_upsert"

/-- The kind of a mutation in the canonical order. -/
def phase : DeltaMutation → Nat
  | evidenceDelete _ => 0
  | edgeDelete _ => 1
  | siteDelete _ => 2
  | nodeDelete _ => 3
  | nodeUpsert _ => 4
  | siteUpsert _ => 5
  | edgeUpsert _ => 6
  | evidenceUpsert _ _ => 7
  | coverageDelete _ => 8
  | coverageUpsert _ => 9

/-- The name of the record that is changed. -/
def name : DeltaMutation → String
  | evidenceDelete key => evidenceKeyString key
  | edgeDelete edgeId => edgeId
  | siteDelete siteId => siteId
  | nodeDelete nodeId => nodeId
  | nodeUpsert node => node.id
  | siteUpsert site => site.id
  | edgeUpsert edge => edge.id
  | evidenceUpsert key _ => evidenceKeyString key
  | coverageDelete key => coverageKeyString key
  | coverageUpsert coverage => coverageKeyString coverage.key

def mutationSortKey (m : DeltaMutation) : Nat × String := (m.phase, m.name)

/-- The map that is changed. -/
def entity : DeltaMutation → String
  | nodeDelete _ | nodeUpsert _ => "node"
  | siteDelete _ | siteUpsert _ => "site"
  | edgeDelete _ | edgeUpsert _ => "edge"
  | evidenceDelete _ | evidenceUpsert _ _ => "evidence"
  | coverageDelete _ | coverageUpsert _ => "coverage"

def mutationIdentity (m : DeltaMutation) : String := m.entity ++ ":" ++ m.name

end DeltaMutation

/-- The order of sort keys: the kind, then the name. -/
def sortKeyLt (a b : Nat × String) : Prop := a.1 < b.1 ∨ (a.1 = b.1 ∧ a.2 < b.2)

instance (a b : Nat × String) : Decidable (sortKeyLt a b) :=
  inferInstanceAs (Decidable (_ ∨ _))

def DeltaEvent.eventName : DeltaEvent → String
  | .deltaStarted _ => "delta_started"
  | .mutation _ m => m.eventName
  | .deltaCompleted _ => "delta_completed"

/-! ### Serialization -/

def DeltaEvidenceKey.members (key : DeltaEvidenceKey) : List (String × Value) :=
  [("owner_type", .string key.ownerType.asStr), ("owner_id", .string key.ownerId),
    ("ordinal", natValue key.ordinal)]

def DeltaCoverageKey.toValue : DeltaCoverageKey → Value
  | .aggregate => .object [("scope", .string "aggregate")]
  | .profile profileId =>
    .object [("scope", .string "profile"), ("profile_id", .string profileId)]
  | .file adapter path =>
    .object [("scope", .string "file"), ("adapter", .string adapter), ("path", .string path)]

def DeltaFileCoverage.toValue (coverage : DeltaFileCoverage) : Value :=
  .object ([("discovered_sites", natValue coverage.discoveredSites),
      ("emitted_sites", natValue coverage.emittedSites),
      ("skipped_sites", natValue coverage.skippedSites), ("skipped", .bool coverage.skipped)] ++
    optionalMember "reason" (coverage.reason.map .string))

def DeltaCoverage.toValue : DeltaCoverage → Value
  | .aggregate value => .object [("scope", .string "aggregate"), ("value", value.toValue)]
  | .profile profileId value =>
    .object [("scope", .string "profile"), ("profile_id", .string profileId),
      ("value", value.toValue)]
  | .file adapter path value =>
    .object [("scope", .string "file"), ("adapter", .string adapter), ("path", .string path),
      ("value", value.toValue)]

def DeltaScope.toValue (scope : DeltaScope) : Value :=
  .object [("paths", stringsValue scope.paths),
    ("package_locators", stringsValue scope.packageLocators),
    ("profile_ids", stringsValue scope.profileIds),
    ("artifact_node_ids", stringsValue scope.artifactNodeIds),
    ("adapters", stringsValue scope.adapters)]

/-- The member of a mutation besides the tag and the routing fields. -/
def DeltaMutation.payload : DeltaMutation → String × Value
  | .evidenceDelete key => ("evidence_key", .object key.members)
  | .edgeDelete edgeId => ("edge_id", .string edgeId)
  | .siteDelete siteId => ("site_id", .string siteId)
  | .nodeDelete nodeId => ("node_id", .string nodeId)
  | .nodeUpsert node => ("node", node.toValue)
  | .siteUpsert site => ("site", site.toValue)
  | .edgeUpsert edge => ("edge", edge.toValue)
  | .evidenceUpsert key evidence =>
    ("evidence", .object (key.members ++ [("evidence", evidence.toValue)]))
  | .coverageDelete key => ("coverage_key", key.toValue)
  | .coverageUpsert coverage => ("coverage", coverage.toValue)

/-- `canonical_mutation_payload`: the event without its routing fields. -/
def DeltaMutation.canonicalMutationPayload (m : DeltaMutation) : Value :=
  .object [("event", .string m.eventName), m.payload]

/-! ### The graph -/

abbrev EvidenceMap := Std.ExtTreeMap DeltaEvidenceKey Evidence

abbrev CoverageMap := Std.ExtTreeMap DeltaCoverageKey DeltaCoverage

abbrev IdSet := Std.ExtTreeSet String

/-- The maps of a graph. -/
structure DeltaGraph where
  profiles : IdSet
  nodes : NodeMap
  sites : SiteMap
  edges : EdgeMap
  evidence : EvidenceMap
  coverage : CoverageMap

/-- Complete base state required to validate the result of a delta. -/
structure DeltaBaseGraph extends DeltaGraph where
  snapshotId : String
  graphDigest : String

/-! ### The ownership closure -/

mutual

/-- `has_named_scope_value`: a string under one of the keys, at any depth, is a candidate. -/
def hasNamedScopeValue (keys candidates : List String) : Value → Bool
  | .object members => membersHaveScopeValue keys candidates members
  | .array items => itemsHaveScopeValue keys candidates items
  | _ => false

def itemsHaveScopeValue (keys candidates : List String) : List Value → Bool
  | [] => false
  | v :: vs => hasNamedScopeValue keys candidates v || itemsHaveScopeValue keys candidates vs

def membersHaveScopeValue (keys candidates : List String) : List (String × Value) → Bool
  | [] => false
  | (k, v) :: ms =>
    (keys.contains k && (match v with
      | .string s => candidates.contains s
      | _ => false)) ||
    hasNamedScopeValue keys candidates v || membersHaveScopeValue keys candidates ms

end

/-- The properties under which a node names a path. -/
def pathKeys : List String :=
  ["path", "source_path", "manifest_path", "relative_path", "logical_path"]

/-- `node_is_scoped`. The lists of a validated scope are sorted, so the binary searches of the
source find every member. -/
def nodeIsScoped (scope : DeltaScope) (node : GraphNode) : Bool :=
  scope.artifactNodeIds.contains node.id || scope.paths.contains node.locator ||
    (node.kind == "package_instance" && scope.packageLocators.contains node.locator) ||
    hasNamedScopeValue pathKeys scope.paths node.properties.toValue ||
    hasNamedScopeValue ["package_locator"] scope.packageLocators node.properties.toValue ||
    hasNamedScopeValue ["profile_id"] scope.profileIds node.properties.toValue

/-- Whether the path of an evidence record is in the scope. -/
def pathIsScoped (scope : DeltaScope) (evidence : Evidence) : Bool :=
  evidence.path.any scope.paths.contains

def ownerHasScopedEvidence (scope : DeltaScope) (ownerType : DeltaEvidenceOwner)
    (ownerId : String) (evidence : EvidenceMap) : Bool :=
  evidence.toList.any fun (key, item) =>
    key.ownerType == ownerType && key.ownerId == ownerId && pathIsScoped scope item

/-- The nodes, sites and edges in the scope. -/
structure DeltaScoped where
  nodes : IdSet
  sites : IdSet
  edges : IdSet

def siteIsScoped (scope : DeltaScope) (site : DependencySite) (scopedNodes : IdSet)
    (evidence : EvidenceMap) : Bool :=
  scope.profileIds.contains site.profileId || scopedNodes.contains site.source ||
    ownerHasScopedEvidence scope .site site.id evidence

def edgeIsScoped (scope : DeltaScope) (edge : GraphEdge) (scopedNodes scopedSites : IdSet)
    (evidence : EvidenceMap) : Bool :=
  scope.profileIds.contains edge.profileId || scopedNodes.contains edge.source ||
    scopedNodes.contains edge.target || edge.siteId.any scopedSites.contains ||
    ownerHasScopedEvidence scope .edge edge.id evidence

/-- The set that holds the owners of one type. -/
def DeltaScoped.owners (closure : DeltaScoped) : DeltaEvidenceOwner → IdSet
  | .node => closure.nodes
  | .site => closure.sites
  | .edge => closure.edges

def evidenceIsScoped (scope : DeltaScope) (key : DeltaEvidenceKey) (evidence : Option Evidence)
    (closure : DeltaScoped) : Bool :=
  (closure.owners key.ownerType).contains key.ownerId || evidence.any (pathIsScoped scope)

def coverageKeyIsScoped (scope : DeltaScope) : DeltaCoverageKey → Bool
  | .aggregate => true
  | .profile profileId => scope.profileIds.contains profileId
  | .file adapter path => scope.adapters.contains adapter && scope.paths.contains path

/-- The ids of the values that satisfy a predicate. -/
def idsWhere {V : Type} (id : V → String) (predicate : V → Bool)
    (m : Std.ExtTreeMap String V) : IdSet :=
  .ofList (((values m).filter predicate).map id)

def scopedBaseEntities (scope : DeltaScope) (graph : DeltaGraph) : DeltaScoped :=
  let scopedNodes := idsWhere GraphNode.id (fun node => nodeIsScoped scope node ||
    ownerHasScopedEvidence scope .node node.id graph.evidence) graph.nodes
  let scopedSites := idsWhere DependencySite.id (fun site =>
    siteIsScoped scope site scopedNodes graph.evidence) graph.sites
  let scopedEdges := idsWhere GraphEdge.id (fun edge =>
    edgeIsScoped scope edge scopedNodes scopedSites graph.evidence) graph.edges
  ⟨scopedNodes, scopedSites, scopedEdges⟩

end Protocol
