import Depgraph.Json.Proper

/-!
# Records of a graph snapshot

The records that a snapshot consists of, with their equality (field by field, JSON columns by the
equality of the library) and the members of the object each of them is serialized to.
-/

namespace Store

open Json

structure NodeRecord where
  id : String
  kind : String
  locator : String
  displayName : String
  properties : Proper

structure CoverageRecord where
  profiles : Nat
  filesDiscovered : Nat
  filesAnalyzed : Nat
  filesSkipped : Nat
  dependencySites : Nat
  resolved : Nat
  candidates : Nat
  external : Nat
  unresolved : Nat
  unsupportedSyntax : Nat
  projectCodeExecuted : Bool
  completeness : List String
  reasons : List String
deriving DecidableEq

structure ProfileRecord where
  id : String
  language : String
  toolchain : Option Proper
  command : Option String
  target : Option String
  features : List String
  environment : Proper
  sourceRevision : Option String
  properties : Proper
  coverage : Option CoverageRecord

structure SiteRecord where
  id : String
  source : String
  kind : String
  specifier : Option String
  profileId : String
  resolutionStatus : String
  precision : String
  condition : Proper
  targetIds : List String
  reason : Option String

structure EdgeRecord where
  id : String
  siteId : Option String
  source : String
  target : String
  kind : String
  phase : String
  environment : String
  profileId : String
  resolutionStatus : String
  precision : String
  condition : Proper
  generated : Bool

structure EvidenceRecord where
  ownerType : String
  ownerId : String
  ordinal : Int
  kind : String
  extractor : String
  extractorVersion : String
  path : String
  startLine : Nat
  startColumn : Nat
  endLine : Nat
  endColumn : Nat
  detail : Option String
  properties : Proper

/-- `GraphSnapshot`, as far as it is compared. -/
structure GraphSnapshot where
  profiles : List ProfileRecord
  nodes : List NodeRecord
  sites : List SiteRecord
  edges : List EdgeRecord
  evidence : List EvidenceRecord
  coverage : CoverageRecord

/-- What the comparison of snapshots uses of a type of records: `PartialEq`, which is reflexive and
symmetric because JSON values have distinct keys, and the members that `Serialize` writes. -/
class SnapshotRecord (T : Type) extends BEq T, ReflBEq T, CommBEq T where
  members : T → List (String × Proper)

/-! ### Nodes -/

def NodeRecord.columns (node : NodeRecord) : (String × String × String × String) × Proper :=
  ((node.id, node.kind, node.locator, node.displayName), node.properties)

def NodeRecord.members (node : NodeRecord) : List (String × Proper) :=
  [("id", .string node.id), ("kind", .string node.kind), ("locator", .string node.locator),
    ("display_name", .string node.displayName), ("properties", node.properties)]

instance : SnapshotRecord NodeRecord where
  beq a b := a.columns == b.columns
  rfl := beq_self_eq_true _
  comm a b := CommBEq.comm a.columns b.columns
  members := NodeRecord.members

/-! ### Coverage -/

def CoverageRecord.members (coverage : CoverageRecord) : List (String × Proper) :=
  [("profiles", .int coverage.profiles), ("files_discovered", .int coverage.filesDiscovered),
    ("files_analyzed", .int coverage.filesAnalyzed), ("files_skipped", .int coverage.filesSkipped),
    ("dependency_sites", .int coverage.dependencySites), ("resolved", .int coverage.resolved),
    ("candidates", .int coverage.candidates), ("external", .int coverage.external),
    ("unresolved", .int coverage.unresolved),
    ("unsupported_syntax", .int coverage.unsupportedSyntax),
    ("project_code_executed", .bool coverage.projectCodeExecuted),
    ("completeness", .strings coverage.completeness), ("reasons", .strings coverage.reasons)]

theorem CoverageRecord.members_nodup (coverage : CoverageRecord) :
    (coverage.members.map Prod.fst).Nodup := by
  simp [members]

instance : SnapshotRecord CoverageRecord where
  beq a b := decide (a = b)
  rfl := by simp
  comm a b := by simp [eq_comm]
  members := CoverageRecord.members

/-! ### Profiles -/

def ProfileRecord.columns (profile : ProfileRecord) :
    (String × String × Option String × Option String × List String × Option String ×
      Option CoverageRecord) × Option Proper × Proper × Proper :=
  ((profile.id, profile.language, profile.command, profile.target, profile.features,
    profile.sourceRevision, profile.coverage), profile.toolchain, profile.environment,
    profile.properties)

/-- A missing source revision is not written. -/
def ProfileRecord.members (profile : ProfileRecord) : List (String × Proper) :=
  [("id", .string profile.id), ("language", .string profile.language),
    ("toolchain", .ofOption (fun value => value) profile.toolchain), ("command", .ofOption .string profile.command),
    ("target", .ofOption .string profile.target), ("features", .strings profile.features),
    ("environment", profile.environment)] ++
  (profile.sourceRevision.toList.map fun revision => ("source_revision", .string revision)) ++
  [("properties", profile.properties),
    ("coverage", .ofOption (fun coverage => .object coverage.members coverage.members_nodup)
      profile.coverage)]

instance : SnapshotRecord ProfileRecord where
  beq a b := a.columns == b.columns
  rfl := beq_self_eq_true _
  comm a b := CommBEq.comm a.columns b.columns
  members := ProfileRecord.members

/-! ### Sites -/

def SiteRecord.columns (site : SiteRecord) :
    (String × String × String × Option String × String × String × String × List String ×
      Option String) × Proper :=
  ((site.id, site.source, site.kind, site.specifier, site.profileId, site.resolutionStatus,
    site.precision, site.targetIds, site.reason), site.condition)

def SiteRecord.members (site : SiteRecord) : List (String × Proper) :=
  [("id", .string site.id), ("source", .string site.source), ("kind", .string site.kind),
    ("specifier", .ofOption .string site.specifier), ("profile_id", .string site.profileId),
    ("resolution_status", .string site.resolutionStatus), ("precision", .string site.precision),
    ("condition", site.condition), ("target_ids", .strings site.targetIds),
    ("reason", .ofOption .string site.reason)]

instance : SnapshotRecord SiteRecord where
  beq a b := a.columns == b.columns
  rfl := beq_self_eq_true _
  comm a b := CommBEq.comm a.columns b.columns
  members := SiteRecord.members

/-! ### Edges -/

def EdgeRecord.columns (edge : EdgeRecord) :
    (String × Option String × String × String × String × String × String × String × String ×
      String × Bool) × Proper :=
  ((edge.id, edge.siteId, edge.source, edge.target, edge.kind, edge.phase, edge.environment,
    edge.profileId, edge.resolutionStatus, edge.precision, edge.generated), edge.condition)

def EdgeRecord.members (edge : EdgeRecord) : List (String × Proper) :=
  [("id", .string edge.id), ("site_id", .ofOption .string edge.siteId),
    ("source", .string edge.source), ("target", .string edge.target), ("kind", .string edge.kind),
    ("phase", .string edge.phase), ("environment", .string edge.environment),
    ("profile_id", .string edge.profileId), ("resolution_status", .string edge.resolutionStatus),
    ("precision", .string edge.precision), ("condition", edge.condition),
    ("generated", .bool edge.generated)]

instance : SnapshotRecord EdgeRecord where
  beq a b := a.columns == b.columns
  rfl := beq_self_eq_true _
  comm a b := CommBEq.comm a.columns b.columns
  members := EdgeRecord.members

/-! ### Evidence -/

def EvidenceRecord.columns (evidence : EvidenceRecord) :
    (String × String × Int × String × String × String × String × Nat × Nat × Nat × Nat ×
      Option String) × Proper :=
  ((evidence.ownerType, evidence.ownerId, evidence.ordinal, evidence.kind, evidence.extractor,
    evidence.extractorVersion, evidence.path, evidence.startLine, evidence.startColumn,
    evidence.endLine, evidence.endColumn, evidence.detail), evidence.properties)

def EvidenceRecord.members (evidence : EvidenceRecord) : List (String × Proper) :=
  [("owner_type", .string evidence.ownerType), ("owner_id", .string evidence.ownerId),
    ("ordinal", .int evidence.ordinal), ("kind", .string evidence.kind),
    ("extractor", .string evidence.extractor),
    ("extractor_version", .string evidence.extractorVersion), ("path", .string evidence.path),
    ("start_line", .int evidence.startLine), ("start_column", .int evidence.startColumn),
    ("end_line", .int evidence.endLine), ("end_column", .int evidence.endColumn),
    ("detail", .ofOption .string evidence.detail), ("properties", evidence.properties)]

instance : SnapshotRecord EvidenceRecord where
  beq a b := a.columns == b.columns
  rfl := beq_self_eq_true _
  comm a b := CommBEq.comm a.columns b.columns
  members := EvidenceRecord.members

def evidenceIdentity (record : EvidenceRecord) : String :=
  record.ownerType ++ ":" ++ record.ownerId ++ ":" ++ toString record.ordinal

end Store
