import Depgraph.Protocol.Completeness
import Depgraph.Store.Record

/-!
# Findings

The findings of the health analysis: their kinds, blockers and confidence, and the identity and the
fingerprint that `finish_finding` computes from them.
-/

namespace Health

open Json Protocol Store

inductive FindingKind
  | unusedFile
  | unusedExport
  | unusedType
  | unusedDependency
  | testOnlyDependency
  | manifestMismatch
  | newCycle
  | newBoundaryViolation
  | publicApiChange
  | wideBlastRadius
  | hotspot
deriving DecidableEq

def FindingKind.asStr : FindingKind → String
  | .unusedFile => "unused-file"
  | .unusedExport => "unused-export"
  | .unusedType => "unused-type"
  | .unusedDependency => "unused-dependency"
  | .testOnlyDependency => "test-only-dependency"
  | .manifestMismatch => "manifest-mismatch"
  | .newCycle => "new-cycle"
  | .newBoundaryViolation => "new-boundary-violation"
  | .publicApiChange => "public-api-change"
  | .wideBlastRadius => "wide-blast-radius"
  | .hotspot => "hotspot"

def FindingKind.isUnusedCode : FindingKind → Bool
  | .unusedFile | .unusedExport | .unusedType | .unusedDependency => true
  | _ => false

inductive Severity
  | info
  | warning
  | error
deriving DecidableEq

def Severity.asStr : Severity → String
  | .info => "info"
  | .warning => "warning"
  | .error => "error"

def FindingKind.defaultSeverity : FindingKind → Severity
  | .newCycle | .newBoundaryViolation | .manifestMismatch => .error
  | .unusedFile | .unusedExport | .unusedType | .unusedDependency | .testOnlyDependency
  | .publicApiChange | .wideBlastRadius => .warning
  | .hotspot => .info

inductive Confidence
  | indeterminate
  | probable
  | confirmed
deriving DecidableEq

def Confidence.asStr : Confidence → String
  | .indeterminate => "indeterminate"
  | .probable => "probable"
  | .confirmed => "confirmed"

/-- `Confidence::min` with `Probable`. -/
def Confidence.atMostProbable : Confidence → Confidence
  | .indeterminate => .indeterminate
  | _ => .probable

inductive BlockerKind
  | publicSurface
  | entryPoint
  | dynamicLoading
  | candidate
  | unresolved
  | heuristicPrecision
  | overapproxPrecision
  | coverageOmission
  | generatedArtifact
  | profileNotAnalyzed
  | incompleteCoverage
  | manifestDrift
  | insufficientSurfaceEvidence
  | missingBaseSnapshot
  | baseSnapshotMismatch
  | worktreeDirty
  | churnUnavailable
  | runtimeNotObserved
  | incomparableProfileMatrix
  | incomparableCoverage
  | incomparablePolicy
  | incomparableContract
  | inputScopedLookup
deriving DecidableEq

def BlockerKind.asStr : BlockerKind → String
  | .publicSurface => "public-surface"
  | .entryPoint => "entry-point"
  | .dynamicLoading => "dynamic-loading"
  | .candidate => "candidate"
  | .unresolved => "unresolved"
  | .heuristicPrecision => "heuristic-precision"
  | .overapproxPrecision => "overapprox-precision"
  | .coverageOmission => "coverage-omission"
  | .generatedArtifact => "generated-artifact"
  | .profileNotAnalyzed => "profile-not-analyzed"
  | .incompleteCoverage => "incomplete-coverage"
  | .manifestDrift => "manifest-drift"
  | .insufficientSurfaceEvidence => "insufficient-surface-evidence"
  | .missingBaseSnapshot => "missing-base-snapshot"
  | .baseSnapshotMismatch => "base-snapshot-mismatch"
  | .worktreeDirty => "worktree-dirty"
  | .churnUnavailable => "churn-unavailable"
  | .runtimeNotObserved => "runtime-not-observed"
  | .incomparableProfileMatrix => "incomparable-profile-matrix"
  | .incomparableCoverage => "incomparable-coverage"
  | .incomparablePolicy => "incomparable-policy"
  | .incomparableContract => "incomparable-contract"
  | .inputScopedLookup => "input-scoped-lookup"

def BlockerKind.blocksConfirmed : BlockerKind → Bool
  | .churnUnavailable | .runtimeNotObserved => false
  | _ => true

structure SourceLocation where
  path : String
  startLine : Option Nat
  startColumn : Option Nat
  endLine : Option Nat
  endColumn : Option Nat
deriving DecidableEq

structure FindingBlocker where
  kind : BlockerKind
  detail : String
deriving DecidableEq

structure FindingEvidenceRef where
  ownerType : String
  ownerId : String
  kind : String
  path : String
deriving DecidableEq

structure Remediation where
  kind : String
  detail : String
deriving DecidableEq

/-- `HealthFinding`. The findings of unused code have no profile scope, hotspot scores or
suppressions. -/
structure HealthFinding where
  id : String
  kind : FindingKind
  severity : Severity
  confidence : Confidence
  subjectId : String
  subjectKind : String
  location : Option SourceLocation
  reason : String
  blockers : List FindingBlocker
  evidence : List FindingEvidenceRef
  remediations : List Remediation
  analyzerVersion : String
  fingerprint : String
deriving DecidableEq

structure FindingIdentity where
  kind : FindingKind
  subjectId : String
  witnessKey : Value

def findingId (S : StableIds) (identity : FindingIdentity) : String :=
  S.stableIdFromValue "finding" (.object [("contract", .string "depgraph-health-finding-v1"),
    ("kind", .string identity.kind.asStr), ("profile_scope", .null),
    ("subject_id", .string identity.subjectId), ("witness", identity.witnessKey)])

/-- A member that is left out if there is nothing to write. -/
def optionalMember (key : String) (value : Option Nat) : List (String × Value) :=
  value.toList.map fun n => (key, .number (.int n))

def SourceLocation.toValue (location : SourceLocation) : Value :=
  .object (("path", .string location.path) :: (optionalMember "start_line" location.startLine ++
    optionalMember "start_column" location.startColumn ++
    optionalMember "end_line" location.endLine ++ optionalMember "end_column" location.endColumn))

def FindingBlocker.toValue (blocker : FindingBlocker) : Value :=
  .object [("kind", .string blocker.kind.asStr), ("detail", .string blocker.detail)]

def FindingEvidenceRef.toValue (evidence : FindingEvidenceRef) : Value :=
  .object [("owner_type", .string evidence.ownerType), ("owner_id", .string evidence.ownerId),
    ("kind", .string evidence.kind), ("path", .string evidence.path)]

def Remediation.toValue (remediation : Remediation) : Value :=
  .object [("kind", .string remediation.kind), ("detail", .string remediation.detail)]

def fingerprintPayload (finding : HealthFinding) : Value :=
  .object [("analyzer_version", .string finding.analyzerVersion),
    ("blockers", .array (finding.blockers.map FindingBlocker.toValue)),
    ("confidence", .string finding.confidence.asStr),
    ("contract", .string "depgraph-health-finding-v1"),
    ("evidence", .array (finding.evidence.map FindingEvidenceRef.toValue)),
    ("id", .string finding.id), ("kind", .string finding.kind.asStr),
    ("location", (finding.location.map SourceLocation.toValue).getD .null),
    ("profile_scope", .null),
    ("remediations", .array (finding.remediations.map Remediation.toValue)),
    ("severity", .string finding.severity.asStr), ("subject_id", .string finding.subjectId),
    ("subject_kind", .string finding.subjectKind), ("suppressions", .array [])]

def findingFingerprint (S : StableIds) (finding : HealthFinding) : String :=
  "sha256:" ++ (S.sha256 (utf8 (canonicalJson S.floatText (fingerprintPayload finding)))).toHex

def applyConfidenceGuards (hasUsage profilesComplete : Bool) (blockers : List FindingBlocker) :
    Confidence :=
  if hasUsage then .indeterminate
  else if blockers.any fun blocker => blocker.kind.blocksConfirmed then .indeterminate
  else if profilesComplete then .confirmed
  else .probable

def finishFinding (S : StableIds) (identity : FindingIdentity) (subjectKind : String)
    (location : Option SourceLocation) (reason : String) (blockers : List FindingBlocker)
    (evidence : List FindingEvidenceRef) (remediations : List Remediation)
    (hasUsage profilesComplete : Bool) : HealthFinding :=
  let confidence := applyConfidenceGuards hasUsage profilesComplete blockers
  let finding : HealthFinding := {
    id := findingId S identity
    kind := identity.kind
    severity := identity.kind.defaultSeverity
    confidence := if identity.kind.isUnusedCode then confidence else confidence.atMostProbable
    subjectId := identity.subjectId
    subjectKind
    location
    reason
    blockers
    evidence
    remediations
    analyzerVersion := "1.0.4"
    fingerprint := "" }
  { finding with fingerprint := findingFingerprint S finding }

/-! ### Properties of nodes -/

/-- A string under a key of the properties. -/
def stringProperty (node : NodeRecord) (key : String) : Option String :=
  (node.properties.get key).bind Proper.asStr

/-- A boolean under a key of the properties. -/
def boolOf (node : NodeRecord) (key : String) : Option Bool :=
  (node.properties.get key).bind fun value => asBool value.value

def boolProperty (node : NodeRecord) (key : String) : Bool := (boolOf node key).getD false

/-- The path under `path` or `source_path`. -/
def sourcePath (node : NodeRecord) : Option String :=
  (stringProperty node "path").or (stringProperty node "source_path")

def startsWith (text start : String) : Bool := decide (start.toList <+: text.toList)

def endsWith (text ending : String) : Bool := decide (ending.toList <:+ text.toList)

/-! ### Locations -/

def toAsciiUppercase (text : String) : String :=
  String.ofList (text.toList.map fun c =>
    if 'a' ≤ c ∧ c ≤ 'z' then Char.ofNat (c.toNat - 32) else c)

def isWindowsReservedComponent (component : String) : Bool :=
  let stem := component.toList.takeWhile (· ≠ '.')
  let stem := toAsciiUppercase (String.ofList
    (stem.reverse.dropWhile fun c => c = ' ' || c = '.').reverse)
  ["CON", "PRN", "AUX", "NUL", "CLOCK$", "CONIN$", "CONOUT$"].contains stem ||
    ["COM", "LPT"].any fun device =>
      startsWith stem device && (String.toList "123456789¹²³").any fun digit =>
        stem.toList.drop 3 == [digit]

/-- `validate_repository_path`, as far as it accepts or rejects. -/
def isRepositoryPath (path : String) : Bool :=
  let bytes := utf8 path
  let components := splitAt '/' path
  path ≠ "" && !bytes.contains 0 && decide (bytes.length ≤ 4096) && !startsWith path "/" &&
    !startsWith path "\\" &&
    !(decide (2 ≤ bytes.length) && (bytes.head?.any fun byte =>
      (65 ≤ byte && byte ≤ 90) || (97 ≤ byte && byte ≤ 122)) && bytes[1]? == some 58) &&
    !containsText path "\\" && decide (components.length ≤ 256) &&
    components.all fun component =>
      component ≠ "" && component ≠ "." && component ≠ ".." && !containsText component ":" &&
        !endsWith component " " && !endsWith component "." &&
        !isWindowsReservedComponent component && decide ((utf8 component).length ≤ 255)

def spanPosition (node : NodeRecord) (key : String) : Option Nat :=
  ((node.properties.get key).or
    ((node.properties.get "source_span").bind fun span => span.get key)).bind
      fun value => asU64 value.value

def subjectLocation (node : NodeRecord) : Option SourceLocation := do
  let path ← sourcePath node
  if isRepositoryPath path then
    some {
      path
      startLine := spanPosition node "start_line"
      startColumn := spanPosition node "start_column"
      endLine := spanPosition node "end_line"
      endColumn := spanPosition node "end_column" }
  else none

end Health
