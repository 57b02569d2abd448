import Depgraph.Library.Mutable
import Depgraph.Protocol.DeltaValidator
import Depgraph.Protocol.SemanticKinds

/-!
# The stream validator

`validator.rs`: `ProtocolValidator` takes the events of one worker stream. What a call has written
before it fails stays written, so `push` is a computation on the validator that errors do not roll
back.
-/

namespace Protocol

open Json Fallible Panics Mutable OrderedMap

/-! ### Paths -/

inductive PathComponent where
  | rootDir | curDir | parentDir
  | normal (name : String)
deriving DecidableEq

/-- The components of a path. -/
abbrev PathBuf := List PathComponent

/-- The component that a part of a path is. -/
def pathComponent (part : String) : PathComponent :=
  if part = ".." then .parentDir else .normal part

/-- `Path::components`: a dot stands only at the front of a relative path. -/
def components (path : String) : PathBuf :=
  let parts := splitAt '/' path
  let named := (parts.filter fun part => part ∉ ["", "."]).map pathComponent
  if path.toList.head? = some '/' then .rootDir :: named
  else if parts.head? = some "." then .curDir :: named
  else named

def isAbsolute (path : PathBuf) : Bool := path.head? == some .rootDir

/-- `Path::join`. -/
def joinPath (root path : PathBuf) : PathBuf :=
  if isAbsolute path ∨ root = [] then path else root ++ path.filter (· ≠ .curDir)

/-- The path and what `PathBuf::pop` leaves of it, one component after another. -/
def ancestors (path : PathBuf) : List PathBuf :=
  path.inits.reverse.filter fun ancestor => ancestor ≠ [] ∨ isAbsolute path = false

def PathComponent.text : PathComponent → String
  | .rootDir => ""
  | .curDir => "."
  | .parentDir => ".."
  | .normal name => name

/-- `Path::display`. -/
def displayPath (path : PathBuf) : String :=
  if path = [.rootDir] then "/" else String.intercalate "/" (path.map PathComponent.text)

/-- What the validator rests on outside this code: the stable identities, the JSON reader and its
descriptions of values it cannot read, the file system, and whether the build checks for overflow. -/
structure Host where
  ids : StableIds
  fromStr : String → Option Value
  malformed : String → Value → String
  canonicalize : PathBuf → Option PathBuf
  overflowChecks : Bool

/-! ### Equality -/

/-- The derived `PartialEq`. -/
def GraphNode.beq (a b : GraphNode) : Bool :=
  a.id == b.id && a.kind == b.kind && a.locator == b.locator && a.displayName == b.displayName &&
    a.properties.beq b.properties

def GraphEdge.beq (a b : GraphEdge) : Bool :=
  a.id == b.id && a.source == b.source && a.target == b.target && a.kind == b.kind &&
    a.siteId == b.siteId && a.phase == b.phase && a.environment == b.environment &&
    a.profileId == b.profileId && a.condition.beq b.condition &&
    a.resolutionStatus == b.resolutionStatus && a.precision == b.precision &&
    a.generated == b.generated && evidenceBeq a.evidence b.evidence

def DependencySite.beq (a b : DependencySite) : Bool :=
  a.id == b.id && a.source == b.source && a.kind == b.kind && a.specifier == b.specifier &&
    a.resolutionStatus == b.resolutionStatus && a.targetIds == b.targetIds &&
    a.profileId == b.profileId && a.condition.beq b.condition && a.precision == b.precision &&
    a.reason == b.reason && evidenceBeq a.evidence b.evidence

def Diagnostic.beq (a b : Diagnostic) : Bool :=
  a.id == b.id && a.severity == b.severity && a.code == b.code && a.message == b.message &&
    a.profileId == b.profileId && a.path == b.path && a.startLine == b.startLine &&
    a.startColumn == b.startColumn && a.endLine == b.endLine && a.endColumn == b.endColumn &&
    evidenceBeq a.evidence b.evidence && a.properties.beq b.properties

/-- The derived `PartialEq` of an optional value. -/
def optionBeq : Option Value → Option Value → Bool
  | none, none => true
  | some a, some b => a.beq b
  | _, _ => false

def Profile.beq (a b : Profile) : Bool :=
  a.id == b.id && a.language == b.language && optionBeq a.toolchain b.toolchain &&
    a.command == b.command && a.target == b.target && a.features == b.features &&
    a.environment.beq b.environment && a.sourceRevision == b.sourceRevision &&
    a.properties.beq b.properties

/-! ### Events -/

def EventPayload.eventName : EventPayload → String
  | .scanStarted .. => "scan_started"
  | .profileDeclared _ => "profile_declared"
  | .nodeUpsert _ => "node_upsert"
  | .edgeUpsert _ => "edge_upsert"
  | .dependencySite _ => "dependency_site"
  | .diagnostic _ => "diagnostic"
  | .fileCompleted .. => "file_completed"
  | .profileCompleted .. => "profile_completed"
  | .scanCompleted _ => "scan_completed"

def EventPayload.isGraphEvent : EventPayload → Bool
  | .nodeUpsert _ | .edgeUpsert _ | .dependencySite _ | .diagnostic _ => true
  | _ => false

def EventPayload.isPayloadEvent : EventPayload → Bool
  | .profileDeclared _ | .nodeUpsert _ | .edgeUpsert _ | .dependencySite _ | .diagnostic _
  | .fileCompleted .. => true
  | _ => false

/-- `normalize_conditions`. -/
def normalizePayload (F : FloatText) : EventPayload → EventPayload
  | .edgeUpsert edge => .edgeUpsert { edge with condition := edge.condition.canonicalized F }
  | .dependencySite site =>
    .dependencySite { site with condition := site.condition.canonicalized F }
  | payload => payload

def normalizeConditions (F : FloatText) (event : ProtocolEvent) : ProtocolEvent :=
  { event with payload := normalizePayload F event.payload }

/-! ### Single records -/

def validateProfile (profile : Profile) : Except ProtocolError Unit := do
  requireNonEmpty "profile.id" profile.id
  requireNonEmpty "profile.language" profile.language
  match profile.toolchain with
  | none | some (.string _) | some (.object _) => .ok ()
  | _ => invariant "profile.toolchain must be a string or object"

/-- `validate_span` of a record with a path and coordinates. -/
def validateSpanOf (owner : String) (path : Option String)
    (startLine startColumn endLine endColumn : Option Nat) :
    Except (Failure ProtocolError) Unit := do
  if let some path := path then orReject (requireNonEmpty (owner ++ ".path") path)
  let coordinates := [startLine, startColumn, endLine, endColumn]
  if coordinates.all Option.isNone then .ok ()
  else
    orReject (ensure (path ≠ none ∧ coordinates.any Option.isNone = false)
      (owner ++ " span requires path and all four line/column coordinates"))
    let startLine ← expected startLine "checked"
    let startColumn ← expected startColumn "checked"
    let endLine ← expected endLine "checked"
    let endColumn ← expected endColumn "checked"
    orReject (ensure (0 ∉ [startLine, startColumn, endLine, endColumn])
      (owner ++ " span coordinates must be at least 1"))
    orReject (ensure (¬ precedes endLine endColumn startLine startColumn)
      (owner ++ s!" span end {endLine}:{endColumn} precedes start {startLine}:{startColumn}"))

def validateDiagnostic (diagnostic : Diagnostic) : Except (Failure ProtocolError) Unit := do
  orReject (requireNonEmpty "diagnostic.id" diagnostic.id)
  orReject (requireNonEmpty "diagnostic.code" diagnostic.code)
  orReject (requireNonEmpty "diagnostic.message" diagnostic.message)
  if let some profileId := diagnostic.profileId then
    orReject (requireNonEmpty "diagnostic.profile_id" profileId)
  validateSpanOf "diagnostic" diagnostic.path diagnostic.startLine diagnostic.startColumn
    diagnostic.endLine diagnostic.endColumn
  orReject (validateEvidence diagnostic.evidence)

def insertUpsert {V : Type} (beq : V → V → Bool) (collection : Std.ExtTreeMap String V)
    (id : String) (value : V) (entity : String) :
    Except ProtocolError (Std.ExtTreeMap String V) :=
  match collection[id]? with
  | some existing =>
    if beq existing value then .ok collection else .error (.conflictingUpsert entity id)
  | none => .ok (collection.insert id value)

/-! ### The validator -/

inductive StreamState where
  | awaitingStart | scanning | completed
deriving DecidableEq

inductive ValidationPolicy where
  | compatible | safeScan
deriving DecidableEq

structure StreamIdentity where
  scanId : String
  adapter : String
  adapterVersion : String
deriving DecidableEq

abbrev DiagnosticMap := Std.ExtTreeMap String Diagnostic

structure ProtocolValidator where
  policy : ValidationPolicy
  state : StreamState
  identity : Option StreamIdentity
  lastSeq : Option Nat
  root : Option String
  safeMode : Bool
  projectCodeExecuted : Bool
  payloadClosed : Bool
  retainGraphEvents : Bool
  events : List ProtocolEvent
  profiles : ProfileMap
  completedProfiles : IdSet
  profileCoverage : ProfileCoverage
  nodes : NodeMap
  edges : EdgeMap
  sites : SiteMap
  diagnostics : DiagnosticMap

structure ValidatedProtocol where
  events : List ProtocolEvent
  profiles : ProfileMap
  nodes : NodeMap
  edges : EdgeMap
  sites : SiteMap
  diagnostics : DiagnosticMap

namespace ProtocolValidator

def withPolicy (policy : ValidationPolicy) : ProtocolValidator where
  policy := policy
  state := .awaitingStart
  identity := none
  lastSeq := none
  root := none
  safeMode := false
  projectCodeExecuted := false
  payloadClosed := false
  retainGraphEvents := true
  events := []
  profiles := ∅
  completedProfiles := ∅
  profileCoverage := ∅
  nodes := ∅
  edges := ∅
  sites := ∅
  diagnostics := ∅

def withoutGraphEventRetention (v : ProtocolValidator) : ProtocolValidator :=
  { v with retainGraphEvents := false }

section Checks

variable (host : Host) (v : ProtocolValidator)

def requireDeclaredProfile (profileId event : String) : Except ProtocolError Unit :=
  check (profileId ∈ v.profiles) (.undeclaredProfile profileId event)

def requireActiveProfile (profileId event : String) : Except ProtocolError Unit := do
  v.requireDeclaredProfile profileId event
  check (profileId ∉ v.completedProfiles) (.profileAlreadyCompleted profileId event)

def validatePath (path : String) : Except (Failure ProtocolError) Unit := do
  let root ← expected v.root "scan_started always establishes a root before payload events"
  let rootPath := components root
  let candidate := components path
  orReject (check (.parentDir ∉ candidate ∧ (isAbsolute candidate = false ∨ rootPath <+: candidate))
    (.unsafePath path root))
  match host.canonicalize rootPath with
  | none => .ok ()
  | some canonicalRoot =>
    match (ancestors (joinPath rootPath candidate)).findSome? host.canonicalize with
    | none => .ok ()
    | some canonicalCandidate =>
      orReject (check (canonicalRoot <+: canonicalCandidate)
        (.unsafePath path (displayPath canonicalRoot)))

def validateEvidencePaths (evidence : List Evidence) : Except (Failure ProtocolError) Unit :=
  evidence.forM fun item =>
    match item.path with
    | some path => v.validatePath host path
    | none => .ok ()

/-- The checks of the state of the stream. -/
def checkState (payload : EventPayload) : Except ProtocolError Unit := do
  match v.state with
  | .awaitingStart =>
    match payload with
    | .scanStarted .. => .ok ()
    | _ => .error (.missingScanStarted payload.eventName)
  | .completed => .error (.eventAfterScanCompleted payload.eventName)
  | .scanning => .ok ()
  check (¬ (v.payloadClosed = true ∧ payload.isPayloadEvent = true))
    (.payloadAfterProfileCompletion payload.eventName)

/-- The checks of `scan_started`. -/
def checkStart (root : String) (projectCodeExecuted safeMode : Bool) :
    Except ProtocolError Unit := do
  check (v.state = .awaitingStart) .duplicateScanStarted
  requireNonEmpty "scan_started.root" root
  check (¬ (v.policy = .safeScan ∧ (safeMode = false ∨ projectCodeExecuted = true)))
    (.unsafeScanMode safeMode projectCodeExecuted)
  ensure (¬ (safeMode = true ∧ projectCodeExecuted = true))
    "safe-mode scan reports project_code_executed=true"

/-- The checks of `profile_declared`. -/
def checkProfile (profile : Profile) : Except ProtocolError Unit := do
  validateProfile profile
  check (profile.id ∉ v.completedProfiles) (.profileAlreadyCompleted profile.id "profile_declared")

/-- The checks of `edge_upsert`. -/
def checkEdge (edge : GraphEdge) : Except (Failure ProtocolError) Unit := do
  orReject (validateEdge edge)
  orReject (v.requireActiveProfile edge.profileId "edge_upsert")
  v.validateEvidencePaths host edge.evidence

/-- The checks of `dependency_site`. -/
def checkSite (site : DependencySite) : Except (Failure ProtocolError) Unit := do
  orReject (validateSite site)
  orReject (v.requireActiveProfile site.profileId "dependency_site")
  v.validateEvidencePaths host site.evidence

/-- The checks of `diagnostic`. -/
def checkDiagnostic (diagnostic : Diagnostic) : Except (Failure ProtocolError) Unit := do
  validateDiagnostic diagnostic
  if let some profileId := diagnostic.profileId then
    orReject (v.requireDeclaredProfile profileId "diagnostic")
  if let some path := diagnostic.path then v.validatePath host path
  v.validateEvidencePaths host diagnostic.evidence

/-- The checks of `file_completed`. -/
def checkFile (file : FileCompleted) : Except (Failure ProtocolError) Unit := do
  orReject (requireNonEmpty "file_completed.path" file.path)
  v.validatePath host file.path
  orReject do
    let accounted ← required (checkedAddU64 file.emittedSites file.skippedSites)
      (.invariant ("file " ++ file.path ++ " site ledger overflowed"))
    ensure (accounted = file.discoveredSites)
      ("file " ++ file.path ++ s!" discovered {file.discoveredSites} sites but emitted " ++
        s!"{file.emittedSites} and skipped {file.skippedSites}")
    ensure (¬ (0 < file.skippedSites ∧ file.skipped = false))
      ("file " ++ file.path ++ " reports skipped sites but skipped=false")
    ensure (¬ (file.skipped = true ∧ file.reason = none))
      ("skipped file " ++ file.path ++ " has no reason")
    if let some reason := file.reason then requireNonEmpty "file_completed.reason" reason

/-- The checks of `profile_completed` after the profile has been marked as completed. -/
def checkCompletion (profileId : String) (coverage : Coverage) :
    Except (Failure ProtocolError) Unit := do
  orReject (ensure (¬ (v.safeMode = true ∧ coverage.projectCodeExecuted = true))
    ("safe-mode profile " ++ profileId ++ " reports project_code_executed=true"))
  Stream.validateCoverage host.overflowChecks coverage
  orReject (Stream.validateProfileCoverage profileId coverage v.sites)
  let profile ← expected v.profiles[profileId]? "profile completion requires a declared profile"
  validateProfileCompleteness host.fromStr profile coverage
  if profile.language = "rust" ∧ .semanticComplete ∈ coverage.completeness then
    match ← unrefinedRustSourceFallbackSite v.sites profileId with
    | some site =>
      orReject (invariant ("Rust semantic-complete profile " ++ profileId ++
        " cannot retain source fallback dependency site " ++ site.id))
    | none => .ok ()

/-- The checks of `scan_completed`. -/
def checkScanCompleted (coverage : Coverage) : Except (Failure ProtocolError) Unit := do
  let uncompleted := v.profiles.keys.filter fun id => id ∉ v.completedProfiles
  orReject (check (uncompleted = []) (.uncompletedProfiles uncompleted))
  orReject (ensure (¬ (v.safeMode = true ∧ coverage.projectCodeExecuted = true))
    "safe-mode coverage reports project_code_executed=true")
  Stream.validateCoverage host.overflowChecks coverage
  validateScanCoverage host.overflowChecks coverage v.profiles v.sites v.events
  orReject (validateAggregateProfileCoverage coverage v.profileCoverage)
  orReject (ensure (coverage.projectCodeExecuted = v.projectCodeExecuted)
    ("scan_started project_code_executed=" ++ debugBool v.projectCodeExecuted ++
      " but final coverage reports " ++ debugBool coverage.projectCodeExecuted))
  orReject (validateSiteEdgeMaps host.ids v.nodes v.edges v.sites .required)
  validateCrossLanguageMaps host.ids host.malformed v.profiles v.nodes v.edges v.sites

def checkIdentity (identity : StreamIdentity) (common : CommonFields) :
    Except ProtocolError Unit := do
  check (identity.scanId = common.scanId)
    (.metadataChanged "scan_id" identity.scanId common.scanId)
  check (identity.adapter = common.adapter)
    (.metadataChanged "adapter" identity.adapter common.adapter)
  check (identity.adapterVersion = common.adapterVersion)
    (.metadataChanged "adapter_version" identity.adapterVersion common.adapterVersion)

/-- The checks of `validate_common` before the identity of the stream. -/
def checkCommon (common : CommonFields) : Except ProtocolError Unit := do
  check (common.protocolVersion = protocolVersion)
    (.unsupportedVersion protocolVersion common.protocolVersion)
  requireNonEmpty "scan_id" common.scanId
  requireNonEmpty "adapter" common.adapter
  requireNonEmpty "adapter_version" common.adapterVersion
  match v.lastSeq with
  | some previous =>
    check (¬ common.seq ≤ previous) (.nonMonotonicSequence previous common.seq)
  | none => .ok ()

end Checks

/-! ### Pushing events -/

/-- A method of the validator. -/
abbrev Method (α : Type) : Type := Mutating (Failure ProtocolError) ProtocolValidator α

def validateCommon (common : CommonFields) : Method Unit := do
  let self ← get
  attempt (orReject (self.checkCommon common))
  match self.identity with
  | some identity => attempt (orReject (checkIdentity identity common))
  | none => modify fun self => { self with
      identity := some ⟨common.scanId, common.adapter, common.adapterVersion⟩ }
  modify fun self => { self with lastSeq := some common.seq }

section Push

variable (host : Host)

/-- What an event does, by its kind. -/
def apply : EventPayload → Method Unit
  | .scanStarted root projectCodeExecuted safeMode => do
    let self ← get
    attempt (orReject (self.checkStart root projectCodeExecuted safeMode))
    modify fun self => { self with
      root := some root
      safeMode
      projectCodeExecuted
      state := .scanning }
  | .profileDeclared profile => do
    let self ← get
    attempt (orReject (self.checkProfile profile))
    let profiles ← attempt (orReject
      (insertUpsert Profile.beq self.profiles profile.id profile "profile"))
    modify fun self => { self with profiles }
  | .nodeUpsert node => do
    let self ← get
    attempt (orReject (validateNode host.ids node))
    let nodes ← attempt (orReject (insertUpsert GraphNode.beq self.nodes node.id node "node"))
    modify fun self => { self with nodes }
  | .edgeUpsert edge => do
    let self ← get
    attempt (self.checkEdge host edge)
    let edges ← attempt (orReject (insertUpsert GraphEdge.beq self.edges edge.id edge "edge"))
    modify fun self => { self with edges }
  | .dependencySite site => do
    let self ← get
    attempt (self.checkSite host site)
    let sites ← attempt (orReject
      (insertUpsert DependencySite.beq self.sites site.id site "dependency_site"))
    modify fun self => { self with sites }
  | .diagnostic diagnostic => do
    let self ← get
    attempt (self.checkDiagnostic host diagnostic)
    let diagnostics ← attempt (orReject
      (insertUpsert Diagnostic.beq self.diagnostics diagnostic.id diagnostic "diagnostic"))
    modify fun self => { self with diagnostics }
  | .fileCompleted path discoveredSites emittedSites skippedSites skipped reason => do
    let self ← get
    attempt (self.checkFile host
      ⟨path, discoveredSites, emittedSites, skippedSites, skipped, reason⟩)
  | .profileCompleted profileId coverage => do
    let self ← get
    attempt (orReject (self.requireDeclaredProfile profileId "profile_completed"))
    modify fun self => { self with completedProfiles := self.completedProfiles.insert profileId }
    attempt (orReject
      (check (profileId ∉ self.completedProfiles) (.duplicateProfileCompletion profileId)))
    attempt (self.checkCompletion host profileId coverage)
    modify fun self => { self with
      profileCoverage := self.profileCoverage.insert profileId coverage
      payloadClosed := true }
  | .scanCompleted coverage => do
    let self ← get
    attempt (self.checkScanCompleted host coverage)
    modify fun self => { self with state := .completed }

/-- `self.events.push(event)`, where the event is retained. -/
def retain (event : ProtocolEvent) (self : ProtocolValidator) : ProtocolValidator :=
  if self.retainGraphEvents ∨ event.payload.isGraphEvent = false then
    { self with events := self.events ++ [event] }
  else self

def push (event : ProtocolEvent) : Method Unit := do
  let event := normalizeConditions host.ids.floatText event
  validateCommon event.common
  let self ← get
  attempt (orReject (self.checkState event.payload))
  apply host event.payload
  modify (retain event)

end Push

def finish (self : ProtocolValidator) : Except ProtocolError ValidatedProtocol := do
  check (self.state = .completed) .incompleteStream
  return ⟨self.events, self.profiles, self.nodes, self.edges, self.sites, self.diagnostics⟩

end ProtocolValidator

end Protocol
