import Depgraph.Health.Unused
import Depgraph.Protocol.ExactForm

/-!
# The profile matrix

`profile_matrix.rs`: the view that brings the profiles of one effective input together, and compares
for every dependency what was predicted with what was observed.

* `MatrixSource.matrix` is the view. A map of the source is a function here, a set the list of its
  members in order.
* `refreshProfileMatrixInner` drops what an earlier view has added to a snapshot, builds the view, and
  adds its diagnostics with copies of the evidence that they rest on.

The cache of conditions is left out: under a text it keeps what is computed from the text.
-/

namespace ProfileMatrix

open Json Protocol Store SortDedup OrderedMap

open Health (declaredParentProfileId effectiveInputId effectiveProfileId canonicalLanguage profileById)

/-- What the view rests on outside this code: stable identities and the decoder that serde derives for
conditions. -/
structure Libraries extends StableIds where
  decodeCondition : Value → Option Condition

def schemaVersion : String := "profile-matrix-v1"

/-- `Value::as_str`. -/
def textOf : Value → Option String
  | .string text => some text
  | _ => none

/-- `u64` counters stop at their largest value. -/
def saturated (n : Nat) : Nat := min n 18446744073709551615

/-! ### Phases -/

/-- The phases, in the order of their names. -/
inductive Phase
  | build
  | runtime
  | semantic
  | static
deriving DecidableEq

def Phase.name : Phase → String
  | .build => "build"
  | .runtime => "runtime"
  | .semantic => "semantic"
  | .static => "static"

def Phase.all : List Phase := [.build, .runtime, .semantic, .static]

/-- A map whose keys are phases. -/
abbrev ByPhase (α : Type) := Phase → Option α

/-- The phases that a map has. -/
def ByPhase.keys {α : Type} (map : ByPhase α) : List Phase :=
  Phase.all.filter fun phase => (map phase).isSome

/-- The object that a map is serialized to. -/
def ByPhase.toValue {α : Type} (f : α → Value) (map : ByPhase α) : Value :=
  .object (Phase.all.filterMap fun phase => (map phase).map fun a => (phase.name, f a))

def canonicalPhase (phase : String) : Phase :=
  if phase = "semantic" then .semantic
  else if phase = "build" then .build
  else if phase = "runtime" then .runtime
  else .static

def evidenceKindPhase (kind : String) : Phase := canonicalPhase kind

def completenessPhase (completeness : String) : Option Phase :=
  if completeness = "syntax-complete" then some .static
  else if completeness = "semantic-complete" then some .semantic
  else if completeness = "build-observed" then some .build
  else if completeness = "runtime-observed" then some .runtime
  else none

/-- The levels of completeness of a profile. -/
def completenessLevels (profile : ProfileRecord) : List String :=
  (profile.coverage.map (·.completeness)).getD []

def profilePhases (profile : ProfileRecord) : List Phase :=
  ((profile.properties.get "profile_phase").bind Proper.asStr).toList.map canonicalPhase ++
    (completenessLevels profile).filterMap completenessPhase

/-! ### Unions of conditions -/

section Union

variable (L : Libraries)

/-- The expression `all []`, by its text. -/
def isTrueExpression (value : Value) : Bool :=
  (value.member "op").bind textOf == some "all" &&
    match value.member "conditions" with
    | some (.array []) => true
    | _ => false

/-- `ConditionCache::canonicalize`. -/
def canonicalOperand (value : Value) : Option Condition :=
  (L.decodeCondition value).map (Condition.canonicalized L.floatText)

/-- The operands of a union: `none` when one of them always holds. -/
def operands : List Value → Option (List Condition)
  | [] => some []
  | value :: values =>
    if isTrueExpression value then none
    else
      match canonicalOperand L value with
      | none => operands values
      | some (.all []) => none
      | some condition => (operands values).map (condition :: ·)

/-- The disjunction of conditions that stand in order. -/
def disjunction : List Condition → Condition
  | [] => .all []
  | [condition] => condition
  | conditions => (Condition.any conditions).canonicalized L.floatText

def union (values : List Value) : Value :=
  match operands L values with
  | none => (Condition.all []).toValue
  | some conditions =>
    (disjunction L (dedup Condition.beq (exact (Condition.sortKey L.floatText) conditions))).toValue

end Union

/-! ### Records -/

structure PhaseCoverageRecord where
  profileIds : List String
  sites : Nat
  edges : Nat
  evidence : Nat
  resolved : Nat
  candidates : Nat
  external : Nat
  unresolved : Nat
  completeness : List String
deriving DecidableEq

structure ProfileAxisConflictRecord where
  profileId : String
  parentProfileId : String
  fields : List String
  diagnosticId : String
deriving DecidableEq

structure ProfileMatrixEntryRecord where
  id : String
  effectiveInputId : String
  language : String
  profileIds : List String
  parentProfileIds : List String
  phases : List Phase
  conditionUnion : Value
  phaseCoverage : ByPhase PhaseCoverageRecord
  selectionReasons : List String
  axisConflicts : List ProfileAxisConflictRecord

structure ProfileCorrelationRecord where
  id : String
  effectiveProfileId : String
  source : String
  kind : String
  specifier : String
  status : String
  conditionUnion : Value
  conditionsByPhase : ByPhase Value
  targetsByPhase : ByPhase (List String)
  resolutionsByPhase : ByPhase (List String)
  siteIdsByPhase : ByPhase (List String)
  edgeIdsByPhase : ByPhase (List String)
  differenceReasons : List String
  diagnosticId : Option String

structure ProfileMatrixRecord where
  entries : List ProfileMatrixEntryRecord
  correlations : List ProfileCorrelationRecord
  phaseCoverage : ByPhase PhaseCoverageRecord
  differenceCounts : List (String × Nat)

structure DiagnosticRecord where
  ordinal : Int
  id : String
  severity : String
  code : String
  message : String
  path : Option String
  adapter : Option String
  startLine : Option Nat
  startColumn : Option Nat
  endLine : Option Nat
  endColumn : Option Nat
  properties : Value

/-- `GraphSnapshot`, as far as the view reads and writes it. -/
structure GraphSnapshot extends Store.GraphSnapshot where
  diagnostics : List DiagnosticRecord
  profileMatrix : ProfileMatrixRecord

/-! ### Profiles -/

def effectiveEnvironment (environment : Proper) : Value :=
  .object (((asObject environment.value).getD []).filter fun member => member.1 ≠ "phase")

def profileAxisDifferences (child parent : ProfileRecord) : List String :=
  (if canonicalLanguage child.language ≠ canonicalLanguage parent.language then ["language"] else []) ++
  (if child.target.isSome ∧ child.target ≠ parent.target then ["target"] else []) ++
  (if exact id child.features ≠ exact id parent.features then ["features"] else []) ++
  (if effectiveEnvironment child.environment != effectiveEnvironment parent.environment then
    ["environment"] else [])

/-- The diagnostic of a child whose axes conflict with those of its parent. -/
def axisDiagnosticId (S : StableIds) (profileId parentProfileId : String) (fields : List String) :
    String :=
  S.stableIdFromValue "diagnostic" (.object
    [("code", .string "PROFILE_MATRIX_PROFILE_CONFLICT"), ("profile_id", .string profileId),
      ("parent_profile_id", .string parentProfileId), ("fields", stringsValue fields)])

/-- The conflict of a profile with the parent that it declares. -/
def axisConflict (S : StableIds) (profiles : List ProfileRecord) (profile : ProfileRecord) :
    Option ProfileAxisConflictRecord :=
  (declaredParentProfileId profile).bind fun parentId =>
    (profileById profiles parentId).bind fun parent =>
      let fields := profileAxisDifferences profile parent
      if fields = [] then none
      else some {
        profileId := profile.id
        parentProfileId := parentId
        fields := fields
        diagnosticId := axisDiagnosticId S profile.id parentId fields }

/-- Why a profile belongs to its effective input. -/
def selectionReason (profile : ProfileRecord) : String :=
  if (declaredParentProfileId profile).isSome then "parent-effective-input" else "direct-effective-input"

/-! ### Coverage of a phase -/

/-- `PhaseCoverageBuilder`, filled with what belongs to one phase: evidence stands beside the profile
of its owner. -/
def phaseCoverageOf (profiles : List ProfileRecord) (sites : List SiteRecord) (edges : List EdgeRecord)
    (evidence : List (String × EvidenceRecord)) (completeness : List String) :
    Option PhaseCoverageRecord :=
  if profiles = [] ∧ sites = [] ∧ edges = [] ∧ evidence = [] then none
  else
    let counted (status : String) : Nat :=
      saturated (sites.countP fun site => site.resolutionStatus = status)
    some {
      profileIds := exact id (profiles.map (·.id) ++ sites.map (·.profileId) ++
        edges.map (·.profileId) ++ evidence.map Prod.fst)
      sites := saturated sites.length
      edges := saturated edges.length
      evidence := saturated evidence.length
      resolved := counted "resolved"
      candidates := counted "candidates"
      external := counted "external"
      unresolved := counted "unresolved"
      completeness := exact id completeness }

/-! ### Correlations -/

def correlationKey (S : StableIds) (effectiveProfileId source kind specifier : String) : String :=
  S.stableIdFromValue "profile-correlation" (.object
    [("schema_version", .string schemaVersion),
      ("effective_profile_id", .string effectiveProfileId), ("source", .string source),
      ("kind", .string kind), ("specifier", .string specifier)])

structure CorrelationBuilder where
  effectiveProfileId : String
  source : String
  kind : String
  specifier : String
  conditions : ByPhase (List Value)
  targets : ByPhase (List String)
  resolutions : ByPhase (List String)
  siteIds : ByPhase (List String)
  edgeIds : ByPhase (List String)

/-- The phase that the observations are compared with. -/
def CorrelationBuilder.predictedPhase (builder : CorrelationBuilder) : Option Phase :=
  if (builder.targets .semantic).isSome then some .semantic
  else if (builder.targets .static).isSome then some .static
  else none

def CorrelationBuilder.observedPhases (builder : CorrelationBuilder) : List Phase :=
  [.build, .runtime].filter fun phase => (builder.targets phase).isSome

/-- How one observation differs from the prediction. -/
def CorrelationBuilder.mismatches (builder : CorrelationBuilder) (conditions : ByPhase Value)
    (predicted observed : Phase) : List String :=
  (if builder.targets observed ≠ some ((builder.targets predicted).getD []) then ["target_mismatch"]
    else []) ++
  (if conditions observed != conditions predicted then ["condition_mismatch"] else []) ++
  (if builder.resolutions observed ≠ some ((builder.resolutions predicted).getD []) then
    ["resolution_mismatch"] else [])

/-- The status of a correlation, and the differences behind it. -/
def CorrelationBuilder.status (builder : CorrelationBuilder) (conditions : ByPhase Value) :
    String × List String :=
  match builder.predictedPhase, builder.observedPhases with
  | _, [] => ("unobserved", ["not_observed"])
  | none, _ => ("additional", ["observed_addition"])
  | some predicted, observed =>
    let differences := observed.flatMap (builder.mismatches conditions predicted)
    (if differences = [] then "matched" else "conflict", differences)

/-- The semantic phase refines the static one. -/
def CorrelationBuilder.refines (builder : CorrelationBuilder) (conditions : ByPhase Value) : Bool :=
  (builder.targets .static).isSome && (builder.targets .semantic).isSome &&
    (builder.targets .static ≠ builder.targets .semantic ||
      conditions .static != conditions .semantic)

def finishCorrelation (L : Libraries) (builder : CorrelationBuilder) : ProfileCorrelationRecord :=
  let conditions : ByPhase Value := fun phase => (builder.conditions phase).map (union L)
  let status := builder.status conditions
  let key := correlationKey L.toStableIds builder.effectiveProfileId builder.source builder.kind
    builder.specifier
  { id := key
    effectiveProfileId := builder.effectiveProfileId
    source := builder.source
    kind := builder.kind
    specifier := builder.specifier
    status := status.1
    conditionUnion := union L (Phase.all.filterMap conditions)
    conditionsByPhase := conditions
    targetsByPhase := builder.targets
    resolutionsByPhase := builder.resolutions
    siteIdsByPhase := builder.siteIds
    edgeIdsByPhase := builder.edgeIds
    differenceReasons := exact id (status.2 ++
      if builder.refines conditions then ["semantic_refinement"] else [])
    diagnosticId := if status.1 = "conflict" then
      some (L.stableIdFromValue "diagnostic" (.object
        [("code", .string "BUILD_EVIDENCE_CONFLICT"), ("correlation_id", .string key)]))
      else none }

/-! ### The view -/

/-- What the view is built from. -/
structure MatrixSource where
  profiles : List ProfileRecord
  sites : List SiteRecord
  edges : List EdgeRecord
  evidence : List EvidenceRecord

/-- The evidence that decides the phase of a site: the first of the smallest ordinal. -/
def earlier (best : Option EvidenceRecord) (evidence : EvidenceRecord) : Option EvidenceRecord :=
  if best.all fun best => evidence.ordinal < best.ordinal then some evidence else best

/-- The evidence of a site. -/
def ofSite (siteId : String) (evidence : EvidenceRecord) : Bool :=
  evidence.ownerType = "site" && evidence.ownerId = siteId

namespace MatrixSource

variable (L : Libraries) (m : MatrixSource)

/-- The phase of a site. -/
def sitePhase (site : SiteRecord) : Phase :=
  (((m.evidence.filter (ofSite site.id)).foldl earlier none).map fun evidence =>
    evidenceKindPhase evidence.kind).getD .static

/-- The effective input of a profile, by its id. -/
def effective (profileId : String) : Option String :=
  (profileById m.profiles profileId).map (effectiveInputId L.toStableIds m.profiles)

/-- The effective inputs, in order. -/
def effectiveInputs : List String :=
  exact id (m.profiles.filterMap fun profile => m.effective L profile.id)

/-- The correlation of a site whose profile is known. -/
def correlationOf (site : SiteRecord) : Option String :=
  (m.effective L site.profileId).map fun input =>
    correlationKey L.toStableIds (effectiveProfileId L.toStableIds input) site.source site.kind
      (site.specifier.getD "")

/-- The correlation of an edge: that of its site. -/
def edgeCorrelation (edge : EdgeRecord) : Option String :=
  edge.siteId.bind fun siteId =>
    ((m.sites.filter fun site => (m.correlationOf L site).isSome).reverse.find? fun site =>
      site.id = siteId).bind (m.correlationOf L)

/-- The profile of the owner of evidence. -/
def ownerProfile (evidence : EvidenceRecord) : Option String :=
  if evidence.ownerType = "site" then
    (m.sites.reverse.find? fun site => site.id = evidence.ownerId).map (·.profileId)
  else if evidence.ownerType = "edge" then
    (m.edges.reverse.find? fun edge => edge.id = evidence.ownerId).map (·.profileId)
  else none

/-- The evidence whose owner is there, with the profile of the owner. -/
def ownedEvidence : List (String × EvidenceRecord) :=
  m.evidence.filterMap fun evidence => (m.ownerProfile evidence).map (·, evidence)

/-- The coverage of a phase by some of the profiles, sites, edges and evidence. -/
def coverage (profiles : List ProfileRecord) (sites : List SiteRecord) (edges : List EdgeRecord)
    (evidence : List (String × EvidenceRecord)) : ByPhase PhaseCoverageRecord := fun phase =>
  phaseCoverageOf (profiles.filter fun profile => phase ∈ profilePhases profile)
    (sites.filter fun site => m.sitePhase site = phase)
    (edges.filter fun edge => canonicalPhase edge.phase = phase)
    (evidence.filter fun owned => evidenceKindPhase owned.2.kind = phase)
    ((profiles.flatMap completenessLevels).filter fun level => completenessPhase level = some phase)

/-! ### Correlations of a view -/

/-- The correlation of a key, with its sites in each phase. -/
def correlationBuilder (key : String) (first : SiteRecord) : CorrelationBuilder :=
  let sites (phase : Phase) : Option (List SiteRecord) :=
    inhabitedList (m.sites.filter fun site =>
      m.correlationOf L site = some key ∧ m.sitePhase site = phase)
  let edges (phase : Phase) : Option (List EdgeRecord) :=
    inhabitedList (m.edges.filter fun edge =>
      m.edgeCorrelation L edge = some key ∧ canonicalPhase edge.phase = phase)
  { effectiveProfileId :=
      ((m.effective L first.profileId).map (effectiveProfileId L.toStableIds)).getD ""
    source := first.source
    kind := first.kind
    specifier := first.specifier.getD ""
    conditions := fun phase => (sites phase).map (List.map fun site => site.condition.value)
    targets := fun phase => (sites phase).map fun sites => exact id (sites.flatMap (·.targetIds))
    resolutions := fun phase => (sites phase).map fun sites => exact id (sites.map (·.resolutionStatus))
    siteIds := fun phase => (sites phase).map fun sites => exact id (sites.map (·.id))
    edgeIds := fun phase => (edges phase).map fun edges => exact id (edges.map (·.id)) }

/-- The correlation of a key. Its first site names it. -/
def correlation (key : String) : Option ProfileCorrelationRecord :=
  (m.sites.find? fun site => m.correlationOf L site = some key).map fun first =>
    finishCorrelation L (m.correlationBuilder L key first)

/-- The correlations, in the order of their ids. -/
def correlations : List ProfileCorrelationRecord :=
  sortByKey (·.id) ((exact id (m.sites.filterMap (m.correlationOf L))).filterMap (m.correlation L))

/-! ### Entries of a view -/

def profilesOf (input : String) : List ProfileRecord :=
  m.profiles.filter fun profile => m.effective L profile.id = some input

def sitesOf (input : String) : List SiteRecord :=
  m.sites.filter fun site => m.effective L site.profileId = some input

def edgesOf (input : String) : List EdgeRecord :=
  m.edges.filter fun edge => m.effective L edge.profileId = some input

/-- The language of the first profile of an effective input. -/
def languageOf (input : String) : String :=
  ((m.profilesOf L input).head?.map fun profile => canonicalLanguage profile.language).getD ""

/-- The conditions under which an entry holds: those of its correlations, if it has any. -/
def conditionsOf (input : String) : List Value :=
  match (m.correlations L).filter fun record =>
      record.effectiveProfileId = effectiveProfileId L.toStableIds input with
  | [] => (m.sitesOf L input).map (·.condition.value) ++ (m.edgesOf L input).map (·.condition.value)
  | records => records.map (·.conditionUnion)

/-- The entry of an effective input. -/
def entry (input : String) : ProfileMatrixEntryRecord :=
  let profiles := m.profilesOf L input
  let sites := m.sitesOf L input
  let edges := m.edgesOf L input
  { id := effectiveProfileId L.toStableIds input
    effectiveInputId := input
    language := m.languageOf L input
    profileIds := exact id (profiles.map (·.id))
    parentProfileIds := exact id (profiles.filterMap declaredParentProfileId)
    phases := Phase.all.filter fun phase =>
      phase ∈ profiles.flatMap profilePhases ++ sites.map m.sitePhase ++
        edges.map fun edge => canonicalPhase edge.phase
    conditionUnion := union L (m.conditionsOf L input)
    phaseCoverage := m.coverage profiles sites edges
      (m.ownedEvidence.filter fun owned => m.effective L owned.1 = some input)
    selectionReasons := exact id (profiles.map selectionReason)
    axisConflicts := sortByKey (·.profileId)
      (profiles.filterMap (axisConflict L.toStableIds m.profiles)) }

/-- The entries, in the order of their ids. -/
def entries : List ProfileMatrixEntryRecord :=
  sortByKey (·.id) ((m.effectiveInputs L).map (m.entry L))

/-- How many correlations have each status. -/
def differenceCounts : List (String × Nat) :=
  ["additional", "conflict", "matched", "unobserved"].map fun status =>
    (status, (m.correlations L).countP fun record => record.status = status)

/-- `build_profile_matrix`. -/
def matrix : ProfileMatrixRecord where
  entries := m.entries L
  correlations := m.correlations L
  phaseCoverage := m.coverage m.profiles
    (m.sites.filter fun site => (m.effective L site.profileId).isSome)
    (m.edges.filter fun edge => (m.effective L edge.profileId).isSome) m.ownedEvidence
  differenceCounts := m.differenceCounts L

end MatrixSource

/-! ### Diagnostics of a view -/

def isProfileMatrixDiagnostic (diagnostic : DiagnosticRecord) : Bool :=
  (diagnostic.properties.member "profile_matrix_schema").bind textOf == some schemaVersion

/-- The text by which `append_owned_evidence` knows evidence again. -/
def ownedIdentity (F : FloatText) (item : EvidenceRecord) : List Char :=
  (Value.object
    [("kind", .string item.kind), ("extractor", .string item.extractor),
      ("extractor_version", .string item.extractorVersion), ("path", .string item.path),
      ("start_line", .number (.int item.startLine)), ("start_column", .number (.int item.startColumn)),
      ("end_line", .number (.int item.endLine)), ("end_column", .number (.int item.endColumn)),
      ("detail", item.detail.elim .null .string), ("properties", item.properties.value)]).text F

/-- The copy of evidence that a diagnostic owns. -/
def ownedBy (diagnosticId : String) (ordinal : Nat) (item : EvidenceRecord) : EvidenceRecord :=
  { item with ownerType := "diagnostic", ownerId := diagnosticId, ordinal := ordinal }

/-- The loop of `append_owned_evidence`. -/
def ownedFrom (F : FloatText) (diagnosticId : String) :
    List (List Char) → List EvidenceRecord → List EvidenceRecord
  | _, [] => []
  | seen, item :: items =>
    if ownedIdentity F item ∈ seen then ownedFrom F diagnosticId seen items
    else ownedBy diagnosticId seen.length item ::
      ownedFrom F diagnosticId (ownedIdentity F item :: seen) items

def appendOwnedEvidence (F : FloatText) (snapshot : GraphSnapshot) (matching : List EvidenceRecord)
    (diagnosticId : String) : GraphSnapshot :=
  { snapshot with evidence := snapshot.evidence ++ ownedFrom F diagnosticId [] matching }

/-- The diagnostics of a view: they have no place and no adapter. -/
def derivedDiagnostic (id code message : String) (properties : Value) : DiagnosticRecord where
  ordinal := 0
  id := id
  severity := "warning"
  code := code
  message := message
  path := none
  adapter := none
  startLine := none
  startColumn := none
  endLine := none
  endColumn := none
  properties := properties

/-- The ids of the sites of a correlation. -/
def ProfileCorrelationRecord.siteIds (correlation : ProfileCorrelationRecord) : List String :=
  (Phase.all.filterMap correlation.siteIdsByPhase).flatten

/-- The evidence of the sites of a correlation. -/
def ProfileCorrelationRecord.owns (correlation : ProfileCorrelationRecord)
    (evidence : EvidenceRecord) : Bool :=
  evidence.ownerType = "site" && correlation.siteIds.contains evidence.ownerId

/-- The runs of the builds in which a correlation has been observed. -/
def buildRunIds (correlation : ProfileCorrelationRecord) (evidence : List EvidenceRecord) :
    List String :=
  exact id ((evidence.filter fun item => correlation.owns item && item.kind = "build").filterMap
    fun item => (item.properties.get "build_run_id").bind Proper.asStr)

/-- The diagnostic of a correlation that is in conflict. -/
def correlationDiagnostic (correlation : ProfileCorrelationRecord) (evidence : List EvidenceRecord)
    (id : String) : DiagnosticRecord :=
  let runs := buildRunIds correlation evidence
  derivedDiagnostic id "BUILD_EVIDENCE_CONFLICT"
    "observed dependency evidence conflicts with the selected static or semantic prediction"
    (.object
      [("profile_correlation_id", .string correlation.id),
        ("profile_matrix_schema", .string schemaVersion),
        ("effective_profile_id", .string correlation.effectiveProfileId),
        ("build_run_id", runs.head?.elim .null .string), ("build_run_ids", stringsValue runs),
        ("difference_reasons", stringsValue correlation.differenceReasons),
        ("conditions_by_phase", correlation.conditionsByPhase.toValue fun value => value),
        ("targets_by_phase", correlation.targetsByPhase.toValue stringsValue),
        ("site_ids_by_phase", correlation.siteIdsByPhase.toValue stringsValue),
        ("phases", stringsValue (correlation.siteIdsByPhase.keys.map Phase.name))])

/-- The loop over the correlations that are in conflict. -/
def appendCorrelation (F : FloatText) (snapshot : GraphSnapshot)
    (correlation : ProfileCorrelationRecord) : GraphSnapshot :=
  match correlation.diagnosticId with
  | none => snapshot
  | some id =>
    appendOwnedEvidence F
      { snapshot with
        diagnostics := snapshot.diagnostics ++
          [correlationDiagnostic correlation snapshot.evidence id] }
      (snapshot.evidence.filter correlation.owns) id

/-- The diagnostic of a profile whose axes conflict with those of its parent. -/
def axisDiagnostic (entry : ProfileMatrixEntryRecord) (conflict : ProfileAxisConflictRecord) :
    DiagnosticRecord :=
  derivedDiagnostic conflict.diagnosticId "PROFILE_MATRIX_PROFILE_CONFLICT"
    "child profile effective axes conflict with its declared parent profile"
    (.object
      [("effective_profile_id", .string entry.id), ("profile_matrix_schema", .string schemaVersion),
        ("effective_input_id", .string entry.effectiveInputId),
        ("profile_id", .string conflict.profileId),
        ("parent_profile_id", .string conflict.parentProfileId),
        ("fields", stringsValue conflict.fields)])

/-- The evidence of builds of a profile, whoever owns it. -/
def ofBuild (profileId : String) (evidence : EvidenceRecord) : Bool :=
  evidence.kind = "build" &&
    (evidence.properties.get "profile_id").bind Proper.asStr == some profileId

/-- The loop over the conflicts of an entry. -/
def appendAxisConflict (F : FloatText) (entry : ProfileMatrixEntryRecord) (snapshot : GraphSnapshot)
    (conflict : ProfileAxisConflictRecord) : GraphSnapshot :=
  appendOwnedEvidence F
    { snapshot with diagnostics := snapshot.diagnostics ++ [axisDiagnostic entry conflict] }
    (snapshot.evidence.filter (ofBuild conflict.profileId)) conflict.diagnosticId

def appendMatrixDiagnostics (F : FloatText) (snapshot : GraphSnapshot) (matrix : ProfileMatrixRecord) :
    GraphSnapshot :=
  matrix.entries.foldl (fun snapshot entry => entry.axisConflicts.foldl (appendAxisConflict F entry)
    snapshot) ((matrix.correlations.filter fun correlation => correlation.status = "conflict").foldl
      (appendCorrelation F) snapshot)

/-! ### Refreshing the view -/

/-- The order of evidence: by its owner, then by its ordinal. -/
def evidenceKey (evidence : EvidenceRecord) : String ×ₗ String ×ₗ Int :=
  toLex (evidence.ownerType, toLex (evidence.ownerId, evidence.ordinal))

/-- What an earlier view has added to a snapshot is dropped. -/
def GraphSnapshot.retain (snapshot : GraphSnapshot) : GraphSnapshot :=
  let diagnostics := snapshot.diagnostics.filter fun diagnostic => !isProfileMatrixDiagnostic diagnostic
  { snapshot with
    diagnostics := diagnostics
    evidence := snapshot.evidence.filter fun evidence =>
      evidence.ownerType ≠ "diagnostic" || (diagnostics.map (·.id)).contains evidence.ownerId }

/-- The largest `i64`. -/
def largestOrdinal : Int := 9223372036854775807

/-- The ordinal after those of the diagnostics. -/
def nextDiagnosticOrdinal (diagnostics : List DiagnosticRecord) : Int :=
  min ((diagnostics.map (·.ordinal)).max?.getD (-1) + 1) largestOrdinal

/-- Ordinals from a first one on. -/
def numberedFrom (first : Int) (diagnostics : List DiagnosticRecord) : List DiagnosticRecord :=
  diagnostics.mapIdx fun offset diagnostic =>
    { diagnostic with ordinal := min (first + offset) largestOrdinal }

/-- What the view is built from: without the graph, of the profiles alone. -/
def GraphSnapshot.matrixSource (snapshot : GraphSnapshot) (includeGraph : Bool) : MatrixSource where
  profiles := snapshot.profiles
  sites := if includeGraph then snapshot.sites else []
  edges := if includeGraph then snapshot.edges else []
  evidence := if includeGraph then snapshot.evidence else []

def refreshProfileMatrixInner (L : Libraries) (canonicalizeDiagnostics includeGraph : Bool)
    (snapshot : GraphSnapshot) : GraphSnapshot :=
  let retained := snapshot.retain
  let matrix := (retained.matrixSource includeGraph).matrix L
  let appended := appendMatrixDiagnostics L.floatText retained matrix
  let count := retained.diagnostics.length
  { appended with
    profileMatrix := matrix
    diagnostics :=
      if canonicalizeDiagnostics then numberedFrom 0 (sortByKey (·.id) appended.diagnostics)
      else appended.diagnostics.take count ++
        numberedFrom (nextDiagnosticOrdinal retained.diagnostics) (appended.diagnostics.drop count)
    evidence := sortByKey evidenceKey appended.evidence }

def refreshProfileMatrix (L : Libraries) (canonicalizeDiagnostics : Bool) (snapshot : GraphSnapshot) :
    GraphSnapshot :=
  refreshProfileMatrixInner L canonicalizeDiagnostics true snapshot

def refreshProfileMatrixView (L : Libraries) (snapshot : GraphSnapshot) : GraphSnapshot :=
  refreshProfileMatrix L true snapshot

/-- A site has been seen in a build or at run time. -/
def hasObservedSites (snapshot : GraphSnapshot) : Bool :=
  snapshot.evidence.any fun evidence =>
    evidence.ownerType = "site" && ["build", "runtime"].contains evidence.kind

def refreshProfileMatrixForIdentity (L : Libraries) (snapshot : GraphSnapshot) : GraphSnapshot :=
  refreshProfileMatrixInner L false (hasObservedSites snapshot) snapshot

end ProfileMatrix
