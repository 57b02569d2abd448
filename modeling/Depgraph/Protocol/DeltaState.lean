import Depgraph.Protocol.Delta

/-!
# The state a delta must lead to

`delta.rs`: the checks of ids, paths, evidence and coverage records, and `validate_final_state`,
which a base graph and the result of a delta both pass. `GraphValid` says what such a graph
satisfies.
-/

namespace Protocol

open Json Fallible OrderedMap

/-! ### Ids, digests and paths -/

/-- `str::split_once` on characters. -/
def splitOnce (separator : List Char) : List Char → Option (List Char × List Char)
  | [] => none
  | c :: cs =>
    if separator.isPrefixOf (c :: cs) then some ([], (c :: cs).drop separator.length)
    else (splitOnce separator cs).map fun (before, after) => (c :: before, after)

def validateStableId (field id : String) (expectedNamespace : Option String) :
    Except ProtocolError Unit := do
  let (idNamespace, digest) ← required (splitOnce ":sha256:".toList id.toList)
    (.invariant (field ++ " is not a stable SHA-256 ID"))
  ensure (¬ (idNamespace = [] ∨ (∃ expected ∈ expectedNamespace, idNamespace ≠ expected.toList) ∨
      isSha256Hex (String.ofList digest) = false))
    (field ++ " is not a valid stable SHA-256 ID")

def validateDigest (field digest : String) : Except ProtocolError Unit :=
  ensure (isSha256Hex digest = true) (field ++ " must be 64 lowercase hexadecimal characters")

/-- `validate_relative_path` on a Unix system: `Path::components` drops empty components and the
`.` ones after the first. -/
def validateRelativePath (field value : String) : Except ProtocolError Unit := do
  requireNonEmpty field value
  let components := splitAt '/' value
  ensure (¬ (value.toList.head? = some '/' ∨ '\\' ∈ value.toList ∨
      "./".toList <+: value.toList ∨ "//".toList <:+: value.toList ∨
      value.toList.getLast? = some '/' ∨ components.head? = some "." ∨ ".." ∈ components))
    (field ++ " must be a canonical repository-relative path")

/-- `validate_sorted_unique`, for strings. -/
def validateSortedUnique (field : String) (values : List String) : Except ProtocolError Unit :=
  ensure (values.IsChain (· < ·)) (field ++ " must be canonical sorted and unique")

def deltaContractVersion : String := "worker-delta-v1"

def validateContractVersion (version : String) : Except ProtocolError Unit :=
  ensure (version = deltaContractVersion)
    ("unsupported delta contract " ++ debugStr version ++ "; expected " ++
      debugStr deltaContractVersion)

/-- `u64::checked_add`. -/
def checkedAddU64 (a b : Nat) : Option Nat := if a + b < 2 ^ 64 then some (a + b) else none

/-! ### The scope -/

/-- One of the lists of a scope that are not paths. -/
def validateScopeList (field : String) (values : List String) : Except ProtocolError Unit := do
  validateSortedUnique field values
  values.forM (requireNonEmpty field)

def validateScope (scope : DeltaScope) : Except ProtocolError Unit := do
  ensure (¬ (scope.paths = [] ∧ scope.packageLocators = [] ∧ scope.profileIds = [] ∧
      scope.artifactNodeIds = []))
    "delta scope must identify a non-empty graph ownership closure"
  validateSortedUnique "delta scope paths" scope.paths
  scope.paths.forM (validateRelativePath "delta scope path")
  validateScopeList "delta scope package locators" scope.packageLocators
  validateScopeList "delta scope profile IDs" scope.profileIds
  validateScopeList "delta scope artifact node IDs" scope.artifactNodeIds
  validateScopeList "delta scope adapters" scope.adapters
  ensure (scope.adapters.length = 1) "one worker delta must contain exactly one adapter"
  scope.artifactNodeIds.forM fun nodeId =>
    validateStableId "delta scope artifact node ID" nodeId none

/-! ### Evidence -/

def validateEvidenceKey (key : DeltaEvidenceKey) : Except ProtocolError Unit :=
  validateStableId "evidence owner ID" key.ownerId
    (match key.ownerType with
      | .site => some "site"
      | .edge => some "edge"
      | .node => none)

/-- `validate_evidence` of `delta.rs`. -/
def validateEvidenceRecord (evidence : Evidence) : Except ProtocolError Unit := do
  requireNonEmpty "evidence.extractor" evidence.extractor
  requireNonEmpty "evidence.extractor_version" evidence.extractorVersion
  if let some path := evidence.path then validateRelativePath "evidence path" path
  match evidence.path, evidence.startLine, evidence.startColumn, evidence.endLine,
      evidence.endColumn with
  | _, none, none, none, none => .ok ()
  | some _, some startLine, some startColumn, some endLine, some endColumn =>
    ensure (¬ (0 ∈ [startLine, startColumn, endLine, endColumn] ∨
      precedes endLine endColumn startLine startColumn)) "evidence span is invalid"
  | _, _, _, _, _ => invariant "evidence span requires path and all four coordinates"

/-- The owner of an evidence record. -/
def DeltaEvidenceKey.owner (key : DeltaEvidenceKey) : DeltaEvidenceOwner × String :=
  (key.ownerType, key.ownerId)

/-- The loop of `validate_evidence_ordinals`, with the next ordinal of every owner. -/
def validateOrdinalsFrom (expected : DeltaEvidenceOwner × String → Nat) :
    List DeltaEvidenceKey → Except ProtocolError Unit
  | [] => .ok ()
  | key :: rest => do
    let next := expected key.owner
    ensure (key.ordinal = next)
      ("evidence owner " ++ key.ownerType.asStr ++ ":" ++ key.ownerId ++
        s!" has non-contiguous ordinal {key.ordinal}; expected {next}")
    validateOrdinalsFrom (Function.update expected key.owner (next + 1)) rest

def validateEvidenceOrdinals (evidence : EvidenceMap) : Except ProtocolError Unit :=
  validateOrdinalsFrom (fun _ => 0) evidence.keys

def evidenceForOwner (evidence : EvidenceMap) (ownerType : DeltaEvidenceOwner)
    (ownerId : String) : List Evidence :=
  (evidence.toList.filter fun entry =>
    entry.1.ownerType == ownerType && entry.1.ownerId == ownerId).map Prod.snd

/-! ### Coverage records -/

def validateCoverage (coverage : Coverage) : Except ProtocolError Unit := do
  let classified ← required
    (((checkedAddU64 coverage.resolved coverage.candidates).bind
      (checkedAddU64 · coverage.external)).bind (checkedAddU64 · coverage.unresolved))
    (.invariant "coverage status counters overflowed")
  ensure (classified = coverage.dependencySites)
    s!"coverage dependency_sites={coverage.dependencySites} but classified statuses total {classified}"
  let accountedFiles ← required (checkedAddU64 coverage.filesAnalyzed coverage.filesSkipped)
    (.invariant "coverage file counters overflowed")
  ensure (accountedFiles = coverage.filesDiscovered)
    s!"coverage files_discovered={coverage.filesDiscovered} but analyzed+skipped={accountedFiles}"
  ensure ((coverage.completeness.map CompletenessLevel.rank).IsChain (· < ·))
    "delta coverage completeness must be canonical sorted and unique"
  ensure (coverage.reasons.IsChain (· < ·))
    "delta coverage reasons must be canonical sorted and unique"

def validateCoverageKey : DeltaCoverageKey → Except ProtocolError Unit
  | .aggregate => .ok ()
  | .profile profileId => requireNonEmpty "coverage profile ID" profileId
  | .file adapter path => do
    requireNonEmpty "file coverage adapter" adapter
    validateRelativePath "file coverage path" path

/-- The part of `validate_delta_coverage` that is about a file. -/
def validateFileCoverage (path : String) (value : DeltaFileCoverage) :
    Except ProtocolError Unit := do
  let accounted ← required (checkedAddU64 value.emittedSites value.skippedSites)
    (.invariant "file coverage site ledger overflowed")
  ensure (accounted = value.discoveredSites)
    ("file coverage " ++ path ++ s!" discovered {value.discoveredSites} sites but emitted " ++
      s!"{value.emittedSites} and skipped {value.skippedSites}")
  ensure (¬ (0 < value.skippedSites ∧ value.skipped = false))
    ("file coverage " ++ path ++ " reports skipped sites but skipped=false")
  ensure (¬ (value.skipped = true ∧ value.reason.all (· == "") = true))
    ("skipped file coverage " ++ path ++ " must include a non-empty reason")

def validateDeltaCoverage : DeltaCoverage → Except ProtocolError Unit
  | .aggregate value => validateCoverage value
  | .profile profileId value => do
    requireNonEmpty "coverage profile ID" profileId
    validateCoverage value
  | .file adapter path value => do
    requireNonEmpty "file coverage adapter" adapter
    validateRelativePath "file coverage path" path
    validateFileCoverage path value

/-! ### The coverage hierarchy -/

/-- Five counters as the `Debug` text of a tuple. -/
def debugCounts (counts : List Nat) : String :=
  "(" ++ ", ".intercalate (counts.map toString) ++ ")"

/-- The sites and how many there are of every status. -/
def siteCounts (sites : List DependencySite) : List Nat :=
  sites.length :: [.resolved, .candidates, .external, .unresolved].map fun status =>
    sites.countP fun site => site.resolutionStatus == status

/-- The counters of a coverage record that count sites. -/
def Coverage.siteCounts (coverage : Coverage) : List Nat :=
  [coverage.dependencySites, coverage.resolved, coverage.candidates, coverage.external,
    coverage.unresolved]

/-- `validate_delta_site_counts`. The total overflows before any other counter does. -/
def validateDeltaSiteCounts (scope : String) (coverage : Coverage) (sites : List DependencySite) :
    Except ProtocolError Unit := do
  ensure (sites.length < 2 ^ 64) "delta site count overflowed"
  ensure (siteCounts sites = coverage.siteCounts)
    (scope ++ " coverage site counts " ++ debugCounts coverage.siteCounts ++
      " do not match emitted counts " ++ debugCounts (siteCounts sites))

/-- The members of a list of levels in the order of the levels: `BTreeSet::from_iter`. -/
def levelSet (levels : List CompletenessLevel) : List CompletenessLevel :=
  [.syntaxComplete, .semanticComplete, .buildObserved, .runtimeObserved].filter levels.contains

def debugLevels (levels : List CompletenessLevel) : String :=
  "\x7b" ++ ", ".intercalate (levels.map CompletenessLevel.debug) ++ "\x7d"

/-- The levels that all profiles reach. -/
def commonLevels (first : Coverage) (rest : List Coverage) : List CompletenessLevel :=
  rest.foldl (fun expected profile => expected.filter profile.completeness.contains)
    (levelSet first.completeness)

/-- `iter().max().unwrap_or_default()`. -/
def maximum (values : List Nat) : Nat := values.foldl max 0

/-- The reasons that a scan must not hide. -/
def blockingReasons : List String := ["rust-hir-backend-failure"]

def validateDeltaAggregateProfileCoverage (aggregate : Coverage) :
    List Coverage → Except ProtocolError Unit
  | [] => .ok ()
  | first :: rest => do
    let profiles := first :: rest
    let expectedCompleteness := commonLevels first rest
    let aggregateCompleteness := levelSet aggregate.completeness
    ensure (aggregateCompleteness = expectedCompleteness)
      ("delta scan completeness " ++ debugLevels aggregateCompleteness ++
        " does not equal the profile intersection " ++ debugLevels expectedCompleteness)
    [("files_discovered", Coverage.filesDiscovered), ("files_analyzed", Coverage.filesAnalyzed),
      ("files_skipped", Coverage.filesSkipped),
      ("unsupported_syntax", Coverage.unsupportedSyntax)].forM fun (field, counter) =>
        ensure (maximum (profiles.map counter) ≤ counter aggregate)
          ("delta scan coverage " ++ field ++ s!"={counter aggregate}, below the profile " ++
            s!"maximum {maximum (profiles.map counter)}")
    ensure (¬ (profiles.any Coverage.projectCodeExecuted = true ∧
        aggregate.projectCodeExecuted = false))
      "delta scan coverage hides project code execution reported by a profile"
    blockingReasons.forM fun blockingReason =>
      ensure (¬ (profiles.any (·.reasons.contains blockingReason) = true ∧
          aggregate.reasons.contains blockingReason = false))
        ("delta scan coverage omits blocking profile reason " ++ blockingReason)

/-- The coverage of a profile. -/
def profileCoverage (coverage : CoverageMap) (profileId : String) : Option Coverage :=
  match coverage[DeltaCoverageKey.profile profileId]? with
  | some (.profile _ value) => some value
  | _ => none

/-- The aggregate coverage. -/
def aggregateCoverage (coverage : CoverageMap) : Option Coverage :=
  match coverage[DeltaCoverageKey.aggregate]? with
  | some (.aggregate value) => some value
  | _ => none

/-- The file coverage records. -/
def fileCoverage (coverage : CoverageMap) : List DeltaFileCoverage :=
  (values coverage).filterMap fun
    | .file _ _ value => some value
    | _ => none

/-- The check of one profile. -/
def validateProfileCoverage (sites : SiteMap) (coverage : CoverageMap) (profileId : String) :
    Except ProtocolError Unit := do
  let value ← required (profileCoverage coverage profileId)
    (.invariant ("delta result has no coverage for profile " ++ profileId))
  ensure (value.profiles = 1)
    ("delta profile " ++ profileId ++ s!" coverage must report profiles=1, found {value.profiles}")
  validateDeltaSiteCounts ("delta profile " ++ profileId) value
    ((values sites).filter fun site => site.profileId == profileId)

/-- The running total of emitted sites. -/
def addEmittedSites (total : Nat) (file : DeltaFileCoverage) : Except ProtocolError Nat :=
  required (checkedAddU64 total file.emittedSites)
    (.invariant "delta file coverage emitted-site total overflowed")

def validateCoverageHierarchy (profiles : IdSet) (sites : SiteMap) (coverage : CoverageMap) :
    Except ProtocolError Unit := do
  let aggregate ← required (aggregateCoverage coverage)
    (.invariant "delta result has no aggregate coverage")
  ensure (aggregate.profiles = profiles.size)
    s!"delta scan coverage profiles={aggregate.profiles} but {profiles.size} profiles are declared"
  validateDeltaSiteCounts "delta scan" aggregate (values sites)
  profiles.toList.forM (validateProfileCoverage sites coverage)
  validateDeltaAggregateProfileCoverage aggregate
    (profiles.toList.filterMap (profileCoverage coverage))
  let files := fileCoverage coverage
  let filesSkipped := files.countP DeltaFileCoverage.skipped
  let emittedSites ← files.foldlM addEmittedSites 0
  ensure (aggregate.filesDiscovered = files.length)
    s!"delta scan coverage files_discovered={aggregate.filesDiscovered} but {files.length} file coverage records exist"
  ensure (aggregate.filesSkipped = filesSkipped)
    s!"delta scan coverage files_skipped={aggregate.filesSkipped} but {filesSkipped} file coverage records are skipped"
  ensure (emittedSites ≤ aggregate.dependencySites)
    s!"delta file coverage emitted_sites total {emittedSites} exceeds scan coverage's {aggregate.dependencySites} dependency sites"

/-! ### The final state -/

/-- Whether the owner of an evidence record exists. -/
def DeltaGraph.ownerExists (graph : DeltaGraph) (key : DeltaEvidenceKey) : Prop :=
  match key.ownerType with
  | .node => key.ownerId ∈ graph.nodes
  | .site => key.ownerId ∈ graph.sites
  | .edge => key.ownerId ∈ graph.edges

instance (graph : DeltaGraph) (key : DeltaEvidenceKey) : Decidable (graph.ownerExists key) := by
  unfold DeltaGraph.ownerExists
  cases key.ownerType <;> infer_instance

/-- A site with the evidence it owns. -/
def hydratedSite (evidence : EvidenceMap) (site : DependencySite) : DependencySite :=
  { site with evidence := evidenceForOwner evidence .site site.id }

/-- An edge with the evidence it owns. -/
def hydratedEdge (evidence : EvidenceMap) (edge : GraphEdge) : GraphEdge :=
  { edge with evidence := evidenceForOwner evidence .edge edge.id }

/-- The checks of one coverage record. -/
def validateCoverageEntry (profiles : IdSet) (entry : DeltaCoverageKey × DeltaCoverage) :
    Except ProtocolError Unit := do
  validateCoverageKey entry.1
  validateDeltaCoverage entry.2
  ensure (entry.2.key = entry.1)
    ("coverage map key " ++ coverageKeyString entry.1 ++ " does not match its payload")
  match entry.1 with
  | .profile profileId =>
    ensure (profileId ∈ profiles) ("coverage references undeclared profile " ++ profileId)
  | _ => .ok ()

section

variable (S : StableIds)

def validateFinalState (graph : DeltaGraph) : Except ProtocolError Unit := do
  graph.evidence.keys.forM fun key => do
    validateEvidenceKey key
    ensure (graph.ownerExists key)
      ("evidence " ++ evidenceKeyString key ++ " references a missing owner")
  validateEvidenceOrdinals graph.evidence
  (values graph.sites).forM fun site =>
    ensure (site.profileId ∈ graph.profiles)
      ("site " ++ site.id ++ " references undeclared profile " ++ site.profileId)
  (values graph.edges).forM fun edge =>
    ensure (edge.profileId ∈ graph.profiles)
      ("edge " ++ edge.id ++ " references undeclared profile " ++ edge.profileId)
  validateSiteEdgeInvariants S (values graph.nodes)
    ((values graph.edges).map (hydratedEdge graph.evidence))
    ((values graph.sites).map (hydratedSite graph.evidence))
  ensure (DeltaCoverageKey.aggregate ∈ graph.coverage) "delta result has no aggregate coverage"
  graph.profiles.toList.forM fun profileId =>
    ensure (DeltaCoverageKey.profile profileId ∈ graph.coverage)
      ("delta result has no coverage for profile " ++ profileId)
  graph.coverage.toList.forM (validateCoverageEntry graph.profiles)
  validateCoverageHierarchy graph.profiles graph.sites graph.coverage

/-! ### What an accepted graph satisfies -/

variable {S}

/-- The keys of the maps are the ids of their payloads. -/
structure KeysMatch (graph : DeltaGraph) : Prop where
  node : KeyedBy GraphNode.id graph.nodes
  site : KeyedBy DependencySite.id graph.sites
  edge : KeyedBy GraphEdge.id graph.edges

/-- The ordinals of every owner's evidence are the numbers below a bound. -/
def OrdinalsContiguous (evidence : EvidenceMap) : Prop :=
  ∀ (ownerType : DeltaEvidenceOwner) (ownerId : String), ∃ count : Nat,
    ∀ ordinal : Nat, DeltaEvidenceKey.mk ownerType ownerId ordinal ∈ evidence ↔ ordinal < count

/-- The counters of a coverage record are those of a list of sites. -/
def CountsSites (coverage : Coverage) (sites : List DependencySite) : Prop :=
  coverage.dependencySites = sites.length ∧
    coverage.resolved = sites.countP (·.resolutionStatus == .resolved) ∧
    coverage.candidates = sites.countP (·.resolutionStatus == .candidates) ∧
    coverage.external = sites.countP (·.resolutionStatus == .external) ∧
    coverage.unresolved = sites.countP (·.resolutionStatus == .unresolved)

/-- The coverage of the scan and of every profile counts the sites, and that of the scan the
profiles and the file records. -/
structure HierarchyRecounts (graph : DeltaGraph) (aggregate : Coverage) : Prop where
  found : graph.coverage[DeltaCoverageKey.aggregate]? = some (.aggregate aggregate)
  profiles_eq : aggregate.profiles = graph.profiles.size
  sites_eq : CountsSites aggregate (values graph.sites)
  profile : ∀ profileId ∈ graph.profiles, ∃ value : Coverage,
    graph.coverage[DeltaCoverageKey.profile profileId]? = some (.profile profileId value) ∧
      value.profiles = 1 ∧
      CountsSites value ((values graph.sites).filter fun site => site.profileId == profileId)
  files_eq : aggregate.filesDiscovered = (fileCoverage graph.coverage).length
  skipped_eq : aggregate.filesSkipped =
    (fileCoverage graph.coverage).countP DeltaFileCoverage.skipped
  emitted_le : ((fileCoverage graph.coverage).map DeltaFileCoverage.emittedSites).sum ≤
    aggregate.dependencySites

/-- The invariants of a base graph and of a delta's result. -/
structure GraphValid (graph : DeltaGraph) : Prop where
  links : SiteEdgesValid graph.nodes graph.edges graph.sites
  site_profile : ∀ (id : String) (site : DependencySite), graph.sites[id]? = some site →
    site.profileId ∈ graph.profiles
  edge_profile : ∀ (id : String) (edge : GraphEdge), graph.edges[id]? = some edge →
    edge.profileId ∈ graph.profiles
  owner : ∀ key ∈ graph.evidence, graph.ownerExists key
  ordinals : OrdinalsContiguous graph.evidence
  coverage_key : KeyedBy DeltaCoverage.key graph.coverage
  coverage_profile : ∀ profileId, DeltaCoverageKey.profile profileId ∈ graph.coverage ↔
    profileId ∈ graph.profiles
  hierarchy : ∃ aggregate, HierarchyRecounts graph aggregate

/-- The loop over the keys leaves every owner with the ordinals from the expected one on. -/
theorem validateOrdinalsFrom_ok {expected : DeltaEvidenceOwner × String → Nat}
    {keys : List DeltaEvidenceKey} (h : validateOrdinalsFrom expected keys = .ok ()) :
    ∃ final : DeltaEvidenceOwner × String → Nat, (∀ owner, expected owner ≤ final owner) ∧
      ∀ key : DeltaEvidenceKey, key ∈ keys ↔
        expected key.owner ≤ key.ordinal ∧ key.ordinal < final key.owner := by
  induction keys generalizing expected with
  | nil =>
    refine ⟨expected, fun _ => le_rfl, fun key => ?_⟩
    simp only [List.not_mem_nil, false_iff, not_and, not_lt]
    exact id
  | cons first rest ih =>
    simp only [validateOrdinalsFrom, bind_eq_ok, ensure_eq_ok, exists_const] at h
    obtain ⟨hordinal, hrest⟩ := h
    obtain ⟨final, hle, hfinal⟩ := ih hrest
    have hnext : expected first.owner + 1 ≤ final first.owner := by
      simpa using hle first.owner
    refine ⟨final, fun owner => ?_, fun key => ?_⟩
    · have := hle owner
      by_cases howner : owner = first.owner
      · subst howner
        omega
      · rwa [Function.update_of_ne howner] at this
    · rw [List.mem_cons, hfinal]
      by_cases howner : key.owner = first.owner
      · rw [howner, Function.update_self]
        have hkey : key = first ↔ key.ordinal = first.ordinal := by
          refine ⟨congrArg DeltaEvidenceKey.ordinal, fun hordinal' => ?_⟩
          cases key
          cases first
          simp_all [DeltaEvidenceKey.owner]
        rw [hkey]
        omega
      · rw [Function.update_of_ne howner, or_iff_right]
        rintro rfl
        exact howner rfl

theorem validateEvidenceOrdinals_ok {evidence : EvidenceMap}
    (h : validateEvidenceOrdinals evidence = .ok ()) : OrdinalsContiguous evidence := by
  obtain ⟨final, -, hfinal⟩ := validateOrdinalsFrom_ok h
  intro ownerType ownerId
  refine ⟨final (ownerType, ownerId), fun ordinal => ?_⟩
  rw [← Std.ExtTreeMap.mem_keys, hfinal]
  simp [DeltaEvidenceKey.owner]

theorem validateDeltaSiteCounts_ok {scope : String} {coverage : Coverage}
    {sites : List DependencySite} (h : validateDeltaSiteCounts scope coverage sites = .ok ()) :
    CountsSites coverage sites := by
  simp only [validateDeltaSiteCounts, bind_eq_ok, ensure_eq_ok, exists_const, siteCounts,
    Coverage.siteCounts, List.map_cons, List.map_nil, List.cons.injEq, and_true] at h
  obtain ⟨-, htotal, hresolved, hcandidates, hexternal, hunresolved⟩ := h
  exact ⟨htotal.symm, hresolved.symm, hcandidates.symm, hexternal.symm, hunresolved.symm⟩

theorem addEmittedSites_ok {files : List DeltaFileCoverage} {total : Nat}
    (h : files.foldlM addEmittedSites 0 = .ok total) :
    total = (files.map DeltaFileCoverage.emittedSites).sum := by
  refine foldlM_induction (motive := fun done total =>
    total = (done.map DeltaFileCoverage.emittedSites).sum) h rfl ?_
  rintro done file total total' rfl hstep
  simp only [addEmittedSites, required_eq_ok, checkedAddU64, Option.ite_none_right_eq_some,
    Option.some.injEq] at hstep
  rw [← hstep.2, List.map_append, List.sum_append, List.map_singleton, List.sum_singleton]

theorem profileCoverage_eq_some {coverage : CoverageMap} {profileId : String} {value : Coverage}
    (hkey : KeyedBy DeltaCoverage.key coverage)
    (h : profileCoverage coverage profileId = some value) :
    coverage[DeltaCoverageKey.profile profileId]? = some (.profile profileId value) := by
  unfold profileCoverage at h
  split at h
  · rename_i name found hfound
    obtain rfl := Option.some.inj h
    have hname := hkey _ _ hfound
    rw [DeltaCoverage.key, DeltaCoverageKey.profile.injEq] at hname
    rw [hfound, hname]
  · cases h

theorem aggregateCoverage_eq_some {coverage : CoverageMap} {value : Coverage}
    (h : aggregateCoverage coverage = some value) :
    coverage[DeltaCoverageKey.aggregate]? = some (.aggregate value) := by
  unfold aggregateCoverage at h
  split at h
  · rename_i found hfound
    obtain rfl := Option.some.inj h
    exact hfound
  · cases h

theorem validateCoverageHierarchy_ok {graph : DeltaGraph}
    (hkey : KeyedBy DeltaCoverage.key graph.coverage)
    (h : validateCoverageHierarchy graph.profiles graph.sites graph.coverage = .ok ()) :
    ∃ aggregate, HierarchyRecounts graph aggregate := by
  simp only [validateCoverageHierarchy, bind_eq_ok, required_eq_ok, ensure_eq_ok, exists_const,
    forM_eq_ok] at h
  obtain ⟨aggregate, hfound, hprofiles, _, hsites, hprofile, _, -, total, htotal, hfiles, hskipped,
    hemitted⟩ := h
  refine ⟨aggregate, aggregateCoverage_eq_some hfound, hprofiles,
    validateDeltaSiteCounts_ok hsites, fun profileId hmem => ?_, hfiles, hskipped,
    addEmittedSites_ok htotal ▸ hemitted⟩
  have hchecked := hprofile profileId (Std.ExtTreeSet.mem_toList.2 hmem)
  simp only [validateProfileCoverage, bind_eq_ok, required_eq_ok, ensure_eq_ok,
    exists_const] at hchecked
  obtain ⟨value, hvalue, hone, hcounts⟩ := hchecked
  exact ⟨value, profileCoverage_eq_some hkey hvalue, hone, validateDeltaSiteCounts_ok hcounts⟩

/-- Hydration changes neither the ids nor the links of the maps. -/
theorem SiteEdgesValid.of_hydrated {nodes : NodeMap} {edges : EdgeMap} {sites : SiteMap}
    {evidence : EvidenceMap} (h : SiteEdgesValid nodes
      (edges.map fun _ edge => hydratedEdge evidence edge)
      (sites.map fun _ site => hydratedSite evidence site)) : SiteEdgesValid nodes edges sites := by
  have hedge : ∀ (id : String) (edge : GraphEdge), edges[id]? = some edge →
      (edges.map fun _ edge => hydratedEdge evidence edge)[id]? =
        some (hydratedEdge evidence edge) := fun id edge heq => by
    rw [Std.ExtTreeMap.getElem?_map, heq, Option.map_some]
  have hsite : ∀ (id : String) (site : DependencySite), sites[id]? = some site →
      (sites.map fun _ site => hydratedSite evidence site)[id]? =
        some (hydratedSite evidence site) := fun id site heq => by
    rw [Std.ExtTreeMap.getElem?_map, heq, Option.map_some]
  have hlinked : ∀ siteId, edgesOfSite (edges.map fun _ edge => hydratedEdge evidence edge) siteId =
      (edgesOfSite edges siteId).map (hydratedEdge evidence) := fun siteId => by
    rw [edgesOfSite, values_map, List.filter_map]
    rfl
  exact {
    edge_source := fun id edge heq => h.edge_source id (hydratedEdge evidence edge) (hedge id edge heq)
    edge_target := fun id edge heq => h.edge_target id (hydratedEdge evidence edge) (hedge id edge heq)
    edge_site := fun id edge heq siteId hsiteId => by
      have hmem := h.edge_site id _ (hedge id edge heq) siteId hsiteId
      exact Std.ExtTreeMap.mem_map.1 hmem
    site_source := fun id site heq => h.site_source id (hydratedSite evidence site) (hsite id site heq)
    site_target := fun id site heq => h.site_target id (hydratedSite evidence site) (hsite id site heq)
    site_targets := fun id site heq => by
      have hperm := h.site_targets id _ (hsite id site heq)
      rw [hlinked, List.map_map] at hperm
      exact hperm
    linked := fun id site heq edge hmem => by
      refine h.linked id _ (hsite id site heq) (hydratedEdge evidence edge) ?_
      rw [hlinked]
      exact List.mem_map_of_mem hmem }

/-- **A graph that `validate_final_state` accepts satisfies the invariants.** -/
theorem validateFinalState_ok {graph : DeltaGraph} (hkeys : KeysMatch graph)
    (h : validateFinalState S graph = .ok ()) : GraphValid graph := by
  simp only [validateFinalState, bind_eq_ok, ensure_eq_ok, forM_eq_ok, exists_const,
    validateSiteEdgeInvariants] at h
  obtain ⟨howner, _, hordinals, hsites, hedges, _, hlinks, -, hprofiles, hentries, hhierarchy⟩ := h
  have hentry : ∀ (key : DeltaCoverageKey) (coverage : DeltaCoverage),
      graph.coverage[key]? = some coverage → coverage.key = key ∧
        ∀ profileId, key = .profile profileId → profileId ∈ graph.profiles := by
    intro key coverage heq
    have hchecked := hentries (key, coverage) (mem_toList.2 heq)
    simp only [validateCoverageEntry, bind_eq_ok, ensure_eq_ok, exists_const] at hchecked
    obtain ⟨_, -, _, -, hkey, hprofile⟩ := hchecked
    refine ⟨hkey, ?_⟩
    rintro profileId rfl
    exact ensure_eq_ok.1 hprofile
  have hcoverageKey : KeyedBy DeltaCoverage.key graph.coverage :=
    fun key coverage heq => (hentry key coverage heq).1
  rw [indexed_values hkeys.node,
    indexed_map_values (hydratedEdge graph.evidence) (fun _ => rfl) hkeys.edge,
    indexed_map_values (hydratedSite graph.evidence) (fun _ => rfl) hkeys.site] at hlinks
  exact {
    links := (validateSiteEdgeMaps_ok hlinks).of_hydrated
    site_profile := fun id site heq => hsites site (mem_values.2 ⟨id, heq⟩)
    edge_profile := fun id edge heq => hedges edge (mem_values.2 ⟨id, heq⟩)
    owner := fun key hmem => by
      obtain ⟨_, -, hexists⟩ := howner key (Std.ExtTreeMap.mem_keys.2 hmem)
      exact hexists
    ordinals := validateEvidenceOrdinals_ok hordinals
    coverage_key := hcoverageKey
    coverage_profile := fun profileId => by
      refine ⟨fun hmem => ?_, fun hmem => hprofiles profileId (Std.ExtTreeSet.mem_toList.2 hmem)⟩
      obtain ⟨coverage, heq⟩ := mem_iff.1 hmem
      exact (hentry _ coverage heq).2 profileId rfl
    hierarchy := validateCoverageHierarchy_ok hcoverageKey hhierarchy }

end

end Protocol
