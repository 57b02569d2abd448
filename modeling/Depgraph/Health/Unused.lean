import Depgraph.Health.GoConditions
import Depgraph.Health.Surface
import Mathlib.Order.WithBot

/-!
# Unused files, exports and types

`analyze_unused`: the findings of the subjects of a graph. What does not depend on the subjects that
are analysed is in `GlobalIndex`, and what leads to them in `LocalIndex`. Both can be built from the
whole snapshot and from what has been loaded for a part of it. The budget of steps is left out: it
decides whether an analysis ends, not what it finds.
-/

namespace Health

open Json Protocol Store SortDedup OrderedMap Std

/-! ### What is read of a snapshot -/

/-- `FileCoverageRecord`, as far as it is read. -/
structure FileCoverageRecord where
  path : String
  skipped : Bool
  reason : Option String

/-- `ProfileMatrixEntryRecord`, as far as it is read. -/
structure ProfileMatrixEntryRecord where
  id : String
  language : String
  profileIds : List String

/-- `GraphSnapshot`, as far as the analysis reads it. -/
structure GraphSnapshot extends Store.GraphSnapshot where
  scanStatus : String
  fileCoverage : List FileCoverageRecord
  matrixEntries : List ProfileMatrixEntryRecord
  analysisDependencyCoverage : Option (ExtTreeMap String Bool)

/-- The kinds of the nodes that are subjects. -/
def isSubject (node : NodeRecord) : Bool := ["file", "symbol", "type"].contains node.kind

def languageOf (node : NodeRecord) : Option String := stringProperty node "language"

def isGoModule (node : NodeRecord) : Bool := node.kind == "module" && languageOf node == some "go"

def healthLanguageFamily (language : String) : String :=
  if ["typescript", "javascript", "ts", "tsx", "js", "jsx", "astro", "web"].contains language then "web"
  else language

/-- The languages in order, each once. A missing language comes first. -/
def distinctLanguages (languages : List (Option String)) : List (Option String) :=
  (if none ∈ languages then [none] else []) ++ (exact id (languages.filterMap id)).map some

structure GlobalSource where
  scanStatus : String
  coverageReasons : List String
  analysisDependencyCoverage : Option (ExtTreeMap String Bool)
  profiles : List ProfileRecord
  matrixEntries : List ProfileMatrixEntryRecord
  subjectLanguages : List (Option String)
  goModuleNodes : List NodeRecord
  edges : List EdgeRecord
  sites : List SiteRecord
  targetlessCandidate : Bool
  targetlessUnresolved : Bool
  targetlessDynamic : Bool
  coverageOmittedPaths : List String

/-- The evidence of a dynamic import. -/
def isDynamicEvidence (evidence : EvidenceRecord) : Bool :=
  evidence.ownerType == "site" &&
    (evidence.properties.get "occurrence_kind").bind Proper.asStr == some "dynamic_import"

/-- The kinds of the sites that load dynamically. -/
def isDynamicKind (site : SiteRecord) : Bool := ["dynamic_import", "dynamic-load"].contains site.kind

/-- The sites with evidence of a dynamic import. -/
def dynamicSiteIds (snapshot : GraphSnapshot) : List String :=
  (snapshot.evidence.filter isDynamicEvidence).map (·.ownerId)

/-- The coverage of a file was omitted. -/
def isOmitted (record : FileCoverageRecord) : Bool :=
  record.skipped || record.reason == some "unsupported_syntax"

def GlobalSource.fromSnapshot (snapshot : GraphSnapshot) : GlobalSource :=
  let targetless := snapshot.sites.filter fun site => site.targetIds.isEmpty
  { scanStatus := snapshot.scanStatus
    coverageReasons := snapshot.coverage.reasons
    analysisDependencyCoverage := snapshot.analysisDependencyCoverage
    profiles := snapshot.profiles
    matrixEntries := snapshot.matrixEntries
    subjectLanguages := distinctLanguages ((snapshot.nodes.filter isSubject).map languageOf)
    goModuleNodes := snapshot.nodes.filter isGoModule
    edges := snapshot.edges
    sites := snapshot.sites
    targetlessCandidate := targetless.any fun site => site.resolutionStatus == "candidates"
    targetlessUnresolved := targetless.any fun site => site.resolutionStatus == "unresolved"
    targetlessDynamic := targetless.any fun site =>
      isDynamicKind site || (dynamicSiteIds snapshot).contains site.id
    coverageOmittedPaths := (snapshot.fileCoverage.filter isOmitted).map (·.path) }

/-! ### The profile matrix -/

def declaredParentProfileId (profile : ProfileRecord) : Option String :=
  ((profile.properties.get "parent_profile_id").bind Proper.asStr).filter (· ≠ "")

def validEffectiveInputId (value : String) : Bool :=
  startsWith value "effective-input:sha256:" &&
    isSha256Hex (String.ofList (value.toList.drop "effective-input:sha256:".length))

def declaredEffectiveInputId (profile : ProfileRecord) : Option String :=
  ((profile.properties.get "effective_input_id").bind Proper.asStr).filter validEffectiveInputId

def canonicalEffectiveInputId (S : StableIds) (profile : ProfileRecord) : String :=
  let own := S.stableIdFromValue "effective-input" (.object
    [("schema_version", .string "profile-matrix-v1"), ("root_profile_id", .string profile.id)])
  if (declaredParentProfileId profile).isSome then (declaredEffectiveInputId profile).getD own
  else own

/-- The effective input of a profile is that of its declared parent. -/
def effectiveInputId (S : StableIds) (profiles : List ProfileRecord) (profile : ProfileRecord) :
    String :=
  canonicalEffectiveInputId S
    (((declaredParentProfileId profile).bind (profileById profiles)).getD profile)

def effectiveProfileId (S : StableIds) (effectiveInputId : String) : String :=
  S.stableIdFromValue "effective-profile" (.object
    [("schema_version", .string "profile-matrix-v1"),
      ("effective_input_id", .string effectiveInputId)])

def canonicalLanguage (language : String) : String :=
  if ["typescript", "javascript", "web"].contains language then "web" else language

/-- The entries of `build_profile_matrix`. Sites and edges add only to the phases, the conditions and
the coverage of an entry, which the analysis does not read. -/
def profileMatrixEntries (S : StableIds) (profiles : List ProfileRecord) :
    List ProfileMatrixEntryRecord :=
  let effective (profile : ProfileRecord) : String :=
    effectiveInputId S profiles ((profileById profiles profile.id).getD profile)
  sortByKey (·.id) ((groupBy (fun profile => some (effective profile)) profiles).toList.map
    fun entry => {
      id := effectiveProfileId S entry.1
      language := (entry.2.head?.map fun profile => canonicalLanguage profile.language).getD ""
      profileIds := exact id (entry.2.map (·.id)) })

/-! ### The coverage of the analysis -/

inductive AnalysisCoverageScope
  | complete
  | incomplete
  | unknownDependencies (unknown : ExtTreeMap String Bool)

/-- An analysis unit failed. -/
def isUnitFailure (reason : String) : Bool :=
  (startsWith reason "analysis-unit-" && reason != "analysis-unit-unknown-dependency") ||
    reason == "analysis-input-changed-during-scan"

def AnalysisCoverageScope.fromSource (source : GlobalSource) : AnalysisCoverageScope :=
  let reported : AnalysisCoverageScope :=
    if source.coverageReasons.contains "analysis-unit-unknown-dependency" then .incomplete
    else .complete
  if source.scanStatus ≠ "completed" ∨ source.coverageReasons.any isUnitFailure = true then .incomplete
  else
    match source.analysisDependencyCoverage with
    | some unknown =>
      if (values unknown).any id && unknown.keys.all fun adapter =>
          ["go", "rust", "web"].contains adapter then .unknownDependencies unknown
      else reported
    | none => reported

def AnalysisCoverageScope.blocks (node : NodeRecord) : AnalysisCoverageScope → Bool
  | .complete => false
  | .incomplete => true
  | .unknownDependencies unknown =>
    ((languageOf node).bind fun language => unknown[healthLanguageFamily language]?).getD true

/-! ### Profiles -/

inductive CompletenessKind
  | semantic
  | syntaxKind
deriving DecidableEq

/-- `profile_is_semantically_complete` and `profile_has_syntax_coverage`. -/
def profileCompleteness (kind : CompletenessKind) (profile : ProfileRecord) : Bool :=
  profile.coverage.any fun coverage => coverage.completeness.any fun level =>
    level == "semantic-complete" || endsWith level "+semantic-complete" ||
      (decide (kind = .syntaxKind) && (level == "syntax-complete" || endsWith level "+syntax-complete"))

def directProfileCompleteness (profiles : List ProfileRecord) (profileId : String)
    (kind : CompletenessKind) : Bool :=
  (profileById profiles profileId).any (profileCompleteness kind)

/-- `go_profile_completeness`: that of the group, if the profile represents one. -/
def goProfileCompleteness (profiles : List ProfileRecord) (groups : List (List String))
    (profileId : String) (kind : CompletenessKind) : Bool :=
  match membersOf groups profileId with
  | some members => members.all fun member => directProfileCompleteness profiles member kind
  | none => directProfileCompleteness profiles profileId kind

structure ApplicableProfileSet where
  ids : List String
  missingIds : List String
  semantic : Bool
  syntaxCoverage : Bool

def ApplicableProfileSet.satisfies (profiles : ApplicableProfileSet) :
    CompletenessKind → Bool
  | .semantic => profiles.semantic
  | .syntaxKind => profiles.syntaxCoverage

def buildApplicableProfileSet (profiles : List ProfileRecord) (groups : List (List String))
    (useGoConditionGroups : Bool) (profileIds : List String) : ApplicableProfileSet :=
  let ids := exact id profileIds
  let isComplete (kind : CompletenessKind) (profileId : String) : Bool :=
    if useGoConditionGroups then goProfileCompleteness profiles groups profileId kind
    else directProfileCompleteness profiles profileId kind
  { ids
    missingIds := ids.filter fun profileId => (profileById profiles profileId).isNone
    semantic := ids.all (isComplete .semantic)
    syntaxCoverage := ids.all (isComplete .syntaxKind) }

/-! ### Go packages -/

structure GoPackageIdentity where
  packagePath : String
  modulePath : Option String
  manifestPath : Option String
deriving DecidableEq

/-- The order of packages. A missing path comes first. -/
def GoPackageIdentity.key (identity : GoPackageIdentity) :
    String ×ₗ WithBot String ×ₗ WithBot String :=
  toLex (identity.packagePath, toLex (identity.modulePath, identity.manifestPath))

def goPackageIdentity (node : NodeRecord) : Option GoPackageIdentity :=
  (stringProperty node "package_path").map fun packagePath =>
    { packagePath
      modulePath := (stringProperty node "module_path").filter (· ≠ "")
      manifestPath := (stringProperty node "manifest_path").filter (· ≠ "") }

def goPackageScopeMatches (file package : GoPackageIdentity) : Bool :=
  file.packagePath == package.packagePath &&
    (file.modulePath.all fun modulePath => package.modulePath == some modulePath) &&
    (file.manifestPath.all fun manifestPath => package.manifestPath == some manifestPath)

def isUsageEdge (edge : EdgeRecord) (subjectId : String) : Bool :=
  edge.source != subjectId &&
    !(["contains", "declares"].contains edge.kind) &&
    !(["depends_on", "build_depends_on"].contains edge.kind)

def isDefiniteUsage (edge : EdgeRecord) : Bool :=
  edge.resolutionStatus == "resolved" && ["exact", "precise"].contains edge.precision

/-- What an edge or a site says about the use of a package under a profile. -/
inductive PackageUse
  | usage
  | uncertain
  | candidate
deriving DecidableEq

/-- A use of a package under a profile. -/
structure PackageFact where
  use : PackageUse
  identity : GoPackageIdentity
  profileId : String
deriving DecidableEq

/-! ### The global index -/

/-- `GlobalIndex`. The maps from profiles to groups are those of `goConditionGroups`, and the maps from
packages to profiles are kept as the list of their facts. -/
structure GlobalIndex where
  profiles : List ProfileRecord
  goConditionGroups : List (List String)
  applicableProfilesByLanguage : List (String × ApplicableProfileSet)
  applicableProfilesAll : Option ApplicableProfileSet
  goPackageScopes : List GoPackageIdentity
  goMainPackageScopes : List GoPackageIdentity
  goPackageFacts : List PackageFact
  targetlessCandidate : Bool
  targetlessUnresolved : Bool
  targetlessDynamic : Bool
  coverageOmittedPaths : List String
  analysisCoverage : AnalysisCoverageScope

variable (L : Libraries)

section Build

variable (source : GlobalSource)

/-- The ids of the profiles of a language family; the fixtures have none. -/
def profileIdsByLanguage (family : String) : List String :=
  (source.profiles.filter fun profile =>
    profile.language ≠ "fixture" ∧ healthLanguageFamily profile.language = family).map (·.id)

def matrixProfileIdsByLanguage (family : String) : List String :=
  (source.matrixEntries.filter fun entry =>
    entry.language ≠ "fixture" ∧ healthLanguageFamily entry.language = family).flatMap (·.profileIds)

def fixtureProfileIds : List String :=
  ((source.profiles.filter fun profile => profile.language = "fixture").map (·.id)) ++
    (source.matrixEntries.filter fun entry => entry.language = "fixture").flatMap (·.profileIds)

/-- The Go profiles of the records and of the matrix. -/
def goProfileIds : List String :=
  exact id (profileIdsByLanguage source "go" ++ matrixProfileIdsByLanguage source "go")

/-- The groups of the Go profiles. -/
def sourceGroups : List (List String) := goConditionGroups L source.profiles (goProfileIds source)

/-- The profiles that apply to the subjects of a language family. -/
def applicableProfiles (family : String) : ApplicableProfileSet :=
  let groups := sourceGroups L source
  let own := if family = "go" then groups.filterMap List.head?
    else profileIdsByLanguage source family ++ matrixProfileIdsByLanguage source family
  buildApplicableProfileSet source.profiles groups (family == "go") (own ++ fixtureProfileIds source)

/-- The packages of the Go module nodes. -/
def goPackages : List (String × GoPackageIdentity) :=
  source.goModuleNodes.filterMap fun node => (goPackageIdentity node).map fun identity =>
    (node.id, identity)

/-- The package of a node. Of two with one id the last counts. -/
def goPackageIdentityById (nodeId : String) : Option GoPackageIdentity :=
  -- the map is filled in the order of the nodes
  ((goPackages source).reverse.find? fun package => package.1 = nodeId).map Prod.snd

/-- The packages with the name of a main package. -/
def mainPackages : List GoPackageIdentity :=
  (source.goModuleNodes.filter fun node => stringProperty node "package_name" = some "main").filterMap
    goPackageIdentity

/-- What an edge says about the package it leads to. -/
def edgeFact (edge : EdgeRecord) : Option PackageFact :=
  (goPackageIdentityById source edge.target).bind fun identity =>
    if !isUsageEdge edge edge.target then none
    else
      let condition := goConditionState L source.profiles edge.condition edge.profileId
      if edge.resolutionStatus = "candidates" then
        if condition = .false then none else some ⟨.candidate, identity, edge.profileId⟩
      else
        match condition with
        | .true => some ⟨if isDefiniteUsage edge then .usage else .uncertain, identity, edge.profileId⟩
        | .unknown => some ⟨.uncertain, identity, edge.profileId⟩
        | .false => none

/-- What a site says about the packages it lists. -/
def siteFacts (site : SiteRecord) : List PackageFact :=
  if site.resolutionStatus ≠ "candidates" ∨
      goConditionState L source.profiles site.condition site.profileId = .false then []
  else site.targetIds.filterMap fun target =>
    (goPackageIdentityById source target).map fun identity => ⟨.candidate, identity, site.profileId⟩

def GlobalIndex.build : GlobalIndex where
  profiles := source.profiles
  goConditionGroups := sourceGroups L source
  applicableProfilesByLanguage :=
    (exact id (source.subjectLanguages.filterMap fun language =>
      language.map healthLanguageFamily)).map fun family => (family, applicableProfiles L source family)
  applicableProfilesAll :=
    if none ∈ source.subjectLanguages then
      some (buildApplicableProfileSet source.profiles (sourceGroups L source) false
        (source.profiles.map (·.id) ++ source.matrixEntries.flatMap (·.profileIds)))
    else none
  goPackageScopes := exact GoPackageIdentity.key ((goPackages source).map Prod.snd)
  goMainPackageScopes := exact GoPackageIdentity.key (mainPackages source)
  goPackageFacts :=
    source.edges.filterMap (edgeFact L source) ++ source.sites.flatMap (siteFacts L source)
  targetlessCandidate := source.targetlessCandidate
  targetlessUnresolved := source.targetlessUnresolved
  targetlessDynamic := source.targetlessDynamic
  coverageOmittedPaths := source.coverageOmittedPaths
  analysisCoverage := .fromSource source

end Build

namespace GlobalIndex

variable (index : GlobalIndex)

/-- The profiles of a group under which a package is used in this way. -/
def profilesOf (use : PackageUse) (scope : GoPackageIdentity) (representative : String) :
    List String :=
  exact id ((index.goPackageFacts.filter fun fact => fact.use = use ∧ fact.identity = scope ∧
    goProfileRepresentative index.goConditionGroups fact.profileId = representative).map (·.profileId))

/-- The profiles of a group under which a package with this path is a candidate. -/
def candidatesByPath (packagePath representative : String) : List String :=
  exact id ((index.goPackageFacts.filter fun fact => fact.use = .candidate ∧
    fact.identity.packagePath = packagePath ∧
    goProfileRepresentative index.goConditionGroups fact.profileId = representative).map (·.profileId))

end GlobalIndex

/-! ### The local index -/

/-- `LocalIndex`: what has been loaded for the subjects. -/
structure LocalIndex where
  subjects : List NodeRecord
  edges : List EdgeRecord
  sites : List SiteRecord
  dynamicSiteIds : List String

namespace LocalIndex

variable (local_ : LocalIndex)

/-- The edges that lead to a node. -/
def incoming (nodeId : String) : List EdgeRecord :=
  local_.edges.filter fun edge => edge.target = nodeId

/-- The sites that list a node, once for each time they list it. -/
def sitesByTarget (nodeId : String) : List SiteRecord :=
  local_.sites.flatMap fun site => (site.targetIds.filter fun target => target = nodeId).map fun _ => site

end LocalIndex

def goFileDisplayName (node : NodeRecord) : String := (sourcePath node).getD node.locator

def goIncompleteConditionBlocker (node : NodeRecord) (profileId : String) : FindingBlocker where
  kind := .incompleteCoverage
  detail := "Go build condition for " ++ goFileDisplayName node ++
    " is unsupported or ambiguous in profile " ++ profileId

def goInactiveConditionBlocker (node : NodeRecord) : FindingBlocker where
  kind := .incompleteCoverage
  detail := "Go build condition for " ++ goFileDisplayName node ++
    " is inactive in every analyzed Go profile"

def goIncompletePackageUsageBlocker (packagePath profileId : String) : FindingBlocker where
  kind := .incompleteCoverage
  detail := "Go package usage for " ++ packagePath ++
    " is unresolved, imprecise, or conditionally ambiguous in profile " ++ profileId

def goCandidatePackageBlocker (packagePath profileId : String) : FindingBlocker where
  kind := .candidate
  detail := "Go package import target " ++ packagePath ++ " is a candidate in profile " ++ profileId

def goUnresolvedPackageScopeBlocker (packagePath profileId : String) : FindingBlocker where
  kind := .incompleteCoverage
  detail := "Go package scope for " ++ packagePath ++ " is missing or ambiguous in profile " ++ profileId

/-- What the local index keeps of a Go file. -/
structure GoFile where
  usageProfiles : List String
  blockers : List FindingBlocker
  activeProfiles : List String
  isMain : Bool

section File

variable (index : GlobalIndex) (conditions : GoFileConditions)

/-- The blockers of a file whose package cannot be told, for a group of profiles. -/
def unresolvedScopeBlockers (packagePath representative : String) : List FindingBlocker :=
  ((goProfileGroupMembers index.goConditionGroups representative).filter fun profileId =>
    conditions.state index.goConditionGroups representative profileId ≠ .false).flatMap fun profileId =>
      goUnresolvedPackageScopeBlocker packagePath profileId ::
        if (index.candidatesByPath packagePath representative).contains profileId then
          [goCandidatePackageBlocker packagePath profileId]
        else []

/-- The blockers of a file in a package, for a group of profiles. -/
def packageBlockers (scope : GoPackageIdentity) (packagePath representative : String) :
    List FindingBlocker :=
  let active (profileId : String) : Bool :=
    conditions.state index.goConditionGroups representative profileId ≠ .false
  ((index.profilesOf .uncertain scope representative).filter active).map
      (goIncompletePackageUsageBlocker packagePath) ++
    ((index.profilesOf .candidate scope representative).filter active).map
      (goCandidatePackageBlocker packagePath)

/-- What `LocalIndex::build` does with a Go file. -/
def goFile (local_ : LocalIndex) (node : NodeRecord) : GoFile :=
  let hasBuildConstraint := (stringProperty node "build_constraint").any fun constraint =>
    trimText constraint ≠ ""
  let groups := index.goConditionGroups
  let conditions := GoFileConditions.build L index.profiles groups hasBuildConstraint
    (local_.incoming node.id)
  let representatives := groups.filterMap List.head?
  let hasState (wanted : GoConditionState) (representative : String) : Bool :=
    conditions.groupHasState groups representative
      (goProfileGroupMembers groups representative).length wanted
  let activeGroups := representatives.filter (hasState .true)
  let eligibleGroups := representatives.filter fun representative =>
    hasState .true representative || hasState .unknown representative
  let conditionBlockers := (representatives.flatMap fun representative =>
      (conditions.unknownProfiles groups representative
        (goProfileGroupMembers groups representative)).map (goIncompleteConditionBlocker node)) ++
    if hasBuildConstraint && eligibleGroups.isEmpty then [goInactiveConditionBlocker node] else []
  let bare : GoFile := ⟨[], conditionBlockers, activeGroups, false⟩
  if boolOf node "test" = some true then bare
  else
    match goPackageIdentity node with
    | none => bare
    | some fileIdentity =>
      let packagePath := fileIdentity.packagePath
      match index.goPackageScopes.filter (goPackageScopeMatches fileIdentity) with
      | [scope] =>
        { bare with
          usageProfiles := eligibleGroups.filter fun representative =>
            conditions.hasUsage groups representative (index.profilesOf .usage scope representative)
          blockers := conditionBlockers ++
            eligibleGroups.flatMap (packageBlockers index conditions scope packagePath)
          isMain := index.goMainPackageScopes.contains scope }
      | _ =>
        { bare with
          blockers := conditionBlockers ++
            eligibleGroups.flatMap (unresolvedScopeBlockers index conditions packagePath) }

/-- What the local index keeps of the Go file with an id. -/
def goFileOf (local_ : LocalIndex) (nodeId : String) : Option GoFile :=
  (local_.subjects.find? fun node => node.id = nodeId ∧ node.kind = "file" ∧
    languageOf node = some "go").map (goFile L index local_)

end File

/-! ### Blockers -/

/-- `collect_surface_blockers`. -/
def surfaceBlockers (node : NodeRecord) : List FindingBlocker :=
  let classified := classifySurface node
  let blocker (kind : BlockerKind) : List FindingBlocker :=
    [⟨kind, String.intercalate "; " classified.reasons⟩]
  match classified.role with
  | .entryPoint => blocker .entryPoint
  | .publicSurface => blocker .publicSurface
  | .dynamicLoading => blocker .dynamicLoading
  | .generated => blocker .generatedArtifact
  | .insufficientEvidence => blocker .insufficientSurfaceEvidence
  | .internal => []

/-- `collect_edge_blockers`, for one edge. -/
def edgeBlockers (edge : EdgeRecord) : List FindingBlocker :=
  (if edge.resolutionStatus = "candidates" then
      [⟨.candidate, "edge " ++ edge.id ++ " is a candidate"⟩]
    else if edge.resolutionStatus = "unresolved" then
      [⟨.unresolved, "edge " ++ edge.id ++ " is unresolved"⟩]
    else []) ++
  if edge.precision = "heuristic" then [⟨.heuristicPrecision, "edge " ++ edge.id ++ " is heuristic"⟩]
  else if edge.precision = "overapprox" then
    [⟨.overapproxPrecision, "edge " ++ edge.id ++ " is overapprox"⟩]
  else []

/-- `collect_site_blockers`, for one site. -/
def siteBlockers (dynamicIds : List String) (site : SiteRecord) : List FindingBlocker :=
  (if isDynamicKind site || dynamicIds.contains site.id then
      [⟨.dynamicLoading, "site " ++ site.id ++ " reaches the subject through dynamic loading"⟩]
    else []) ++
  if site.resolutionStatus = "candidates" then
    [⟨.candidate, "site " ++ site.id ++ " lists the subject as a candidate"⟩]
  else if site.resolutionStatus = "unresolved" then
    [⟨.unresolved, "site " ++ site.id ++ " lists the subject as unresolved"⟩]
  else []

/-- `collect_site_blockers`, for the sites without a target. -/
def targetlessBlockers (index : GlobalIndex) : List FindingBlocker :=
  (if index.targetlessCandidate then
      [⟨.candidate, "a candidate site has no target identity and may hide subject usage"⟩] else []) ++
  (if index.targetlessUnresolved then
      [⟨.unresolved, "an unresolved site has no target identity and may hide subject usage"⟩]
    else []) ++
  if index.targetlessDynamic then
    [⟨.dynamicLoading, "a dynamic-loading site has no target identity and may hide subject usage"⟩]
  else []

/-- `collect_coverage_blockers`. -/
def coverageBlockers (index : GlobalIndex) (node : NodeRecord) : List FindingBlocker :=
  (sourcePath node).elim [] fun path =>
    if index.coverageOmittedPaths.contains path then
      [⟨.coverageOmission, "file coverage skipped or unsupported " ++ path⟩]
    else []

/-- `append_missing_profile_blockers`. -/
def missingProfileBlockers (index : GlobalIndex) (isGoSubject : Bool) (profileId : String) :
    List FindingBlocker :=
  let missing := if isGoSubject then goProfileGroupMembers index.goConditionGroups profileId
    else [profileId]
  missing.map fun profileId => ⟨.profileNotAnalyzed,
    "profile " ++ profileId ++ " is applicable but missing from the snapshot"⟩

/-! ### Subjects -/

structure ApplicableProfiles where
  base : ApplicableProfileSet
  explicit : Option String

namespace ApplicableProfiles

variable (applicable : ApplicableProfiles)

def contains (profileId : String) : Bool :=
  applicable.base.ids.contains profileId || applicable.explicit == some profileId

def explicitExtra : Option String :=
  applicable.explicit.filter fun profileId => !applicable.base.ids.contains profileId

def isEmpty : Bool := applicable.base.ids.isEmpty && applicable.explicitExtra.isNone

end ApplicableProfiles

/-- `applicable_profiles`. Every language of a subject has a set, so that no lookup fails. -/
def applicableOf (index : GlobalIndex) (node : NodeRecord) : ApplicableProfiles where
  base := (match languageOf node with
    | some language => (index.applicableProfilesByLanguage.find? fun entry : String × ApplicableProfileSet =>
        entry.1 = healthLanguageFamily language).map Prod.snd
    | none => index.applicableProfilesAll).getD ⟨[], [], true, true⟩
  explicit := (stringProperty node "profile_id").map fun profileId =>
    if languageOf node = some "go" then goProfileRepresentative index.goConditionGroups profileId
    else profileId

/-- `profiles_satisfy` and `go_profiles_satisfy`. -/
def profilesSatisfy (index : GlobalIndex) (applicable : ApplicableProfiles) (isGoSubject : Bool)
    (kind : CompletenessKind) : Bool :=
  applicable.base.satisfies kind &&
    applicable.explicitExtra.all fun profileId =>
      if isGoSubject then goProfileCompleteness index.profiles index.goConditionGroups profileId kind
      else directProfileCompleteness index.profiles profileId kind

/-- The order of the blockers of a finding. -/
def blockerKey (blocker : FindingBlocker) : String ×ₗ String :=
  toLex (blocker.kind.asStr, blocker.detail)

/-- The profiles under which a subject is used. -/
def usageProfiles (index : GlobalIndex) (goFile : Option GoFile) (node : NodeRecord)
    (kind : FindingKind) (isGoSubject : Bool) (usage : List EdgeRecord) : List String :=
  let direct := usage.map fun edge =>
    if isGoSubject then goProfileRepresentative index.goConditionGroups edge.profileId
    else edge.profileId
  let ofFile := if kind = .unusedFile ∧ isGoSubject = true then
      goFile.elim [] fun file => file.usageProfiles ++
        if boolOf node "test" ≠ some true ∧ file.isMain = true then file.activeProfiles else []
    else []
  exact id (direct ++ ofFile)

def analyzeSubject (index : GlobalIndex) (local_ : LocalIndex) (node : NodeRecord)
    (kind : FindingKind) : Option HealthFinding :=
  if kind = .unusedExport ∧ (classifySurface node).role = .internal then none
  else
    let incoming := local_.incoming node.id
    let incomingUsage := incoming.filter fun edge => isUsageEdge edge node.id
    let usage := incomingUsage.filter isDefiniteUsage
    let isGoSubject := languageOf node == some "go"
    let applicable := applicableOf index node
    let goFile := if kind = .unusedFile ∧ isGoSubject = true then goFileOf L index local_ node.id
      else none
    let used := (usageProfiles index goFile node kind isGoSubject usage).any fun profileId =>
      (profileById index.profiles profileId).isSome && applicable.contains profileId
    -- usage under a profile that does not apply is kept as a blocker below
    if used then none
    else
      let blockers :=
        surfaceBlockers node ++ incomingUsage.flatMap edgeBlockers ++
        (local_.sitesByTarget node.id).flatMap (siteBlockers local_.dynamicSiteIds) ++
        targetlessBlockers index ++ coverageBlockers index node ++
        (if index.analysisCoverage.blocks node then
          [⟨.incompleteCoverage,
            "one or more analysis units lack complete execution or resolved dependency context"⟩]
          else []) ++
        (if applicable.isEmpty then
          [⟨.profileNotAnalyzed, (languageOf node).elim "no analyzed profile applies to this subject"
            fun language => "no analyzed profile applies to language " ++ language⟩]
          else []) ++
        applicable.base.missingIds.flatMap (missingProfileBlockers index isGoSubject) ++
        ((applicable.explicitExtra.filter fun profileId =>
          (profileById index.profiles profileId).isNone).toList.flatMap
            (missingProfileBlockers index isGoSubject)) ++
        goFile.elim [] GoFile.blockers ++
        (if usage ≠ [] then
          [⟨.profileNotAnalyzed, "incoming usage exists in a non-applicable profile only"⟩] else [])
      let blockers := if !profilesSatisfy index applicable isGoSubject .syntaxKind &&
          !(blockers.any fun blocker => blocker.kind = .incompleteCoverage) then
          blockers ++ [⟨.incompleteCoverage, "an applicable profile is below syntax-complete"⟩]
        else blockers
      let location := subjectLocation node
      let path := (location.map (·.path)).getD node.locator
      some (finishFinding L.toStableIds
        ⟨kind, node.id, .object [("path", .string path), ("subject_id", .string node.id)]⟩
        node.kind location
        (kind.asStr ++ " " ++ node.displayName ++
          " has no incoming usage edges across applicable profiles")
        (sortDedup blockerKey (fun a b => decide (a = b)) blockers)
        (usage.map fun edge => ⟨"edge", edge.id, edge.kind, edge.profileId⟩)
        [⟨"manual-review", "review blockers before deleting or unexporting the subject"⟩]
        false (profilesSatisfy index applicable isGoSubject .semantic))

/-- The kind of the finding of a subject. -/
def subjectKind (node : NodeRecord) : Option FindingKind :=
  if node.kind = "file" then some .unusedFile
  else if node.kind = "symbol" then some .unusedExport
  else if node.kind = "type" then some .unusedType
  else none

/-- The findings of subjects in their order. -/
def subjectFindings (index : GlobalIndex) (local_ : LocalIndex) (nodes : List NodeRecord) :
    List HealthFinding :=
  nodes.filterMap fun node => (subjectKind node).bind (analyzeSubject L index local_ node)

def analyzeSubjects (index : GlobalIndex) (local_ : LocalIndex) (nodes : List NodeRecord) :
    List HealthFinding :=
  sortByKey (·.id) (subjectFindings L index local_ nodes)

def analyzeUnused (snapshot : GraphSnapshot) : List HealthFinding :=
  analyzeSubjects L (.build L (.fromSnapshot snapshot))
    ⟨snapshot.nodes, snapshot.edges, snapshot.sites, dynamicSiteIds snapshot⟩ snapshot.nodes

end Health
