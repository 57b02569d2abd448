import Depgraph.Library.OrderedMap
import Depgraph.Protocol.Canonical
import Depgraph.Protocol.Graph

/-!
# Edges and sites against each other

`validator.rs`: the provenance and the stable identities of observed build sites and edges, and
`validate_site_edge_maps`. `SiteEdgesValid` says what an accepted graph satisfies: endpoints exist,
and a site has exactly one edge to each of its targets.
-/

namespace Protocol

open Json Fallible OrderedMap

section

variable (S : StableIds)

/-! ### Build provenance -/

/-- The provenance of one supervised build attempt. -/
structure BuildProvenance where
  runId : String
  profileId : String
  commandPlanDigest : String
  toolchainExecutableDigest : String
  environmentKeySetDigest : String
  validatedOutputDigest : String
  extractor : String
  extractorVersion : String
deriving DecidableEq

/-- A property that must be there and not be empty. -/
def requiredProperty (owner : String) (primary : Evidence) (field : String) :
    Except ProtocolError String :=
  required ((primary.properties.getStr field).filter (· ≠ ""))
    (.invariant (owner ++ " primary evidence must include non-empty properties." ++ field))

def buildProvenance (owner profileId : String) (evidence : List Evidence) :
    Except ProtocolError BuildProvenance := do
  let primary ← required evidence.head? (.invariant (owner ++ " has no primary evidence"))
  ensure (primary.kind = .build) (owner ++ " primary evidence must use kind=build")
  evidence.forM fun item => rejectSecretLikeProperties owner item.properties
  let runId ← requiredProperty owner primary "build_run_id"
  let provenanceProfileId ← requiredProperty owner primary "profile_id"
  let commandPlanDigest ← requiredProperty owner primary "command_plan_digest"
  let toolchainExecutableDigest ← requiredProperty owner primary "toolchain_executable_digest"
  let environmentKeySetDigest ← requiredProperty owner primary "environment_key_set_digest"
  let validatedOutputDigest ← requiredProperty owner primary "validated_output_digest"
  ensure (provenanceProfileId = profileId)
    (owner ++ " profile " ++ debugStr profileId ++ " disagrees with build evidence profile " ++
      debugStr provenanceProfileId)
  [("command_plan_digest", commandPlanDigest),
    ("toolchain_executable_digest", toolchainExecutableDigest),
    ("environment_key_set_digest", environmentKeySetDigest),
    ("validated_output_digest", validatedOutputDigest)].forM fun (field, digest) =>
      ensure (isSha256Hex digest = true)
        (owner ++ " properties." ++ field ++ " must be a lowercase SHA-256 digest")
  if primary.hasCompleteSpan = false then
    let logicalPath ← requiredProperty owner primary "logical_artifact_path"
    validateCanonicalRelativePath (owner ++ " properties.logical_artifact_path") logicalPath
    let artifactDigest ← requiredProperty owner primary "artifact_digest"
    ensure (isSha256Hex artifactDigest = true)
      (owner ++ " properties.artifact_digest must be a lowercase SHA-256 digest")
  return ⟨runId, provenanceProfileId, commandPlanDigest, toolchainExecutableDigest,
    environmentKeySetDigest, validatedOutputDigest, primary.extractor, primary.extractorVersion⟩

/-- `json!(option)`. -/
def optionalValue (value : Option Value) : Value := value.getD .null

def buildSiteStableId (site : DependencySite) : Except ProtocolError String := do
  let primary ← required site.evidence.head? (.invariant "build site has no evidence")
  let _ ← buildProvenance ("build dependency site " ++ site.id) site.profileId site.evidence
  let properties := primary.properties
  let anchor : Value :=
    if primary.hasCompleteSpan then
      .object [("path", optionalValue (primary.path.map .string)),
        ("start_line", optionalValue (primary.startLine.map natValue)),
        ("start_column", optionalValue (primary.startColumn.map natValue)),
        ("end_line", optionalValue (primary.endLine.map natValue)),
        ("end_column", optionalValue (primary.endColumn.map natValue))]
    else
      .object [("logical_artifact_path", optionalValue properties["logical_artifact_path"]?),
        ("artifact_digest", optionalValue properties["artifact_digest"]?)]
  let contract : List (String × Value) :=
    match properties["contract_version"]? with
    | some contractVersion =>
      [("contract_version", contractVersion), ("reason", optionalValue (site.reason.map .string))]
    | none => []
  return S.stableIdFromValue "site" (.object ([("kind", .string site.kind),
    ("source", .string site.source), ("specifier", .string site.specifier),
    ("profile_id", .string site.profileId),
    ("condition", (site.condition.canonicalized S.floatText).toValue),
    ("resolution_status", .string site.resolutionStatus.asStr),
    ("precision", .string "observed"), ("observer", .string primary.extractor),
    ("observer_version", .string primary.extractorVersion),
    ("validated_output_digest", optionalValue properties["validated_output_digest"]?),
    ("anchor", anchor)] ++ contract))

def buildEdgeStableId (edge : GraphEdge) : Except ProtocolError String := do
  ensure (edge.phase = .build) "build edge stable ID requires phase=build"
  let siteId ← required edge.siteId
    (.invariant ("build edge " ++ edge.id ++ " must reference a site"))
  let contractVersion := edge.evidence.head?.bind fun evidence =>
    evidence.properties["contract_version"]?
  return S.stableIdFromValue "edge" (.object ([("kind", .string edge.kind),
    ("site_id", .string siteId), ("target", .string edge.target), ("phase", .string "build")] ++
    optionalMember "contract_version" contractVersion))

/-! ### One edge, one site -/

def validateEdge (edge : GraphEdge) : Except ProtocolError Unit := do
  requireNonEmpty "edge.id" edge.id
  requireNonEmpty "edge.source" edge.source
  requireNonEmpty "edge.target" edge.target
  requireNonEmpty "edge.kind" edge.kind
  requireNonEmpty "edge.profile_id" edge.profileId
  if let some siteId := edge.siteId then requireNonEmpty "edge.site_id" siteId
  edge.condition.validate
  validateDependencyEvidence "edge" edge.evidence
    ((edge.phase == .source || edge.phase == .semantic) &&
      !firstIs Evidence.isCrossLanguageArtifact edge.evidence)
  if edge.phase = .build then
    ensure (edge.precision = .observed)
      ("build edge " ++ edge.id ++ " must use precision=observed")
    let _ ← buildProvenance ("build edge " ++ edge.id) edge.profileId edge.evidence
  else
    ensure (firstIs Evidence.isObservedBuild edge.evidence = false)
      ("edge " ++ edge.id ++ " with primary build evidence must use phase=build")

def validateSite (site : DependencySite) : Except ProtocolError Unit := do
  requireNonEmpty "dependency_site.id" site.id
  requireNonEmpty "dependency_site.source" site.source
  requireNonEmpty "dependency_site.kind" site.kind
  requireNonEmpty "dependency_site.profile_id" site.profileId
  site.targetIds.forM (requireNonEmpty "dependency_site.target_ids[]")
  if let some reason := site.reason then requireNonEmpty "dependency_site.reason" reason
  site.condition.validate
  let build := firstIs Evidence.isObservedBuild site.evidence
  validateDependencyEvidence "dependency_site" site.evidence
    (!build && !firstIs Evidence.isCrossLanguageArtifact site.evidence)
  if build then
    ensure (site.precision = .observed)
      ("build dependency site " ++ site.id ++ " must use precision=observed")
    let _ ← buildProvenance ("build dependency site " ++ site.id) site.profileId site.evidence
  else
    ensure (site.evidence.any Evidence.isObservedBuild = false)
      ("dependency site " ++ site.id ++ " must place build evidence first")

/-! ### The maps -/

abbrev NodeMap := Std.ExtTreeMap String GraphNode

abbrev EdgeMap := Std.ExtTreeMap String GraphEdge

abbrev SiteMap := Std.ExtTreeMap String DependencySite

/-- Whether an edge with empty evidence shares that of its site. -/
inductive EdgeEvidence where
  | required | sharedWithSite
deriving DecidableEq

def edgeWithEvidence (edge : GraphEdge) (site : Option DependencySite) (mode : EdgeEvidence) :
    GraphEdge :=
  match site with
  | some site =>
    if mode = .sharedWithSite ∧ edge.evidence = [] then { edge with evidence := site.evidence }
    else edge
  | none => edge

/-- The checks of one edge against the maps. -/
def validateEdgeLinks (nodes : NodeMap) (sites : SiteMap) (mode : EdgeEvidence)
    (edge : GraphEdge) : Except ProtocolError Unit := do
  validateEdge (edgeWithEvidence edge (edge.siteId.bind (sites[·]?)) mode)
  ensure (edge.source ∈ nodes)
    ("edge " ++ edge.id ++ " references missing source node " ++ edge.source)
  ensure (edge.target ∈ nodes)
    ("edge " ++ edge.id ++ " references missing target node " ++ edge.target)
  if let some siteId := edge.siteId then
    ensure (siteId ∈ sites)
      ("edge " ++ edge.id ++ " references missing dependency site " ++ siteId)

/-- The checks of one target of a site. -/
def validateTarget (nodes : NodeMap) (site : DependencySite) (target : String) :
    Except ProtocolError Unit := do
  let node ← required nodes[target]?
    (.invariant ("dependency site " ++ site.id ++ " references missing target node " ++ target))
  match site.resolutionStatus with
  | .resolved =>
    ensure (node.kind ∉ ["external_system", "unknown_target"])
      ("resolved dependency site " ++ site.id ++ " targets non-concrete node " ++ node.id ++
        " of kind " ++ node.kind)
  | .external =>
    ensure (node.kind = "external_system")
      ("external dependency site " ++ site.id ++ " targets node " ++ node.id ++ " of kind " ++
        node.kind)
  | .unresolved =>
    ensure (node.kind = "unknown_target")
      ("unresolved dependency site " ++ site.id ++ " targets node " ++ node.id ++ " of kind " ++
        node.kind)
  | .candidates => .ok ()

/-- The checks of one edge of a site against the site. -/
def validateLinkedEdge (site : DependencySite) (mode : EdgeEvidence) (edge : GraphEdge) :
    Except ProtocolError Unit := do
  let edge := edgeWithEvidence edge (some site) mode
  ensure (edge.source = site.source)
    ("edge " ++ edge.id ++ " source does not match dependency site " ++ site.id)
  ensure (edge.profileId = site.profileId)
    ("edge " ++ edge.id ++ " profile does not match dependency site " ++ site.id)
  ensure (edge.resolutionStatus = site.resolutionStatus)
    ("edge " ++ edge.id ++ " status does not match dependency site " ++ site.id)
  ensure (edge.precision = site.precision)
    ("edge " ++ edge.id ++ " precision does not match dependency site " ++ site.id)
  if firstIs Evidence.isObservedBuild site.evidence then
    ensure (edge.phase = .build)
      ("build dependency site " ++ site.id ++ " is linked to non-build edge " ++ edge.id)
    let siteProvenance ← buildProvenance ("build dependency site " ++ site.id) site.profileId
      site.evidence
    let edgeProvenance ← buildProvenance ("build edge " ++ edge.id) edge.profileId edge.evidence
    ensure (siteProvenance = edgeProvenance)
      ("build edge " ++ edge.id ++ " provenance does not match dependency site " ++ site.id)
    let expectedSiteId ← buildSiteStableId S site
    ensure (site.id = expectedSiteId)
      ("build dependency site " ++ site.id ++ " does not match its stable identity; expected " ++
        expectedSiteId)
    let expectedEdgeId ← buildEdgeStableId S edge
    ensure (edge.id = expectedEdgeId)
      ("build edge " ++ edge.id ++ " does not match its stable identity; expected " ++
        expectedEdgeId)

/-- The edges of a site in the order of their ids. -/
def edgesOfSite (edges : EdgeMap) (siteId : String) : List GraphEdge :=
  (values edges).filter fun edge => edge.siteId == some siteId

/-- The distinct strings of a list in their order. -/
def distinctStrings (values : List String) : Std.ExtTreeSet String := .ofList values

/-- The number of targets that a status allows. -/
def validateTargetCount (site : DependencySite) (count : Nat) : Except ProtocolError Unit :=
  if site.resolutionStatus = .candidates then
    ensure (count ≠ 0)
      ("candidate dependency site " ++ site.id ++ " must have at least one target")
  else
    ensure (count = 1)
      ("dependency site " ++ site.id ++ " with status " ++ site.resolutionStatus.debug ++
        " must have exactly one target")

/-- The checks of one site against the maps. -/
def validateSiteLinks (nodes : NodeMap) (edges : EdgeMap) (mode : EdgeEvidence)
    (site : DependencySite) : Except ProtocolError Unit := do
  validateSite site
  ensure (site.source ∈ nodes)
    ("dependency site " ++ site.id ++ " references missing source node " ++ site.source)
  let targets := distinctStrings site.targetIds
  ensure (targets.size = site.targetIds.length)
    ("dependency site " ++ site.id ++ " contains duplicate targets")
  validateTargetCount site targets.size
  targets.toList.forM (validateTarget nodes site)
  ensure (¬ (site.resolutionStatus = .unresolved ∧ site.reason = none))
    ("unresolved dependency site " ++ site.id ++ " has no reason")
  let siteEdges := edgesOfSite edges site.id
  ensure (siteEdges.length = targets.size)
    ("dependency site " ++ site.id ++ s!" has {targets.size} targets but {siteEdges.length} edges")
  ensure ((distinctStrings (siteEdges.map GraphEdge.target)).toList = targets.toList)
    ("dependency site " ++ site.id ++ " target set does not match its edge target set")
  siteEdges.forM (validateLinkedEdge S site mode)

def validateSiteEdgeMaps (nodes : NodeMap) (edges : EdgeMap) (sites : SiteMap)
    (mode : EdgeEvidence) : Except ProtocolError Unit := do
  (values edges).forM (validateEdgeLinks nodes sites mode)
  (values sites).forM (validateSiteLinks S nodes edges mode)
  (values nodes).forM (validateNode S)

/-- `validate_site_edge_invariants`: the maps are built from the ids of the payloads. -/
def validateSiteEdgeInvariants (nodes : List GraphNode) (edges : List GraphEdge)
    (sites : List DependencySite) : Except ProtocolError Unit :=
  validateSiteEdgeMaps S (indexed GraphNode.id nodes) (indexed GraphEdge.id edges)
    (indexed DependencySite.id sites) .required

/-! ### What an accepted graph satisfies -/

variable {S} {nodes : NodeMap} {edges : EdgeMap} {sites : SiteMap} {mode : EdgeEvidence}
  {site : DependencySite} {edge : GraphEdge} {id target : String}

theorem edgeWithEvidence_links (edge : GraphEdge) (site : Option DependencySite)
    (mode : EdgeEvidence) : (edgeWithEvidence edge site mode).source = edge.source ∧
      (edgeWithEvidence edge site mode).profileId = edge.profileId := by
  unfold edgeWithEvidence
  cases site with
  | none => exact ⟨rfl, rfl⟩
  | some site =>
    dsimp only
    split_ifs <;> exact ⟨rfl, rfl⟩

theorem mem_edgesOfSite : edge ∈ edgesOfSite edges id ↔
    (∃ edgeId : String, edges[edgeId]? = some edge) ∧ edge.siteId = some id := by
  simp only [edgesOfSite, List.mem_filter, mem_values, beq_iff_eq]

theorem mem_distinctStrings {l : List String} {s : String} :
    s ∈ (distinctStrings l).toList ↔ s ∈ l := by
  rw [distinctStrings, Std.ExtTreeSet.mem_toList, Std.ExtTreeSet.mem_ofList,
    List.contains_iff_mem]

theorem distinctStrings_nodup (l : List String) : (distinctStrings l).toList.Nodup :=
  Std.ExtTreeSet.distinct_toList.imp fun h heq => h (Std.compare_eq_iff_eq.2 heq)

/-- A list is as long as the set of its members when it has no duplicates. -/
theorem nodup_of_size {l : List String} (h : (distinctStrings l).size = l.length) : l.Nodup := by
  have hperm : (distinctStrings l).toList.Perm l.dedup :=
    (List.perm_ext_iff_of_nodup (distinctStrings_nodup l) (List.nodup_dedup l)).2 fun s => by
      rw [mem_distinctStrings, List.mem_dedup]
  have hlength : l.dedup.length = l.length := by
    rw [← hperm.length_eq, Std.ExtTreeSet.length_toList, h]
  rw [← List.dedup_eq_self]
  exact (List.dedup_sublist l).eq_of_length hlength

/-- **What the checks of the maps establish**: endpoints exist, and the targets of a site are
those of its edges, one each. -/
structure SiteEdgesValid (nodes : NodeMap) (edges : EdgeMap) (sites : SiteMap) : Prop where
  edge_source : ∀ (id : String) (edge : GraphEdge), edges[id]? = some edge → edge.source ∈ nodes
  edge_target : ∀ (id : String) (edge : GraphEdge), edges[id]? = some edge → edge.target ∈ nodes
  edge_site : ∀ (id : String) (edge : GraphEdge), edges[id]? = some edge →
    ∀ siteId, edge.siteId = some siteId → siteId ∈ sites
  site_source : ∀ (id : String) (site : DependencySite), sites[id]? = some site →
    site.source ∈ nodes
  site_target : ∀ (id : String) (site : DependencySite), sites[id]? = some site →
    ∀ target ∈ site.targetIds, target ∈ nodes
  site_targets : ∀ (id : String) (site : DependencySite), sites[id]? = some site →
    ((edgesOfSite edges site.id).map GraphEdge.target).Perm site.targetIds
  linked : ∀ (id : String) (site : DependencySite), sites[id]? = some site →
    ∀ edge ∈ edgesOfSite edges site.id,
      edge.source = site.source ∧ edge.profileId = site.profileId

theorem validateEdgeLinks_ok (h : validateEdgeLinks nodes sites mode edge = .ok ()) :
    edge.source ∈ nodes ∧ edge.target ∈ nodes ∧
      ∀ siteId, edge.siteId = some siteId → siteId ∈ sites := by
  simp only [validateEdgeLinks, bind_eq_ok, ensure_eq_ok] at h
  obtain ⟨_, -, _, hsource, _, htarget, hsite⟩ := h
  refine ⟨hsource, htarget, fun siteId heq => ?_⟩
  rw [heq] at hsite
  exact ensure_eq_ok.1 hsite

theorem validateLinkedEdge_ok (h : validateLinkedEdge S site mode edge = .ok ()) :
    edge.source = site.source ∧ edge.profileId = site.profileId := by
  simp only [validateLinkedEdge, bind_eq_ok, ensure_eq_ok] at h
  obtain ⟨_, hsource, _, hprofile, -⟩ := h
  obtain ⟨hsource', hprofile'⟩ := edgeWithEvidence_links edge (some site) mode
  exact ⟨hsource'.symm.trans hsource, hprofile'.symm.trans hprofile⟩

theorem validateSiteLinks_ok (h : validateSiteLinks S nodes edges mode site = .ok ()) :
    site.source ∈ nodes ∧ (∀ target ∈ site.targetIds, target ∈ nodes) ∧
      ((edgesOfSite edges site.id).map GraphEdge.target).Perm site.targetIds ∧
      ∀ edge ∈ edgesOfSite edges site.id,
        edge.source = site.source ∧ edge.profileId = site.profileId := by
  simp only [validateSiteLinks, bind_eq_ok, ensure_eq_ok, forM_eq_ok] at h
  obtain ⟨_, -, _, hsource, _, hdistinct, _, -, _, htargets, _, -, _, hcount, _, hsame, hedges⟩ := h
  have hmem : ∀ target, target ∈ (edgesOfSite edges site.id).map GraphEdge.target ↔
      target ∈ site.targetIds := fun target => by
    rw [← mem_distinctStrings, hsame, mem_distinctStrings]
  have hnodup : ((edgesOfSite edges site.id).map GraphEdge.target).Nodup := by
    refine nodup_of_size ?_
    rw [List.length_map, hcount, ← Std.ExtTreeSet.length_toList, hsame,
      Std.ExtTreeSet.length_toList]
  refine ⟨hsource, fun target htarget => ?_,
    (List.perm_ext_iff_of_nodup hnodup (nodup_of_size hdistinct)).2 hmem,
    fun edge hedge => validateLinkedEdge_ok (hedges edge hedge)⟩
  have hchecked := htargets target (mem_distinctStrings.2 htarget)
  simp only [validateTarget, bind_eq_ok, required_eq_ok] at hchecked
  obtain ⟨node, hnode, -⟩ := hchecked
  exact mem_iff.2 ⟨node, hnode⟩

theorem validateSiteEdgeMaps_ok (h : validateSiteEdgeMaps S nodes edges sites mode = .ok ()) :
    SiteEdgesValid nodes edges sites := by
  simp only [validateSiteEdgeMaps, bind_eq_ok, forM_eq_ok, mem_values, forall_exists_index] at h
  obtain ⟨_, hedges, _, hsites, -⟩ := h
  exact {
    edge_source := fun id edge hedge => (validateEdgeLinks_ok (hedges edge id hedge)).1
    edge_target := fun id edge hedge => (validateEdgeLinks_ok (hedges edge id hedge)).2.1
    edge_site := fun id edge hedge => (validateEdgeLinks_ok (hedges edge id hedge)).2.2
    site_source := fun id site hsite => (validateSiteLinks_ok (hsites site id hsite)).1
    site_target := fun id site hsite => (validateSiteLinks_ok (hsites site id hsite)).2.1
    site_targets := fun id site hsite => (validateSiteLinks_ok (hsites site id hsite)).2.2.1
    linked := fun id site hsite => (validateSiteLinks_ok (hsites site id hsite)).2.2.2 }

end

end Protocol
