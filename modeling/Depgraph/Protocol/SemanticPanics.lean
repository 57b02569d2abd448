import Depgraph.Protocol.SemanticMaps

/-!
# The semantic contract does not panic

The lookups of `validate_semantic_maps` rest on facts that other checks establish: an accepted piece of
primary evidence has a complete span, the endpoints of sites and edges exist once `validate_site_edge_maps`
has accepted the maps, and an edge that is compared with its site has passed `validate_semantic_edge`.
-/

namespace Protocol

open Json Fallible Panics OrderedMap

/-! ### Spans -/

theorem hasCompleteSpan_iff {item : Evidence} : item.hasCompleteSpan = true ↔
    item.path.isSome = true ∧ item.startLine.isSome = true ∧ item.startColumn.isSome = true ∧
      item.endLine.isSome = true ∧ item.endColumn.isSome = true := by
  simp only [Evidence.hasCompleteSpan, Bool.and_eq_true, and_assoc]

theorem noPanic_primaryEvidenceAnchor {item : Evidence} (h : item.hasCompleteSpan = true) :
    NoPanic (primaryEvidenceAnchor item) := by
  obtain ⟨hpath, hstartLine, hstartColumn, hendLine, hendColumn⟩ := hasCompleteSpan_iff.1 h
  refine NoPanic.bind (NoPanic.expected hpath _) fun _ _ => ?_
  refine NoPanic.bind (NoPanic.expected hstartLine _) fun _ _ => ?_
  refine NoPanic.bind (NoPanic.expected hstartColumn _) fun _ _ => ?_
  refine NoPanic.bind (NoPanic.expected hendLine _) fun _ _ => ?_
  refine NoPanic.bind (NoPanic.expected hendColumn _) fun _ _ => ?_
  exact NoPanic.pure _

theorem noPanic_spanOf {item : Evidence} (h : item.hasCompleteSpan = true) (message : String) :
    NoPanic (spanOf item message) := by
  obtain ⟨-, hstartLine, hstartColumn, hendLine, hendColumn⟩ := hasCompleteSpan_iff.1 h
  refine NoPanic.bind (NoPanic.expected hendColumn _) fun _ _ => ?_
  refine NoPanic.bind (NoPanic.expected hendLine _) fun _ _ => ?_
  refine NoPanic.bind (NoPanic.expected hstartColumn _) fun _ _ => ?_
  refine NoPanic.bind (NoPanic.expected hstartLine _) fun _ _ => ?_
  exact NoPanic.pure _

/-- Evidence whose first item has a complete span. -/
def Spanned (evidence : List Evidence) : Prop :=
  ∃ primary, evidence.head? = some primary ∧ primary.hasCompleteSpan = true

theorem Spanned.pos {evidence : List Evidence} (h : Spanned evidence) : 0 < evidence.length := by
  obtain ⟨primary, hhead, -⟩ := h
  exact List.length_pos_of_mem (List.mem_of_head? hhead)

theorem Spanned.anchor {evidence : List Evidence} {primary : Evidence} (h : Spanned evidence)
    (hitem : (itemAt evidence 0 : Except (Failure ProtocolError) Evidence) = .ok primary) :
    NoPanic (primaryEvidenceAnchor primary) := by
  obtain ⟨item, hhead, hspan⟩ := h
  rw [itemAt, expected_eq_ok, ← List.head?_eq_getElem?, hhead] at hitem
  exact noPanic_primaryEvidenceAnchor (Option.some.inj hitem ▸ hspan)

/-! ### Primary evidence -/

section

variable {S : StableIds} {kind : EvidenceKind} {word owner : String} {evidence : List Evidence}
  {primary : Evidence}

theorem noPanic_primaryOfKind : NoPanic (primaryOfKind kind word owner evidence) := by
  refine NoPanic.bind_orReject fun primary _ => NoPanic.bind_orReject fun _ hspan => ?_
  have hpath := (hasCompleteSpan_iff.1 (ensure_eq_ok.1 hspan).2).1
  refine NoPanic.bind (NoPanic.expected hpath _) fun _ _ => ?_
  exact NoPanic.bind_orReject fun _ _ => NoPanic.pure _

theorem primaryOfKind_ok (h : primaryOfKind kind word owner evidence = .ok primary) :
    evidence.head? = some primary ∧ primary.hasCompleteSpan = true := by
  simp only [primaryOfKind, bind_eq_ok, orReject_eq_ok, required_eq_ok, ensure_eq_ok] at h
  obtain ⟨item, hhead, -, ⟨-, hspan⟩, -, -, -, -, hprimary⟩ := h
  rw [← Except.ok.inj hprimary]
  exact ⟨hhead, hspan⟩

theorem noPanic_validatePrimarySemanticEvidence :
    NoPanic (validatePrimarySemanticEvidence S owner evidence) := by
  refine NoPanic.bind noPanic_primaryOfKind fun primary hprimary => ?_
  have hspanned : Spanned evidence := ⟨primary, primaryOfKind_ok hprimary⟩
  refine NoPanic.bind (NoPanic.itemsFrom hspanned.pos) fun _ _ => ?_
  exact NoPanic.bind_orReject fun _ _ => NoPanic.pure _

theorem validatePrimarySemanticEvidence_ok
    (h : validatePrimarySemanticEvidence S owner evidence = .ok primary) :
    evidence.head? = some primary ∧ primary.hasCompleteSpan = true := by
  simp only [validatePrimarySemanticEvidence, bind_eq_ok] at h
  obtain ⟨item, hitem, -, -, -, -, hprimary⟩ := h
  rw [← Except.ok.inj hprimary]
  exact primaryOfKind_ok hitem

theorem noPanic_validateFrameworkSemanticEvidence {profileId : String} (h : Spanned evidence) :
    NoPanic (validateFrameworkSemanticEvidence owner profileId evidence) := by
  obtain ⟨primary, hhead, hspan⟩ := h
  unfold validateFrameworkSemanticEvidence
  rw [hhead]
  refine NoPanic.bind (NoPanic.ok primary) fun _ heq => ?_
  rw [← Except.ok.inj heq]
  refine NoPanic.bind_orReject fun framework _ => NoPanic.bind_orReject fun _ _ => ?_
  refine NoPanic.bind_orReject fun _ _ => NoPanic.bind_orReject fun _ _ => ?_
  refine NoPanic.bind_orReject fun occurrenceKind _ => ?_
  refine NoPanic.bind (NoPanic.anyM fun support _ => ?_) fun _ _ => NoPanic.orReject _
  unfold supportsFramework
  split_ifs with hsupport
  · refine NoPanic.bind (noPanic_primaryEvidenceAnchor hsupport.2) fun _ _ => ?_
    exact NoPanic.bind (noPanic_primaryEvidenceAnchor hspan) fun _ _ => NoPanic.pure _
  · exact NoPanic.pure _

theorem validateFrameworkSemanticEvidence_ok {profileId : String}
    (h : validateFrameworkSemanticEvidence owner profileId evidence = .ok ()) :
    ∃ primary, evidence.head? = some primary ∧
      (primary.properties.getStr "framework").isSome = true := by
  simp only [validateFrameworkSemanticEvidence, bind_eq_ok, expected_eq_ok, orReject_eq_ok,
    required_eq_ok] at h
  obtain ⟨primary, hhead, framework, hframework, -⟩ := h
  exact ⟨primary, hhead, Option.isSome_iff_exists.2 ⟨framework, Option.eq_some_of_filter_eq_some hframework⟩⟩

end

/-! ### Nodes -/

section

variable {S : StableIds} {nodes : NodeMap} {edges : EdgeMap} {sites : SiteMap}
  {profiles : ProfileMap} {node : GraphNode} {edge : GraphEdge} {site : DependencySite}
  {mode : EdgeEvidence} {logicalProfileId : String} {strict : Bool}

theorem noPanic_validateIdentityOfKind {kind property : String} (h : kindProperty kind = some property)
    (identity : Value) (nodeId : String) :
    NoPanic (validateIdentityOfKind kind identity nodeId) := by
  unfold kindProperty at h
  split at h
  case h_7 => cases h
  all_goals exact NoPanic.orReject _

theorem noPanic_validateSemanticNode : NoPanic (validateSemanticNode S node) := by
  unfold validateSemanticNode
  split_ifs
  · exact NoPanic.ok ()
  · cases hkind : kindProperty node.kind with
    | none => exact NoPanic.ok ()
    | some property =>
      refine NoPanic.bind_orReject fun _ _ => NoPanic.bind_orReject fun _ _ => ?_
      refine NoPanic.bind_orReject fun identity _ => NoPanic.bind_orReject fun _ _ => ?_
      refine NoPanic.bind_orReject fun _ _ => NoPanic.bind_orReject fun _ _ => ?_
      exact NoPanic.bind (noPanic_validateIdentityOfKind hkind identity node.id)
        fun _ _ => NoPanic.orReject _

/-- A node that is there. -/
theorem noPanic_lookup {id : String} (h : id ∈ nodes) (message : String) :
    NoPanic (expected nodes[id]? message : Except (Failure ProtocolError) GraphNode) := by
  obtain ⟨node, hnode⟩ := mem_iff.1 h
  rw [hnode]
  exact NoPanic.ok node

/-! ### Edges -/

theorem noPanic_validateDefinitionRelationEndpoints (hsource : edge.source ∈ nodes)
    (htarget : edge.target ∈ nodes) :
    NoPanic (validateDefinitionRelationEndpoints nodes edge) := by
  refine NoPanic.bind (noPanic_lookup hsource _) fun source _ => ?_
  refine NoPanic.bind (noPanic_lookup htarget _) fun target _ => ?_
  refine NoPanic.bind_orReject fun _ _ => ?_
  split
  · exact NoPanic.orReject _
  · exact NoPanic.ok ()

theorem noPanic_validateSemanticDefinitionRelation :
    NoPanic (validateSemanticDefinitionRelation S edge logicalProfileId) := by
  refine NoPanic.bind_orReject fun _ _ => NoPanic.bind_orReject fun _ _ => ?_
  refine NoPanic.bind_orReject fun _ _ => ?_
  refine NoPanic.bind noPanic_validatePrimarySemanticEvidence fun primary hprimary => ?_
  have hspan := (validatePrimarySemanticEvidence_ok hprimary).2
  refine NoPanic.bind (NoPanic.expected (hasCompleteSpan_iff.1 hspan).1 _) fun _ _ => ?_
  exact NoPanic.bind (noPanic_spanOf hspan _) fun _ _ => NoPanic.orReject _

theorem noPanic_validateSemanticEdge :
    NoPanic (validateSemanticEdge S edge strict logicalProfileId) := by
  unfold validateSemanticEdge
  split_ifs
  · exact noPanic_validateSemanticDefinitionRelation
  · exact NoPanic.ok ()
  · refine NoPanic.bind_orReject fun _ _ => NoPanic.bind_orReject fun _ _ => ?_
    refine NoPanic.bind noPanic_validatePrimarySemanticEvidence fun _ _ => ?_
    refine NoPanic.bind_orReject fun _ _ => NoPanic.bind_orReject fun _ _ => ?_
    exact NoPanic.orReject _

/-- An accepted edge of a site, of a kind that the semantic contract is about, has spanned evidence. -/
theorem validateSemanticEdge_ok (h : validateSemanticEdge S edge strict logicalProfileId = .ok ())
    (hsite : edge.siteId ≠ none) (hkind : isCommonSemanticEdgeKind edge.kind = true ∨ strict = true) :
    Spanned edge.evidence := by
  unfold validateSemanticEdge at h
  split_ifs at h with hrelation hother
  · simp only [validateSemanticDefinitionRelation, bind_eq_ok, orReject_eq_ok, ensure_eq_ok] at h
    obtain ⟨-, -, -, hsiteless, -⟩ := h
    exact absurd hsiteless hsite
  · obtain ⟨hcommon, hloose, -⟩ := hother
    rw [hcommon, hloose] at hkind
    exact absurd hkind (by decide)
  · simp only [bind_eq_ok] at h
    obtain ⟨-, -, -, -, primary, hprimary, -⟩ := h
    exact ⟨primary, validatePrimarySemanticEvidence_ok hprimary⟩

theorem noPanic_validateSourceFallbackEdge {expectedKind : String} :
    NoPanic (validateSourceFallbackEdge S site edge expectedKind) := by
  refine NoPanic.bind_orReject fun _ _ => NoPanic.bind_orReject fun _ _ => ?_
  refine NoPanic.bind noPanic_primaryOfKind fun sitePrimary hsite => ?_
  refine NoPanic.bind noPanic_primaryOfKind fun edgePrimary hedge => ?_
  refine NoPanic.bind (noPanic_primaryEvidenceAnchor (primaryOfKind_ok hsite).2) fun _ _ => ?_
  refine NoPanic.bind (noPanic_primaryEvidenceAnchor (primaryOfKind_ok hedge).2) fun _ _ => ?_
  refine NoPanic.bind_orReject fun _ _ => NoPanic.bind_orReject fun _ _ => ?_
  refine NoPanic.bind_orReject fun _ _ => NoPanic.bind_orReject fun _ _ => ?_
  exact NoPanic.orReject _

theorem noPanic_validateFrameworkEndpoint {framework endpointId : String} (h : endpointId ∈ nodes) :
    NoPanic (validateFrameworkEndpoint nodes edge framework endpointId) := by
  refine NoPanic.bind (noPanic_lookup h _) fun endpoint _ => ?_
  dsimp only
  split_ifs
  · refine NoPanic.bind_orReject fun _ _ => NoPanic.bind_orReject fun _ _ => ?_
    exact NoPanic.orReject _
  · exact NoPanic.ok ()

theorem noPanic_validateFrameworkEdgeContract (hspan : Spanned edge.evidence)
    (hsource : edge.source ∈ nodes) (htarget : edge.target ∈ nodes) :
    NoPanic (validateFrameworkEdgeContract nodes site edge) := by
  refine NoPanic.bind_orReject fun environment _ => NoPanic.bind_orReject fun _ _ => ?_
  refine NoPanic.bind_orReject fun _ _ => NoPanic.guard ?_
  refine NoPanic.bind (noPanic_validateFrameworkSemanticEvidence hspan) fun _ hevidence => ?_
  obtain ⟨primary, hhead, hframework⟩ := validateFrameworkSemanticEvidence_ok hevidence
  refine NoPanic.bind (NoPanic.itemAt hspan.pos) fun item hitem => ?_
  rw [itemAt, expected_eq_ok, ← List.head?_eq_getElem?, hhead] at hitem
  obtain rfl := Option.some.inj hitem
  refine NoPanic.bind (NoPanic.expected hframework _) fun framework _ => ?_
  refine NoPanic.forM fun endpointId hmem => ?_
  rcases List.mem_pair.1 hmem with rfl | rfl
  · exact noPanic_validateFrameworkEndpoint hsource
  · exact noPanic_validateFrameworkEndpoint htarget

/-! ### Sites -/

theorem noPanic_validateFrameworkSite {primary : Evidence} (hspan : Spanned site.evidence) :
    NoPanic (validateFrameworkSite site primary) := by
  unfold validateFrameworkSite
  split
  · refine NoPanic.bind (noPanic_validateFrameworkSemanticEvidence hspan) fun _ _ => ?_
    refine NoPanic.bind_orReject fun _ _ => ?_
    split
    · exact NoPanic.bind_orReject fun _ _ => NoPanic.orReject _
    · exact NoPanic.ok ()
  · exact NoPanic.ok ()

theorem noPanic_validateSemanticSite :
    NoPanic (validateSemanticSite S site strict logicalProfileId) := by
  unfold validateSemanticSite
  split
  · exact NoPanic.ok ()
  · refine NoPanic.bind_orReject fun _ _ => ?_
    refine NoPanic.bind noPanic_validatePrimarySemanticEvidence fun primary hprimary => ?_
    have hspan := validatePrimarySemanticEvidence_ok hprimary
    refine NoPanic.bind_orReject fun _ _ => NoPanic.guard ?_
    refine NoPanic.bind (noPanic_validateFrameworkSite ⟨primary, hspan⟩) fun _ _ => ?_
    refine NoPanic.bind_orReject fun _ _ => NoPanic.bind_orReject fun _ _ => ?_
    refine NoPanic.bind_orReject fun _ _ => ?_
    refine NoPanic.bind (NoPanic.expected (hasCompleteSpan_iff.1 hspan.2).1 _) fun _ _ => ?_
    exact NoPanic.bind (noPanic_spanOf hspan.2 _) fun _ _ => NoPanic.orReject _

/-- An accepted site that requires semantic edges has spanned evidence. -/
theorem validateSemanticSite_ok (h : validateSemanticSite S site strict logicalProfileId = .ok ())
    (hkind : semanticEdgeKind site strict ≠ none) : Spanned site.evidence := by
  unfold validateSemanticSite at h
  rw [if_neg hkind] at h
  simp only [bind_eq_ok] at h
  obtain ⟨-, -, primary, hprimary, -⟩ := h
  exact ⟨primary, validatePrimarySemanticEvidence_ok hprimary⟩

theorem noPanic_validateSourceFallbackSite (htargets : ∀ id ∈ site.targetIds, id ∈ nodes) :
    NoPanic (validateSourceFallbackSite nodes site) := by
  refine NoPanic.bind noPanic_primaryOfKind fun _ _ => NoPanic.bind_orReject fun _ _ => ?_
  split_ifs
  · refine NoPanic.forM fun targetId htarget => ?_
    exact NoPanic.bind (noPanic_lookup (htargets targetId htarget) _) fun _ _ => NoPanic.orReject _
  · exact NoPanic.ok ()

theorem noPanic_validateFrameworkCodeLinkSite {source target : GraphNode}
    (hspan : Spanned site.evidence) : NoPanic (validateFrameworkCodeLinkSite site source target) := by
  refine NoPanic.bind_orReject fun sourcePath _ => ?_
  dsimp only
  split
  case' isTrue => refine NoPanic.bind_orReject fun _ _ => NoPanic.bind_orReject fun _ _ => ?_
  case' isFalse => refine NoPanic.bind_orReject fun _ _ => ?_
  all_goals
    refine NoPanic.bind_orReject fun _ _ => ?_
    refine NoPanic.bind (NoPanic.itemAt hspan.pos) fun primary _ => ?_
    refine NoPanic.bind_orReject fun _ _ => NoPanic.bind_orReject fun _ _ => ?_
    refine NoPanic.bind_orReject fun _ _ => ?_
    split
    · exact NoPanic.ok ()
    · exact NoPanic.ok ()
    · exact NoPanic.orReject _

theorem noPanic_validateFrameworkSiteEndpoints (hspan : Spanned site.evidence)
    (hsource : site.source ∈ nodes) (htargets : ∀ id ∈ site.targetIds, id ∈ nodes) :
    NoPanic (validateFrameworkSiteEndpoints nodes site) := by
  refine NoPanic.bind (noPanic_lookup hsource _) fun source _ => ?_
  refine NoPanic.bind_orReject fun _ _ => NoPanic.bind_orReject fun _ _ => ?_
  split
  · exact NoPanic.ok ()
  · refine NoPanic.forM fun targetId htarget => ?_
    refine NoPanic.bind (noPanic_lookup (htargets targetId htarget) _) fun target _ => ?_
    refine NoPanic.bind_orReject fun _ _ => ?_
    split
    · exact noPanic_validateFrameworkCodeLinkSite hspan
    · exact NoPanic.ok ()

theorem noPanic_validateSemanticTargets {source : GraphNode}
    (htargets : ∀ id ∈ site.targetIds, id ∈ nodes) :
    NoPanic (validateSemanticTargets nodes site source) := by
  have hconcrete : NoPanic (if site.resolutionStatus ∈ [.resolved, .candidates] then
      site.targetIds.forM fun targetId => do
        let target ← expected nodes[targetId]?
          "base validation requires dependency-site targets to exist"
        orReject (validateSemanticTarget site source target)
        orReject (validateTargetLanguage site source target)
    else .ok ()) := by
    split_ifs
    · refine NoPanic.forM fun targetId htarget => ?_
      refine NoPanic.bind (noPanic_lookup (htargets targetId htarget) _) fun _ _ => ?_
      exact NoPanic.bind_orReject fun _ _ => NoPanic.orReject _
    · exact NoPanic.ok ()
  unfold validateSemanticTargets
  by_cases hgo : site.isGoSemantic source = true
  · rw [if_pos hgo]
    refine NoPanic.bind (NoPanic.forM fun targetId htarget => ?_) fun _ _ => hconcrete
    exact NoPanic.bind (noPanic_lookup (htargets targetId htarget) _) fun _ _ => NoPanic.orReject _
  · rw [if_neg hgo]
    exact hconcrete

/-! ### The maps -/

theorem edgeWithEvidence_ends (edge : GraphEdge) (site : Option DependencySite)
    (mode : EdgeEvidence) : (edgeWithEvidence edge site mode).source = edge.source ∧
      (edgeWithEvidence edge site mode).target = edge.target ∧
      (edgeWithEvidence edge site mode).siteId = edge.siteId := by
  unfold edgeWithEvidence
  cases site with
  | none => exact ⟨rfl, rfl, rfl⟩
  | some site =>
    dsimp only
    split_ifs <;> exact ⟨rfl, rfl, rfl⟩

theorem noPanic_validateSemanticSiteEdge {source : GraphNode} {expectedEdgeKind : String}
    (hsite : Spanned site.evidence)
    (hspan : Spanned (edgeWithEvidence edge (some site) mode).evidence)
    (hsource : edge.source ∈ nodes) (htarget : edge.target ∈ nodes) :
    NoPanic (validateSemanticSiteEdge S nodes site source expectedEdgeKind mode edge) := by
  obtain ⟨hsource', htarget', -⟩ := edgeWithEvidence_ends edge (some site) mode
  rw [← hsource'] at hsource
  rw [← htarget'] at htarget
  refine NoPanic.bind_orReject fun _ _ => ?_
  refine NoPanic.bind (NoPanic.itemAt hsite.pos) fun sitePrimary hsitePrimary => ?_
  refine NoPanic.bind (hsite.anchor hsitePrimary) fun _ _ => ?_
  refine NoPanic.bind (NoPanic.itemAt hspan.pos) fun edgePrimary hedgePrimary => ?_
  refine NoPanic.bind (hspan.anchor hedgePrimary) fun _ _ => ?_
  refine NoPanic.bind_orReject fun _ _ => NoPanic.bind_orReject fun _ _ => ?_
  split
  · exact noPanic_validateFrameworkEdgeContract hspan hsource htarget
  · exact NoPanic.ok ()

theorem noPanic_validateSemanticMapEdge (hsource : edge.source ∈ nodes)
    (htarget : edge.target ∈ nodes) :
    NoPanic (validateSemanticMapEdge S profiles nodes sites mode edge) := by
  obtain ⟨hsource', htarget', -⟩ :=
    edgeWithEvidence_ends edge (edge.siteId.bind (sites[·]?)) mode
  rw [← hsource'] at hsource
  rw [← htarget'] at htarget
  unfold validateSemanticMapEdge
  generalize edge.siteId.bind (sites[·]?) = linkedSite at *
  dsimp only
  cases hfallback : linkedSite.bind sourceFallbackEdgeKind with
  | some expectedKind =>
    obtain ⟨site, rfl, -⟩ := Option.bind_eq_some_iff.1 hfallback
    exact NoPanic.bind (NoPanic.ok site) fun _ _ => noPanic_validateSourceFallbackEdge
  | none =>
    refine NoPanic.bind_orReject fun _ _ => ?_
    refine NoPanic.bind noPanic_validateSemanticEdge fun _ _ => ?_
    split
    case' isTrue =>
      refine NoPanic.bind (noPanic_validateDefinitionRelationEndpoints hsource htarget) fun _ _ => ?_
    all_goals
      split
      · exact NoPanic.ok ()
      · split <;> exact NoPanic.orReject _

/-- An accepted edge of a site that requires semantic edges has spanned evidence. -/
theorem validateSemanticMapEdge_ok (hsite : sites[site.id]? = some site)
    (hedge : edge.siteId = some site.id)
    (h : validateSemanticMapEdge S profiles nodes sites mode edge = .ok ())
    (hfallback : sourceFallbackEdgeKind site = none)
    (hkind : semanticEdgeKind site ((strictDependencySites sites).contains site.id) ≠ none) :
    Spanned (edgeWithEvidence edge (some site) mode).evidence := by
  have hlink : (edgeWithEvidence edge (some site) mode).siteId ≠ none := by
    rw [(edgeWithEvidence_ends edge (some site) mode).2.2, hedge]
    exact Option.some_ne_none site.id
  unfold validateSemanticMapEdge at h
  rw [hedge, Option.bind_some, hsite] at h
  dsimp only [Option.bind_some, Option.any_some] at h
  rw [hfallback] at h
  generalize (strictDependencySites sites).contains site.id = strict at *
  generalize edgeWithEvidence edge (some site) mode = edge at *
  cases hexpected : semanticEdgeKind site strict with
  | none => exact absurd hexpected hkind
  | some expectedEdgeKind =>
    rw [hexpected] at h
    simp only [bind_eq_ok] at h
    obtain ⟨logicalProfileId, -, _, hsemantic, hrest⟩ := h
    refine validateSemanticEdge_ok hsemantic hlink ?_
    have hsame : edge.kind = expectedEdgeKind := by
      split at hrest
      · obtain ⟨-, -, hsame⟩ := bind_eq_ok.1 hrest
        exact ensure_eq_ok.1 (orReject_eq_ok.1 hsame)
      · exact ensure_eq_ok.1 (orReject_eq_ok.1 hrest)
    rw [hsame]
    cases strict with
    | true => exact .inr rfl
    | false =>
      -- Without semantic evidence only the edges of calls are expected.
      left
      rw [semanticEdgeKind, if_neg Bool.false_ne_true] at hexpected
      split_ifs at hexpected <;> exact Option.some.inj hexpected ▸ rfl

theorem noPanic_validateSemanticMapSite {codeLinkSources : CodeLinkSources}
    (hvalid : SiteEdgesValid nodes edges sites) (hsite : sites[site.id]? = some site)
    (hedges : ∀ edge ∈ values edges, validateSemanticMapEdge S profiles nodes sites mode edge = .ok ()) :
    NoPanic (validateSemanticMapSite S profiles nodes edges sites mode codeLinkSources site) := by
  have hsource := hvalid.site_source site.id site hsite
  have htargets := hvalid.site_target site.id site hsite
  unfold validateSemanticMapSite
  dsimp only
  refine NoPanic.bind_orReject fun logicalProfileId _ => ?_
  refine NoPanic.bind noPanic_validateSemanticSite fun _ haccepted => ?_
  refine NoPanic.bind_orReject fun _ _ => ?_
  split
  · exact NoPanic.bind (noPanic_validateSourceFallbackSite htargets) fun _ _ => NoPanic.pure _
  · rename_i hfallback
    have hrefined : sourceFallbackEdgeKind site = none := by
      rwa [Option.not_isSome_iff_eq_none] at hfallback
    cases hkind : semanticEdgeKind site ((strictDependencySites sites).contains site.id) with
    | none => exact NoPanic.pure _
    | some expectedEdgeKind =>
      have hrequired : semanticEdgeKind site ((strictDependencySites sites).contains site.id) ≠ none :=
        hkind ▸ Option.some_ne_none expectedEdgeKind
      have hspan := validateSemanticSite_ok haccepted hrequired
      have hchecked (source : GraphNode) (expectedEdgeKind : String) :
          NoPanic ((edgesOfSite edges site.id).forM
            (validateSemanticSiteEdge S nodes site source expectedEdgeKind mode)) := by
        refine NoPanic.forM fun edge hedge => ?_
        obtain ⟨⟨edgeId, hmem⟩, hlink⟩ := mem_edgesOfSite.1 hedge
        have hok := hedges edge (mem_values.2 ⟨edgeId, hmem⟩)
        exact noPanic_validateSemanticSiteEdge hspan
          (validateSemanticMapEdge_ok hsite hlink hok hrefined hrequired)
          (hvalid.edge_source edgeId edge hmem) (hvalid.edge_target edgeId edge hmem)
      have hrest (source : GraphNode) : NoPanic (do
          orReject (validateSemanticSource site source)
          orReject (validateSourceLanguage site source)
          validateSemanticTargets nodes site source
          let expectedEdgeKind ← expected (some expectedEdgeKind) "semantic site kind matched above"
          (edgesOfSite edges site.id).forM
            (validateSemanticSiteEdge S nodes site source expectedEdgeKind mode)
          return if isFrameworkCodeLinkKind site.kind then
            (site.kind, site.profileId, site.source) :: codeLinkSources else codeLinkSources) := by
        refine NoPanic.bind_orReject fun _ _ => NoPanic.bind_orReject fun _ _ => ?_
        refine NoPanic.bind (noPanic_validateSemanticTargets htargets) fun _ _ => ?_
        refine NoPanic.bind (NoPanic.ok expectedEdgeKind) fun _ _ => ?_
        exact NoPanic.bind (hchecked source _) fun _ _ => NoPanic.pure _
      refine NoPanic.bind (noPanic_lookup hsource _) fun source _ => ?_
      split
      · exact NoPanic.bind (noPanic_validateFrameworkSiteEndpoints hspan hsource htargets)
          fun _ _ => hrest source
      · exact hrest source

/-- **The semantic checks of a graph whose sites and edges fit together do not panic.** -/
theorem noPanic_validateSemanticMaps (hvalid : SiteEdgesValid nodes edges sites)
    (hkeyed : KeyedBy DependencySite.id sites) :
    NoPanic (validateSemanticMaps S profiles nodes edges sites mode) := by
  refine NoPanic.bind (NoPanic.forM fun node _ => ?_) fun _ _ => ?_
  · exact NoPanic.bind noPanic_validateSemanticNode fun _ _ => NoPanic.orReject _
  refine NoPanic.bind (NoPanic.forM fun edge hedge => ?_) fun _ hedges => ?_
  · obtain ⟨id, hid⟩ := mem_values.1 hedge
    exact noPanic_validateSemanticMapEdge (hvalid.edge_source id edge hid)
      (hvalid.edge_target id edge hid)
  refine NoPanic.bind (NoPanic.foldlM (Q := fun _ => True) trivial fun site hsite _ _ => ?_)
    fun _ _ => NoPanic.pure _
  obtain ⟨id, hid⟩ := mem_values.1 hsite
  have hfound : sites[site.id]? = some site := by rwa [hkeyed id site hid]
  exact ⟨noPanic_validateSemanticMapSite hvalid hfound (forM_eq_ok.1 hedges), fun _ _ => trivial⟩

/-- The same for the entry points that check the sites and edges first. -/
theorem noPanic_validateGraphMaps (hkeyed : KeyedBy DependencySite.id sites) :
    NoPanic (validateGraphMaps S nodes edges sites mode) :=
  NoPanic.bind_orReject fun _ hmaps =>
    noPanic_validateSemanticMaps (validateSiteEdgeMaps_ok hmaps) hkeyed

end

end Protocol
