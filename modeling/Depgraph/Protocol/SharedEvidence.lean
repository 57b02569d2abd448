import Depgraph.Protocol.SemanticMaps

/-!
# Edges that share the evidence of their sites

A producer may leave the evidence of an edge empty where a site has it. `shared_eq_required`: such a
graph is checked as the one with the evidence copied into its edges is.
-/

namespace Protocol

open Json Fallible Panics OrderedMap

/-- The edge with the evidence of its site, if it has none of its own. -/
def copySiteEvidence (sites : SiteMap) (edge : GraphEdge) : GraphEdge :=
  match edge.siteId.bind (sites[·]?) with
  | some site => if edge.evidence = [] then { edge with evidence := site.evidence } else edge
  | none => edge

/-- The edges with the evidence of their sites copied into them. -/
def withSiteEvidence (edges : EdgeMap) (sites : SiteMap) : EdgeMap :=
  edges.map fun _ edge => copySiteEvidence sites edge

section

variable {S : StableIds} {nodes : NodeMap} {edges : EdgeMap} {sites : SiteMap}
  {profiles : ProfileMap} {edge : GraphEdge} {site : DependencySite}

/-! ### One edge -/

theorem edgeWithEvidence_shared (sites : SiteMap) (edge : GraphEdge) :
    edgeWithEvidence edge (edge.siteId.bind (sites[·]?)) .sharedWithSite =
      copySiteEvidence sites edge := by
  unfold edgeWithEvidence copySiteEvidence
  cases edge.siteId.bind (sites[·]?) with
  | none => rfl
  | some site => simp only [true_and]

theorem edgeWithEvidence_required (edge : GraphEdge) (site : Option DependencySite) :
    edgeWithEvidence edge site .required = edge := by
  cases site <;> rfl

theorem copySiteEvidence_links (sites : SiteMap) (edge : GraphEdge) :
    (copySiteEvidence sites edge).id = edge.id ∧
      (copySiteEvidence sites edge).source = edge.source ∧
      (copySiteEvidence sites edge).target = edge.target ∧
      (copySiteEvidence sites edge).siteId = edge.siteId := by
  unfold copySiteEvidence
  cases edge.siteId.bind (sites[·]?) with
  | none => exact ⟨rfl, rfl, rfl, rfl⟩
  | some site =>
    dsimp only
    split_ifs <;> exact ⟨rfl, rfl, rfl, rfl⟩

/-- The edge of a site that is found under its own identifier. -/
theorem edgeWithEvidence_of_mem (hsite : sites[site.id]? = some site)
    (hedge : edge.siteId = some site.id) :
    edgeWithEvidence edge (some site) .sharedWithSite = copySiteEvidence sites edge := by
  rw [← edgeWithEvidence_shared, hedge, Option.bind_some, hsite]

/-! ### The maps -/

theorem values_withSiteEvidence (edges : EdgeMap) (sites : SiteMap) :
    values (withSiteEvidence edges sites) = (values edges).map (copySiteEvidence sites) :=
  values_map _

theorem edgesOfSite_withSiteEvidence (edges : EdgeMap) (sites : SiteMap) (id : String) :
    edgesOfSite (withSiteEvidence edges sites) id =
      (edgesOfSite edges id).map (copySiteEvidence sites) := by
  have hlink : (fun edge : GraphEdge => edge.siteId == some id) ∘ copySiteEvidence sites =
      fun edge => edge.siteId == some id :=
    funext fun edge => by rw [Function.comp_apply, (copySiteEvidence_links sites edge).2.2.2]
  rw [edgesOfSite, values_withSiteEvidence, List.filter_map, hlink, edgesOfSite]

theorem validateEdgeLinks_shared (edge : GraphEdge) :
    validateEdgeLinks nodes sites .required (copySiteEvidence sites edge) =
      validateEdgeLinks nodes sites .sharedWithSite edge := by
  obtain ⟨hid, hsource, htarget, hsiteId⟩ := copySiteEvidence_links sites edge
  unfold validateEdgeLinks
  rw [edgeWithEvidence_required, edgeWithEvidence_shared, hid, hsource, htarget, hsiteId]

/-- The members of a map that is keyed by their identifiers are found under them. -/
theorem getElem?_of_mem_values (hkeyed : KeyedBy DependencySite.id sites)
    (hsite : site ∈ values sites) : sites[site.id]? = some site := by
  obtain ⟨id, hid⟩ := mem_values.1 hsite
  rwa [hkeyed id site hid]

theorem validateSiteLinks_shared (hsite : sites[site.id]? = some site) :
    validateSiteLinks S nodes (withSiteEvidence edges sites) .required site =
      validateSiteLinks S nodes edges .sharedWithSite site := by
  have htargets : ((edgesOfSite edges site.id).map (copySiteEvidence sites)).map GraphEdge.target =
      (edgesOfSite edges site.id).map GraphEdge.target := by
    rw [List.map_map]
    exact List.map_congr_left fun edge _ => (copySiteEvidence_links sites edge).2.2.1
  have hedges : ((edgesOfSite edges site.id).map (copySiteEvidence sites)).forM
      (validateLinkedEdge S site .required) =
        (edgesOfSite edges site.id).forM (validateLinkedEdge S site .sharedWithSite) := by
    rw [forM_map]
    refine forM_congr fun edge hedge => ?_
    unfold validateLinkedEdge
    rw [edgeWithEvidence_required, edgeWithEvidence_of_mem hsite (mem_edgesOfSite.1 hedge).2]
  unfold validateSiteLinks
  simp only [edgesOfSite_withSiteEvidence, hedges, htargets, List.length_map]

theorem validateSiteEdgeMaps_shared (hkeyed : KeyedBy DependencySite.id sites) :
    validateSiteEdgeMaps S nodes (withSiteEvidence edges sites) sites .required =
      validateSiteEdgeMaps S nodes edges sites .sharedWithSite := by
  unfold validateSiteEdgeMaps
  rw [values_withSiteEvidence, forM_map, forM_congr fun edge _ => validateEdgeLinks_shared edge,
    forM_congr fun site hsite =>
      validateSiteLinks_shared (getElem?_of_mem_values hkeyed hsite)]

theorem validateSemanticMapEdge_shared (edge : GraphEdge) :
    validateSemanticMapEdge S profiles nodes sites .required (copySiteEvidence sites edge) =
      validateSemanticMapEdge S profiles nodes sites .sharedWithSite edge := by
  unfold validateSemanticMapEdge
  simp only [edgeWithEvidence_required, edgeWithEvidence_shared,
    (copySiteEvidence_links sites edge).2.2.2]

theorem validateSemanticMapSite_shared (hsite : sites[site.id]? = some site)
    (codeLinkSources : CodeLinkSources) :
    validateSemanticMapSite S profiles nodes (withSiteEvidence edges sites) sites .required
        codeLinkSources site =
      validateSemanticMapSite S profiles nodes edges sites .sharedWithSite codeLinkSources site := by
  have hedges (source : GraphNode) (expectedEdgeKind : String) :
      (edgesOfSite (withSiteEvidence edges sites) site.id).forM
          (validateSemanticSiteEdge S nodes site source expectedEdgeKind .required) =
        (edgesOfSite edges site.id).forM
          (validateSemanticSiteEdge S nodes site source expectedEdgeKind .sharedWithSite) := by
    rw [edgesOfSite_withSiteEvidence, forM_map]
    refine forM_congr fun edge hedge => ?_
    unfold validateSemanticSiteEdge
    rw [edgeWithEvidence_required, edgeWithEvidence_of_mem hsite (mem_edgesOfSite.1 hedge).2]
  unfold validateSemanticMapSite
  simp only [hedges]

theorem validateSemanticMaps_shared (hkeyed : KeyedBy DependencySite.id sites) :
    validateSemanticMaps S profiles nodes (withSiteEvidence edges sites) sites .required =
      validateSemanticMaps S profiles nodes edges sites .sharedWithSite := by
  unfold validateSemanticMaps
  rw [values_withSiteEvidence, forM_map,
    forM_congr fun edge _ => validateSemanticMapEdge_shared edge,
    foldlM_congr fun codeLinkSources site hsite =>
      validateSemanticMapSite_shared (getElem?_of_mem_values hkeyed hsite) codeLinkSources]

/-- **A graph whose edges share the evidence of their sites is checked as the graph with the evidence
copied into them is**: the same verdict, and the same error. -/
theorem shared_eq_required (S : StableIds) (nodes : NodeMap) (edges : EdgeMap) {sites : SiteMap}
    (hkeyed : KeyedBy DependencySite.id sites) :
    validateSemanticGraphMapsWithSharedSiteEvidence S nodes edges sites =
      validateSemanticGraphMaps S nodes (withSiteEvidence edges sites) sites := by
  unfold validateSemanticGraphMapsWithSharedSiteEvidence validateSemanticGraphMaps validateGraphMaps
  rw [validateSiteEdgeMaps_shared hkeyed, validateSemanticMaps_shared hkeyed]

end

namespace SharedSample

/-- A hash that nothing here depends on. -/
def stableIds : StableIds := ⟨.plain, fun _ => ⟨List.replicate 32 0, List.length_replicate⟩⟩

def evidence : Evidence :=
  ⟨.source, "parser", "1", some "a.txt", some 1, some 1, some 1, some 9, none, ∅⟩

def site : DependencySite where
  id := "site"
  source := "a"
  kind := "import"
  specifier := "b"
  resolutionStatus := .resolved
  targetIds := ["b"]
  profileId := "p"
  condition := .all []
  precision := .exact
  reason := none
  evidence := [evidence]

/-- An edge that leaves its evidence to the site. -/
def edge : GraphEdge where
  id := "edge"
  source := "a"
  target := "b"
  kind := "imports"
  siteId := some "site"
  phase := .source
  environment := none
  profileId := "p"
  condition := .all []
  resolutionStatus := .resolved
  precision := .exact
  generated := false
  evidence := []

def nodes : NodeMap :=
  ((∅ : NodeMap).insert "a" ⟨"a", "file", "a.txt", none, ∅⟩).insert "b" ⟨"b", "file", "b.txt", none, ∅⟩

def edges : EdgeMap := (∅ : EdgeMap).insert edge.id edge

def sites : SiteMap := (∅ : SiteMap).insert site.id site

end SharedSample

open SharedSample in
theorem shared_eq_required_bare :
    (validateSemanticGraphMaps stableIds nodes edges sites).isOk = false ∧
      (validateSemanticGraphMapsWithSharedSiteEvidence stableIds nodes edges sites).isOk = true := by
  have hkeyed : KeyedBy DependencySite.id sites :=
    KeyedBy.insert fun id site h => by
      rw [Std.ExtTreeMap.getElem?_empty] at h
      cases h
  rw [shared_eq_required stableIds nodes edges hkeyed]
  refine ⟨?_, ?_⟩ <;> decide +kernel

end Protocol
