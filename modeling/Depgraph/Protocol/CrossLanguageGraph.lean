import Depgraph.Library.Collect
import Depgraph.Protocol.CrossLanguage

/-!
# Complete cross-language graphs

`cross_language.rs`: `validate_cross_language_graph`, which checks four lists of records as one closed
graph, and the digest of an accepted graph.

What an accepted graph satisfies is stated about the lists (`ContractGraph.Closed`): which records
belong to the contract, how its edges and sites determine each other, and what the ledgers count.
`validateCrossLanguageGraph_closed` derives it from the checks.
-/

namespace Protocol

open Json Fallible Panics OrderedMap

/-! ### The lists -/

def uniqueMap {α : Type} (key : α → String) (label : String) (records : List α) :
    Except ProtocolError (Std.ExtTreeMap String α) :=
  records.foldlM (fun result record => do
    ensure (key record ∉ result)
      ("cross-language graph contains duplicate " ++ label ++ " " ++ key record)
    return result.insert (key record) record) ∅

def Profile.toValue (profile : Profile) : Value :=
  .object ([("id", .string profile.id), ("language", .string profile.language)] ++
    optionalMember "toolchain" profile.toolchain ++
    optionalMember "command" (profile.command.map .string) ++
    optionalMember "target" (profile.target.map .string) ++
    [("features", stringsValue profile.features), ("environment", profile.environment.toValue)] ++
    optionalMember "source_revision" (profile.sourceRevision.map .string) ++
    [("properties", profile.properties.toValue)])

section

variable (S : StableIds) (malformed : String → Value → String)

def validateCrossLanguageGraph (profiles : List Profile) (nodes : List GraphNode)
    (edges : List GraphEdge) (sites : List DependencySite) :
    Except (Failure ProtocolError) Unit := do
  let profiles ← orReject (uniqueMap Profile.id "profile" profiles)
  let nodes ← orReject (uniqueMap GraphNode.id "node" nodes)
  let edges ← orReject (uniqueMap GraphEdge.id "edge" edges)
  let sites ← orReject (uniqueMap DependencySite.id "dependency site" sites)
  validateCrossLanguageMaps S malformed profiles nodes edges sites

def crossLanguageGraphDigest (profiles : List Profile) (nodes : List GraphNode)
    (edges : List GraphEdge) (sites : List DependencySite) :
    Except (Failure ProtocolError) String := do
  validateCrossLanguageGraph S malformed profiles nodes edges sites
  let profiles ← orReject (uniqueMap Profile.id "profile" profiles)
  let nodes ← orReject (uniqueMap GraphNode.id "node" nodes)
  let edges ← orReject (uniqueMap GraphEdge.id "edge" edges)
  let sites ← orReject (uniqueMap DependencySite.id "dependency site" sites)
  return S.stableIdFromValue "cross-language-graph" (.object
    [("contract_version", .string crossLanguageContractVersion),
      ("profiles", .array ((values profiles).map Profile.toValue)),
      ("nodes", .array ((values nodes).map GraphNode.toValue)),
      ("sites", .array ((values sites).map DependencySite.toValue)),
      ("edges", .array ((values edges).map GraphEdge.toValue))])

end

/-! ### Records of the contract -/

/-- The four lists of a graph. -/
structure ContractGraph where
  profiles : List Profile
  nodes : List GraphNode
  edges : List GraphEdge
  sites : List DependencySite

namespace ContractGraph

variable (g : ContractGraph)

/-- The profile is one of those that claim the contract. -/
def claimed (id : String) : Bool :=
  g.profiles.any fun profile => profile.id == id && profile.claimsCrossLanguage

/-- The nodes of the contract: by their identity, or by the profile that they name. -/
def crossNodes : List GraphNode :=
  g.nodes.filter fun node => node.isCrossLanguage ||
    (node.properties.getStr "profile_id").any fun id => g.claimed id

/-- One of the nodes is a node of the contract. -/
def touches (ids : List String) : Bool :=
  ids.any fun id => g.crossNodes.any fun node => node.id == id

/-- The sites of the contract: by their profile, by a node they name, or by their evidence. -/
def crossSites : List DependencySite :=
  g.sites.filter fun site => g.claimed site.profileId || g.touches (site.source :: site.targetIds) ||
    site.evidence.any Evidence.claimsCrossLanguage

/-- The edges of the contract, by the same criteria. -/
def crossEdges : List GraphEdge :=
  g.edges.filter fun edge => g.claimed edge.profileId || g.touches [edge.source, edge.target] ||
    edge.evidence.any Evidence.claimsCrossLanguage

end ContractGraph

/-- The canonical identity of a node. -/
def GraphNode.contractIdentity (node : GraphNode) : Option CrossLanguageCanonicalIdentity :=
  node.properties["canonical_identity"]?.bind CrossLanguageCanonicalIdentity.ofValue

/-- The format that the primary evidence names. -/
def evidenceFormat (evidence : List Evidence) : Option CrossLanguageFormat :=
  evidence.head?.bind fun primary =>
    (CrossLanguageEvidenceProperties.ofProperties primary.properties).map
      CrossLanguageEvidenceProperties.format

/-- The ledger of a profile. -/
def Profile.contractLedger (profile : Profile) : Option CrossLanguageCompletenessLedger :=
  profile.properties[crossLanguageCompletenessProperty]?.bind CrossLanguageCompletenessLedger.ofValue

/-- An edge agrees with its site. -/
structure EdgeAgrees (edge : GraphEdge) (site : DependencySite) : Prop where
  siteId : edge.siteId = some site.id
  target : edge.target ∈ site.targetIds
  kind : edge.kind = site.kind
  source : edge.source = site.source
  profile : edge.profileId = site.profileId
  condition : edge.condition.beq site.condition = true
  status : edge.resolutionStatus = site.resolutionStatus
  precision : edge.precision = site.precision
  evidence : evidenceBeq edge.evidence site.evidence = true

namespace ContractGraph

variable (g : ContractGraph)

/-- The nodes that the ledger of a profile has to count, with their formats. -/
def nodesOf (profileId : String) : List GraphNode :=
  g.crossNodes.filter fun node => (node.contractIdentity.map (·.profileId)) == some profileId

def sitesOf (profileId : String) : List DependencySite :=
  g.crossSites.filter fun site => site.profileId == profileId

def edgesOf (profileId : String) : List GraphEdge :=
  g.crossEdges.filter fun edge => edge.profileId == profileId

/-- The ledger of a profile counts every record of the profile once. -/
structure Ledgered (profileId : String) (ledger : CrossLanguageCompletenessLedger) : Prop where
  nodes : ∀ node ∈ g.nodesOf profileId, ∃! entry, entry ∈ ledger.entries ∧
    node.contractIdentity.map (·.format) = some entry.format
  sites : ∀ site ∈ g.sitesOf profileId, ∃! entry, entry ∈ ledger.entries ∧
    evidenceFormat site.evidence = some entry.format
  edges : ∀ edge ∈ g.edgesOf profileId, ∃! entry, entry ∈ ledger.entries ∧
    evidenceFormat edge.evidence = some entry.format
  counts : ∀ entry ∈ ledger.entries,
    entry.nodeCount = (g.nodesOf profileId).countP
      (fun node => node.contractIdentity.map (·.format) = some entry.format) ∧
    entry.siteCount = (g.sitesOf profileId).countP
      (fun site => evidenceFormat site.evidence = some entry.format) ∧
    entry.edgeCount = (g.edgesOf profileId).countP
      (fun edge => evidenceFormat edge.evidence = some entry.format)
  nodeTotal : (ledger.entries.map (·.nodeCount)).sum = (g.nodesOf profileId).length
  siteTotal : (ledger.entries.map (·.siteCount)).sum = (g.sitesOf profileId).length
  edgeTotal : (ledger.entries.map (·.edgeCount)).sum = (g.edgesOf profileId).length
  externalTotal : (ledger.entries.map (·.externalCount)).sum =
    (g.sitesOf profileId).countP (·.resolutionStatus = .external)
  unresolvedTotal : (ledger.entries.map (·.unresolvedCount)).sum =
    (g.sitesOf profileId).countP (·.resolutionStatus = .unresolved)
  status : ∀ entry ∈ ledger.entries, entry.status = .complete ↔
    entry.unresolvedCount = 0 ∧ entry.skippedCount = 0 ∧ entry.reasons = []

/-- What an accepted graph satisfies. -/
structure Closed : Prop where
  nodesClaimed : ∀ node ∈ g.crossNodes, ∃ identity, node.contractIdentity = some identity ∧
    g.claimed identity.profileId = true
  sitesClaimed : ∀ site ∈ g.crossSites, g.claimed site.profileId = true
  edgesClaimed : ∀ edge ∈ g.crossEdges, g.claimed edge.profileId = true
  edgeSite : ∀ edge ∈ g.crossEdges, ∃ site ∈ g.crossSites, EdgeAgrees edge site
  siteEdge : ∀ site ∈ g.crossSites, site.targetIds.Nodup ∧ ∀ target ∈ site.targetIds,
    ∃! edge, edge ∈ g.crossEdges ∧ edge.siteId = some site.id ∧ edge.target = target
  ledgers : ∀ profile ∈ g.profiles, profile.claimsCrossLanguage = true →
    ∃ ledger, profile.contractLedger = some ledger ∧ g.Ledgered profile.id ledger

end ContractGraph

/-! ### The maps of the lists -/

/-- What is found once a new record has been inserted. -/
theorem lookup_insert_new {α : Type} {key : α → String} {read : Std.ExtTreeMap String α} {a : α}
    (hnew : key a ∉ read) (l : List α) (k : String) (v : α) :
    ((read.insert (key a) a)[k]? = some v ∨ v ∈ l ∧ key v = k) ↔
      (read[k]? = some v ∨ v ∈ a :: l ∧ key v = k) := by
  rw [getElem?_insert, List.mem_cons]
  split_ifs with hk
  · subst hk
    rw [not_mem_iff.1 hnew]
    constructor
    · rintro (h | ⟨h, hkey⟩)
      · obtain rfl := Option.some.inj h
        exact Or.inr ⟨Or.inl rfl, rfl⟩
      · exact Or.inr ⟨Or.inr h, hkey⟩
    · rintro (h | ⟨rfl | h, hkey⟩)
      · cases h
      · exact Or.inl rfl
      · exact Or.inr ⟨h, hkey⟩
  · constructor
    · rintro (h | ⟨h, hkey⟩)
      · exact Or.inl h
      · exact Or.inr ⟨Or.inr h, hkey⟩
    · rintro (h | ⟨rfl | h, hkey⟩)
      · exact Or.inl h
      · exact absurd hkey.symm hk
      · exact Or.inr ⟨h, hkey⟩

/-- Records whose keys are new stay new when a record with another key has been read. -/
theorem not_mem_insert_iff {α : Type} {key : α → String} {read : Std.ExtTreeMap String α} {a : α}
    {k : String} : k ∉ read.insert (key a) a ↔ k ≠ key a ∧ k ∉ read := by
  rw [not_mem_iff, not_mem_iff, getElem?_insert]
  split_ifs with hk <;> simp [hk]

/-- A list is accepted when its keys are distinct, and the map holds its records. -/
theorem uniqueMap_ok_iff {α : Type} {key : α → String} {label : String} {l : List α}
    {m : Std.ExtTreeMap String α} : uniqueMap key label l = .ok m ↔
      (l.map key).Nodup ∧ ∀ (k : String) (v : α), m[k]? = some v ↔ v ∈ l ∧ key v = k := by
  -- The records that have been read are in the accumulator.
  suffices ∀ read : Std.ExtTreeMap String α, l.foldlM (fun result record => do
      ensure (key record ∉ result)
        ("cross-language graph contains duplicate " ++ label ++ " " ++ key record)
      return result.insert (key record) record) read = .ok m ↔
      (∀ v ∈ l, key v ∉ read) ∧ (l.map key).Nodup ∧
        ∀ (k : String) (v : α), m[k]? = some v ↔ read[k]? = some v ∨ v ∈ l ∧ key v = k by
    rw [uniqueMap, this]
    simp
  induction l with
  | nil =>
    intro read
    simp only [List.foldlM_nil, List.not_mem_nil, false_implies, implies_true, List.map_nil,
      List.nodup_nil, true_and, false_and, or_false]
    refine ⟨fun h => ?_, fun h => ?_⟩
    · obtain rfl := Except.ok.inj h
      exact fun _ _ => Iff.rfl
    · exact congrArg Except.ok (Std.ExtTreeMap.ext_getElem? fun k =>
        Option.ext fun v => (h k v).symm)
  | cons a l ih =>
    intro read
    have hturn : ∀ r, (do
        ensure (key a ∉ read)
          ("cross-language graph contains duplicate " ++ label ++ " " ++ key a)
        return read.insert (key a) a) = .ok r ↔ key a ∉ read ∧ r = read.insert (key a) a := by
      intro r
      rw [bind_eq_ok]
      constructor
      · rintro ⟨_, hnew, hr⟩
        exact ⟨ensure_eq_ok.1 hnew, (Except.ok.inj hr).symm⟩
      · rintro ⟨hnew, rfl⟩
        exact ⟨(), ensure_eq_ok.2 hnew, rfl⟩
    have hdistinct : (∀ v ∈ l, key v ≠ key a) ↔ key a ∉ l.map key := by
      rw [List.mem_map, not_exists]
      exact forall_congr' fun v => not_and.symm
    rw [List.foldlM_cons, bind_eq_ok]
    simp only [hturn, List.forall_mem_cons, List.map_cons, List.nodup_cons]
    constructor
    · rintro ⟨r, ⟨hnew, rfl⟩, hrest⟩
      obtain ⟨hfresh, hnodup, hlookup⟩ := (ih _).1 hrest
      simp only [not_mem_insert_iff] at hfresh
      refine ⟨⟨hnew, fun v hv => (hfresh v hv).2⟩,
        ⟨hdistinct.1 fun v hv => (hfresh v hv).1, hnodup⟩, fun k v => ?_⟩
      rw [hlookup, lookup_insert_new hnew]
    · rintro ⟨⟨hnew, hfresh⟩, ⟨hother, hnodup⟩, hlookup⟩
      refine ⟨_, ⟨hnew, rfl⟩, (ih _).2 ⟨fun v hv => ?_, hnodup, fun k v => ?_⟩⟩
      · exact not_mem_insert_iff.2 ⟨hdistinct.2 hother v hv, hfresh v hv⟩
      · rw [hlookup, lookup_insert_new hnew]

/-- The map does not depend on the order of the list. -/
theorem uniqueMap_perm {α : Type} {key : α → String} {label : String} {l l' : List α}
    (h : l.Perm l') {m : Std.ExtTreeMap String α} :
    uniqueMap key label l = .ok m ↔ uniqueMap key label l' = .ok m := by
  simp only [uniqueMap_ok_iff, (h.map key).nodup_iff, h.mem_iff]

theorem uniqueMap_values {α : Type} {key : α → String} {label : String} {l : List α}
    {m : Std.ExtTreeMap String α} (h : uniqueMap key label l = .ok m) : (values m).Perm l := by
  obtain ⟨hnodup, hlookup⟩ := uniqueMap_ok_iff.1 h
  have hcollects : Collects key (fun a => (fun _ => true) a = true) Eq l m := by
    refine ⟨fun k v hv => ?_, fun a ha _ => ⟨a, rfl, (hlookup _ a).2 ⟨ha, rfl⟩⟩⟩
    obtain ⟨hmem, hkey⟩ := (hlookup k v).1 hv
    exact ⟨v, hmem, rfl, hkey, rfl⟩
  have hid (a v : α) (heq : a = v) : id v = a := heq.symm
  have hperm := hcollects.values_perm hid hnodup
  rwa [List.map_id, List.filter_true] at hperm

/-! ### What the checks have passed -/

namespace ContractGraph

section

variable {S : StableIds} {malformed : String → Value → String} {g : ContractGraph}
  {profiles claimed : ProfileMap} {nodes : NodeMap} {crossNodes : CrossNodes} {edges : EdgeMap}
  {sites : SiteMap} {crossSites : CrossSites} {crossEdges : CrossEdges}

theorem claimed_iff {id : String} : g.claimed id = true ↔
    ∃ profile ∈ g.profiles, profile.claimsCrossLanguage = true ∧ profile.id = id := by
  simp only [ContractGraph.claimed, List.any_eq_true, Bool.and_eq_true, beq_iff_eq, and_comm]

theorem claimedProfiles_ok (hprofiles : uniqueMap Profile.id "profile" g.profiles = .ok profiles)
    (h : claimedProfiles S malformed profiles = .ok claimed) :
    (∀ profile, profile ∈ values claimed ↔
      profile ∈ g.profiles ∧ profile.claimsCrossLanguage = true) ∧
    (∀ id, id ∈ claimed ↔ g.claimed id = true) ∧
    ∀ profile ∈ g.profiles, profile.claimsCrossLanguage = true →
      validateCrossLanguageProfile S malformed profile = .ok () := by
  simp only [claimedProfiles, bind_eq_ok, forM_eq_ok] at h
  obtain ⟨_, hvalid, hclaimed⟩ := h
  have hperm := uniqueMap_values hprofiles
  have hmem (profile : Profile) : profile ∈ (values profiles).filter Profile.claimsCrossLanguage ↔
      profile ∈ g.profiles ∧ profile.claimsCrossLanguage = true := by
    rw [List.mem_filter, hperm.mem_iff]
  have hnodup : (((values profiles).filter Profile.claimsCrossLanguage).map Profile.id).Nodup :=
    ((hperm.map Profile.id).nodup_iff.2 (uniqueMap_ok_iff.1 hprofiles).1).sublist
      (List.filter_sublist.map Profile.id)
  rw [← Except.ok.inj hclaimed]
  refine ⟨fun profile => ?_, fun id => ?_, fun profile hp hclaims =>
    hvalid profile ((hmem profile).2 ⟨hp, hclaims⟩)⟩
  · rw [OrderedMap.mem_values, ← hmem]
    constructor
    · rintro ⟨k, hk⟩
      exact ((getElem?_indexed hnodup).1 hk).1
    · exact fun hp => ⟨profile.id, (getElem?_indexed hnodup).2 ⟨hp, rfl⟩⟩
  · rw [mem_iff, claimed_iff]
    refine exists_congr fun profile => ?_
    rw [getElem?_indexed hnodup, hmem, and_assoc]

/-- The criterion for the nodes of the contract. -/
def isCrossNode (g : ContractGraph) (node : GraphNode) : Bool :=
  node.isCrossLanguage || (node.properties.getStr "profile_id").any fun id => g.claimed id

theorem claimedNodes_ok (hnodes : uniqueMap GraphNode.id "node" g.nodes = .ok nodes)
    (hclaimed : ∀ id, id ∈ claimed ↔ g.claimed id = true)
    (h : claimedNodes S malformed claimed nodes = .ok crossNodes) :
    Collects GraphNode.id (g.isCrossNode · = true)
      (fun node entry => entry.1 = node ∧
        validateCrossLanguageNode S malformed claimed node = .ok entry.2) g.nodes crossNodes := by
  have hcontains : claimed.contains = g.claimed := by
    funext id
    exact Bool.eq_iff_iff.2 (hclaimed id)
  simp only [claimedNodes, bind_eq_ok, hcontains] at h
  obtain ⟨identified, hidentified, hindexed⟩ := h
  have hentry {node : GraphNode} {entry : CrossNode} (hturn : (do
      let identity ← validateCrossLanguageNode S malformed claimed node
      return (node, identity)) = Except.ok entry) :
      entry.1 = node ∧ validateCrossLanguageNode S malformed claimed node = .ok entry.2 := by
    obtain ⟨identity, hidentity, hpair⟩ := bind_eq_ok.1 hturn
    obtain rfl := Except.ok.inj hpair
    exact ⟨rfl, hidentity⟩
  have hfirst : identified.map Prod.fst = (values nodes).filter g.isCrossNode :=
    map_of_mapM hidentified fun node entry hturn => (hentry hturn).1
  have hnodup : ((identified.map Prod.fst).map GraphNode.id).Nodup := by
    rw [hfirst]
    exact (((uniqueMap_values hnodes).map GraphNode.id).nodup_iff.2
      (uniqueMap_ok_iff.1 hnodes).1).sublist (List.filter_sublist.map GraphNode.id)
  have hcollects := collects_indexed hnodup
  rw [Except.ok.inj hindexed] at hcollects
  refine (hcollects.of_mem_iff fun node => ?_).mono fun node entry h => ?_
  · rw [hfirst, List.mem_filter, (uniqueMap_values hnodes).mem_iff, and_true]
  · obtain ⟨hmem, hfst⟩ := h
    obtain ⟨source, -, hturn⟩ := exists_of_mem_mapM hidentified hmem
    obtain ⟨hsource, hvalid⟩ := hentry hturn
    exact ⟨hfst, by rw [← hfst, hsource, hvalid]⟩

theorem isCrossNode_filter : g.crossNodes = g.nodes.filter g.isCrossNode := rfl

theorem mem_crossNodes_iff (h : Collects GraphNode.id (g.isCrossNode · = true)
    (fun node entry => entry.1 = node ∧
      validateCrossLanguageNode S malformed claimed node = .ok entry.2) g.nodes crossNodes)
    {id : String} : id ∈ crossNodes ↔ ∃ node ∈ g.crossNodes, node.id = id := by
  rw [h.mem_iff, isCrossNode_filter]
  simp only [List.mem_filter, and_assoc]

theorem touches_iff {ids : List String} :
    g.touches ids = true ↔ ∃ id ∈ ids, ∃ node ∈ g.crossNodes, node.id = id := by
  simp only [touches, List.any_eq_true, beq_iff_eq]

/-- The criterion for the sites of the contract. -/
def isCrossSite (g : ContractGraph) (site : DependencySite) : Bool :=
  g.claimed site.profileId || g.touches (site.source :: site.targetIds) ||
    site.evidence.any Evidence.claimsCrossLanguage

/-- The criterion for the edges of the contract. -/
def isCrossEdge (g : ContractGraph) (edge : GraphEdge) : Bool :=
  g.claimed edge.profileId || g.touches [edge.source, edge.target] ||
    edge.evidence.any Evidence.claimsCrossLanguage

theorem collectCrossSites_ok (hsites : uniqueMap DependencySite.id "dependency site" g.sites =
      .ok sites) (hclaimed : ∀ id, id ∈ claimed ↔ g.claimed id = true)
    (hnodes : ∀ id, id ∈ crossNodes ↔ ∃ node ∈ g.crossNodes, node.id = id)
    (h : (values sites).foldlM (collectCrossSite S malformed claimed nodes crossNodes) ∅ =
      .ok crossSites) :
    Collects DependencySite.id (g.isCrossSite · = true)
      (fun site entry => entry.1 = site ∧ g.claimed site.profileId = true ∧
        CrossLanguageRelationKind.parse site.kind = some entry.2 ∧
        validateCrossLanguageSite S malformed nodes crossNodes site entry.2 = .ok ())
      g.sites crossSites := by
  have hperm := uniqueMap_values hsites
  have hnodup : ((values sites).map DependencySite.id).Nodup :=
    (hperm.map DependencySite.id).nodup_iff.2 (uniqueMap_ok_iff.1 hsites).1
  have hskip (site : DependencySite) : g.isCrossSite site = false ↔
      site.profileId ∉ claimed ∧ (∀ id ∈ site.source :: site.targetIds, id ∉ crossNodes) ∧
        site.evidence.any Evidence.claimsCrossLanguage = false := by
    have htouches : g.touches (site.source :: site.targetIds) = false ↔
        ∀ id ∈ site.source :: site.targetIds, id ∉ crossNodes := by
      rw [Bool.eq_false_iff, ne_eq, touches_iff, not_exists]
      exact forall_congr' fun id => by rw [not_and, hnodes]
    rw [isCrossSite, Bool.or_eq_false_iff, Bool.or_eq_false_iff, htouches, hclaimed,
      Bool.not_eq_true, and_assoc]
  refine (collects_foldlM (fun m site m' hturn => ?_) hnodup h).of_mem_iff fun site => by
    rw [hperm.mem_iff]
  unfold collectCrossSite at hturn
  split_ifs at hturn with hcriteria
  · exact Or.inl ⟨by rw [(hskip site).2 hcriteria]; decide, (Except.ok.inj hturn).symm⟩
  · simp only [bind_eq_ok, ensure_eq_ok, required_eq_ok] at hturn
    obtain ⟨_, hprofile, relation, hrelation, _, hvalid, hinsert⟩ := hturn
    refine Or.inr ⟨?_, (site, relation), ⟨rfl, (hclaimed _).1 hprofile, hrelation, hvalid⟩,
      (Except.ok.inj hinsert).symm⟩
    rw [← Bool.not_eq_false, hskip]
    exact hcriteria

theorem collectCrossEdges_ok (hedges : uniqueMap GraphEdge.id "edge" g.edges = .ok edges)
    (hclaimed : ∀ id, id ∈ claimed ↔ g.claimed id = true)
    (hnodes : ∀ id, id ∈ crossNodes ↔ ∃ node ∈ g.crossNodes, node.id = id)
    (h : (values edges).foldlM (collectCrossEdge S malformed claimed crossNodes) ∅ =
      .ok crossEdges) :
    Collects GraphEdge.id (g.isCrossEdge · = true)
      (fun edge entry => entry.1 = edge ∧ g.claimed edge.profileId = true ∧
        CrossLanguageRelationKind.parse edge.kind = some entry.2 ∧
        validateCrossLanguageEdge S malformed edge entry.2 = .ok ())
      g.edges crossEdges := by
  have hperm := uniqueMap_values hedges
  have hnodup : ((values edges).map GraphEdge.id).Nodup :=
    (hperm.map GraphEdge.id).nodup_iff.2 (uniqueMap_ok_iff.1 hedges).1
  have hskip (edge : GraphEdge) : g.isCrossEdge edge = false ↔
      edge.profileId ∉ claimed ∧ edge.source ∉ crossNodes ∧ edge.target ∉ crossNodes ∧
        edge.evidence.any Evidence.claimsCrossLanguage = false := by
    have htouches : g.touches [edge.source, edge.target] = false ↔
        edge.source ∉ crossNodes ∧ edge.target ∉ crossNodes := by
      have hpair : (∃ id ∈ [edge.source, edge.target], ∃ node ∈ g.crossNodes, node.id = id) ↔
          edge.source ∈ crossNodes ∨ edge.target ∈ crossNodes := by
        simp only [List.mem_cons, List.not_mem_nil, or_false, exists_eq_or_imp, exists_eq_left,
          hnodes]
      rw [Bool.eq_false_iff, ne_eq, touches_iff, hpair, not_or]
    rw [isCrossEdge, Bool.or_eq_false_iff, Bool.or_eq_false_iff, htouches, hclaimed,
      Bool.not_eq_true, and_assoc, and_assoc]
  refine (collects_foldlM (fun m edge m' hturn => ?_) hnodup h).of_mem_iff fun edge => by
    rw [hperm.mem_iff]
  unfold collectCrossEdge at hturn
  split_ifs at hturn with hcriteria
  · exact Or.inl ⟨by rw [(hskip edge).2 hcriteria]; decide, (Except.ok.inj hturn).symm⟩
  · simp only [bind_eq_ok, ensure_eq_ok, required_eq_ok] at hturn
    obtain ⟨_, hprofile, relation, hrelation, _, hvalid, hinsert⟩ := hturn
    refine Or.inr ⟨?_, (edge, relation), ⟨rfl, (hclaimed _).1 hprofile, hrelation, hvalid⟩,
      (Except.ok.inj hinsert).symm⟩
    rw [← Bool.not_eq_false, hskip]
    exact hcriteria

/-! ### Edges and sites -/

/-- A list as long as a list without repeats that has the same elements has no repeats either. -/
theorem nodup_of_same_elements {α : Type} {l l' : List α} (h : l.length = l'.length)
    (hsame : ∀ a, a ∈ l ↔ a ∈ l') (hnodup : l'.Nodup) : l.Nodup := by
  have hsub : l'.Subperm l := List.subperm_of_subset hnodup fun a ha => (hsame a).2 ha
  exact (hsub.perm_of_length_le h.le).nodup_iff.1 hnodup

theorem isChain_lt_nodup {l : List String} (h : l.IsChain (· < ·)) : l.Nodup := by
  have : IsTrans String (· < ·) := ⟨fun _ _ _ => lt_trans⟩
  exact (List.isChain_iff_pairwise.1 h).imp fun hlt => hlt.ne

theorem asStr_of_parse {kind : String} {relation : CrossLanguageRelationKind}
    (h : CrossLanguageRelationKind.parse kind = some relation) : relation.asStr = kind := by
  simpa using List.find?_some h

/-- What an entry for an edge of the contract says. -/
abbrev IsEdgeEntry (S : StableIds) (malformed : String → Value → String) (g : ContractGraph)
    (edge : GraphEdge) (entry : GraphEdge × CrossLanguageRelationKind) : Prop :=
  entry.1 = edge ∧ g.claimed edge.profileId = true ∧
    CrossLanguageRelationKind.parse edge.kind = some entry.2 ∧
    validateCrossLanguageEdge S malformed edge entry.2 = .ok ()

/-- What an entry for a site of the contract says. -/
abbrev IsSiteEntry (S : StableIds) (malformed : String → Value → String) (g : ContractGraph)
    (nodes : NodeMap) (crossNodes : CrossNodes) (site : DependencySite)
    (entry : DependencySite × CrossLanguageRelationKind) : Prop :=
  entry.1 = site ∧ g.claimed site.profileId = true ∧
    CrossLanguageRelationKind.parse site.kind = some entry.2 ∧
    validateCrossLanguageSite S malformed nodes crossNodes site entry.2 = .ok ()

theorem validateCrossLanguageSite_targets {site : DependencySite}
    {relation : CrossLanguageRelationKind}
    (h : validateCrossLanguageSite S malformed nodes crossNodes site relation = .ok ()) :
    site.targetIds.Nodup := by
  simp only [validateCrossLanguageSite, bind_eq_ok, ensure_eq_ok] at h
  obtain ⟨_, -, _, -, _, -, _, hsorted, -⟩ := h
  exact isChain_lt_nodup hsorted

/-- **Edges and sites determine each other.** -/
theorem closure_ok (hnodup : (g.edges.map GraphEdge.id).Nodup)
    (hsites : Collects DependencySite.id (g.isCrossSite · = true)
      (IsSiteEntry S malformed g nodes crossNodes) g.sites crossSites)
    (hedges : Collects GraphEdge.id (g.isCrossEdge · = true) (IsEdgeEntry S malformed g)
      g.edges crossEdges)
    (h : validateCrossLanguageSiteEdgeClosure crossSites crossEdges = .ok ()) :
    (∀ edge ∈ g.crossEdges, ∃ site ∈ g.crossSites, EdgeAgrees edge site) ∧
    ∀ site ∈ g.crossSites, site.targetIds.Nodup ∧ ∀ target ∈ site.targetIds,
      ∃! edge, edge ∈ g.crossEdges ∧ edge.siteId = some site.id ∧ edge.target = target := by
  have hedgesPerm : ((values crossEdges).map Prod.fst).Perm g.crossEdges :=
    hedges.values_perm (fun _ _ hfound => hfound.1) hnodup
  simp only [validateCrossLanguageSiteEdgeClosure, bind_eq_ok, forM_eq_ok] at h
  obtain ⟨_, hreferences, hclosures⟩ := h
  -- The check of one site, about the lists.
  have hsite : ∀ site ∈ g.crossSites, site.targetIds.Nodup ∧
      (g.crossEdges.filter (·.siteId == some site.id)).length = site.targetIds.length ∧
      (∀ target, (∃ edge ∈ g.crossEdges, edge.siteId = some site.id ∧ edge.target = target) ↔
        target ∈ site.targetIds) ∧
      ∀ edge ∈ g.crossEdges, edge.siteId = some site.id → edge.target ∈ site.targetIds →
        EdgeAgrees edge site := by
    intro site hmem
    obtain ⟨hsiteMem, hcriterion⟩ := List.mem_filter.1 hmem
    obtain ⟨entry, ⟨rfl, -, hrelation, hvalid⟩, hlookup⟩ := hsites.complete site hsiteMem hcriterion
    have hclosure := hclosures entry (OrderedMap.mem_values.2 ⟨_, hlookup⟩)
    simp only [validateCrossSiteClosure, bind_eq_ok, ensure_eq_ok, forM_eq_ok] at hclosure
    obtain ⟨_, hlength, _, htargets, hagree⟩ := hclosure
    have hfilter := hedgesPerm.filter (·.siteId == some entry.1.id)
    refine ⟨validateCrossLanguageSite_targets hvalid, hfilter.length_eq.symm.trans hlength,
      fun target => ?_, fun edge hedge hedgeSite htarget => ?_⟩
    · rw [← mem_distinctStrings, ← htargets, mem_distinctStrings, List.mem_map]
      refine exists_congr fun edge => ?_
      rw [hfilter.mem_iff, List.mem_filter, beq_iff_eq, and_assoc]
    · have hedgeMem : edge ∈ ((values crossEdges).map Prod.fst).filter
          (·.siteId == some entry.1.id) :=
        hfilter.mem_iff.2 (List.mem_filter.2 ⟨hedge, beq_iff_eq.2 hedgeSite⟩)
      obtain ⟨hkind, hsource, hprofile, hcondition, hstatus, hprecision, hevidence⟩ :=
        hagree edge hedgeMem
      exact ⟨hedgeSite, htarget, hkind.trans (asStr_of_parse hrelation), hsource, hprofile,
        hcondition, hstatus, hprecision, hevidence⟩
  refine ⟨fun edge hedge => ?_, fun site hmem => ?_⟩
  · obtain ⟨hedgeMem, hcriterion⟩ := List.mem_filter.1 hedge
    obtain ⟨entry, ⟨rfl, -⟩, hlookup⟩ := hedges.complete edge hedgeMem hcriterion
    have hreference := hreferences entry (OrderedMap.mem_values.2 ⟨_, hlookup⟩)
    simp only [required_eq_ok, ensure_eq_ok] at hreference
    obtain ⟨siteId, hsiteId, hknown⟩ := hreference
    obtain ⟨site, hsiteMem, hsiteCriterion, rfl⟩ := hsites.mem_iff.1 hknown
    have hsiteCross : site ∈ g.crossSites := List.mem_filter.2 ⟨hsiteMem, hsiteCriterion⟩
    obtain ⟨-, -, htargets, hagree⟩ := hsite site hsiteCross
    exact ⟨site, hsiteCross, hagree entry.1 hedge hsiteId
      ((htargets _).1 ⟨entry.1, hedge, hsiteId, rfl⟩)⟩
  · obtain ⟨hnodup, hlength, htargets, -⟩ := hsite site hmem
    refine ⟨hnodup, fun target htarget => ?_⟩
    obtain ⟨edge, hedge, hedgeSite, hedgeTarget⟩ := (htargets target).2 htarget
    refine ⟨edge, ⟨hedge, hedgeSite, hedgeTarget⟩, fun other hall => ?_⟩
    obtain ⟨hother, hotherSite, hotherTarget⟩ := hall
    have hdistinct : ((g.crossEdges.filter (·.siteId == some site.id)).map
        GraphEdge.target).Nodup := by
      refine nodup_of_same_elements (by rw [List.length_map, hlength]) (fun t => ?_) hnodup
      rw [← htargets, List.mem_map]
      refine exists_congr fun e => ?_
      rw [List.mem_filter, beq_iff_eq, and_assoc]
    exact List.inj_on_of_nodup_map hdistinct
      (List.mem_filter.2 ⟨hother, beq_iff_eq.2 hotherSite⟩)
      (List.mem_filter.2 ⟨hedge, beq_iff_eq.2 hedgeSite⟩) (hotherTarget.trans hedgeTarget.symm)

/-! ### Ledgers -/

theorem validateCrossLanguageNode_identity {node : GraphNode}
    {identity : CrossLanguageCanonicalIdentity}
    (h : validateCrossLanguageNode S malformed claimed node = .ok identity) :
    node.contractIdentity = some identity ∧ identity.profileId ∈ claimed := by
  simp only [validateCrossLanguageNode, bind_eq_ok, required_eq_ok, ensure_eq_ok] at h
  obtain ⟨_, -, value, hvalue, read, hread, _, ⟨-, hprofile, -⟩, _, -, _, -, hreturn⟩ := h
  obtain rfl := Except.ok.inj hreturn
  exact ⟨by rw [GraphNode.contractIdentity, hvalue, Option.bind_some, hread], hprofile⟩

/-- The items that an entry counts, when every item has evidence. -/
theorem countedItems_ok {α : Type} {profileId : String} {format : CrossLanguageFormat}
    {owner : α → String} {evidence : α → List Evidence} {items : List α}
    (h : ∀ item ∈ items, ∃ primary, (evidence item).head? = some primary) :
    countedItems malformed profileId format owner evidence items =
      .ok ((items.filter fun item => owner item == profileId).filter fun item =>
        evidenceFormat (evidence item) = some format) := by
  rw [List.filter_filter]
  refine filterM_of_ok fun item hitem => ?_
  obtain ⟨primary, hprimary⟩ := h item hitem
  by_cases howner : owner item = profileId
  · have hat : itemAt (ε := ProtocolError) (evidence item) 0 = .ok primary := by
      rw [itemAt, ← List.head?_eq_getElem?, hprimary]
      rfl
    have hformat : evidenceFormat (evidence item) =
        (CrossLanguageEvidenceProperties.ofProperties primary.properties).map
          CrossLanguageEvidenceProperties.format := by
      rw [evidenceFormat, hprimary, Option.bind_some]
    rw [if_pos howner, hat, ok_bind, beq_iff_eq.2 howner, Bool.and_true, hformat,
      parseEvidenceProperties]
    cases CrossLanguageEvidenceProperties.ofProperties primary.properties with
    | some properties => simp [required, pure, Except.pure]
    | none => rfl
  · rw [if_neg howner, beq_eq_false_iff_ne.2 howner, Bool.and_false]
    rfl

/-- The formats of an accepted ledger are distinct and its statuses agree with its counts. -/
theorem validateCrossLanguageProfile_ledger {profile : Profile}
    (h : validateCrossLanguageProfile S malformed profile = .ok ()) :
    ∃ ledger, profile.contractLedger = some ledger ∧
      (ledger.entries.map CrossLanguageFormatCoverage.format).Nodup ∧
      ∀ entry ∈ ledger.entries, entry.status = .complete ↔
        entry.unresolvedCount = 0 ∧ entry.skippedCount = 0 ∧ entry.reasons = [] := by
  simp only [validateCrossLanguageProfile, bind_eq_ok, ensure_eq_ok, parseProperty,
    required_eq_ok] at h
  obtain ⟨_, -, _, -, _, -, _, -, _, -, _, -, _, -, _, -, ledger, ⟨value, hvalue, hread⟩, hshape⟩ := h
  simp only [validateLedgerShape, bind_eq_ok, ensure_eq_ok, forM_eq_ok] at hshape
  obtain ⟨_, -, _, hformats, _, hentries, -⟩ := hshape
  refine ⟨ledger, by rw [Profile.contractLedger, hvalue, Option.bind_some, hread], ?_, ?_⟩
  · obtain ⟨-, hchain⟩ := ensure_eq_ok.1 hformats
    have : IsTrans CrossLanguageFormat fun a b => a.rank < b.rank := ⟨fun _ _ _ => lt_trans⟩
    refine (List.isChain_iff_pairwise.1 hchain).imp fun {a b} hlt heq => ?_
    exact absurd (heq ▸ hlt) (lt_irrefl _)
  · intro entry hentry
    have hcoverage := hentries entry hentry
    simp only [validateLedgerCoverage, bind_eq_ok, ensure_eq_ok] at hcoverage
    obtain ⟨_, -, _, -, _, -, hcomplete, hincomplete⟩ := hcoverage
    cases hstatus : entry.status with
    | complete =>
      rw [hstatus] at hcomplete
      simp only [true_and, not_or, not_lt, Nat.le_zero, ne_eq, not_not] at hcomplete
      exact iff_of_true rfl hcomplete
    | incomplete =>
      rw [hstatus] at hincomplete
      simp only [true_and, not_not] at hincomplete
      refine iff_of_false (by decide) ?_
      rintro ⟨hunresolved, hskipped, hreasons⟩
      rcases hincomplete with h | h | h
      · omega
      · omega
      · exact h hreasons

/-! ### Formats -/

theorem exists_of_beqItems {ms ns : List (String × Value)} (hkeys : ms.map Prod.fst = ns.map Prod.fst)
    (hvalues : beqItems (ms.map Prod.snd) (ns.map Prod.snd) = true) {k : String} {v : Value}
    (h : (k, v) ∈ ms) : ∃ w, (k, w) ∈ ns ∧ v.beq w = true := by
  induction ms generalizing ns with
  | nil => cases h
  | cons m ms ih =>
    cases ns with
    | nil => cases hkeys
    | cons n ns =>
      obtain ⟨hkey, hkeys⟩ := List.cons.inj hkeys
      rw [List.map_cons, List.map_cons, beqItems, Bool.and_eq_true] at hvalues
      rcases List.mem_cons.1 h with rfl | h
      · have hn : (k, n.2) = n := Prod.ext hkey rfl
        exact ⟨n.2, hn ▸ List.mem_cons_self, hvalues.1⟩
      · obtain ⟨w, hw, hbeq⟩ := ih hkeys hvalues.2 h
        exact ⟨w, List.mem_cons_of_mem _ hw, hbeq⟩

/-- Equal values name the same variant. -/
theorem variantOf_of_beq {α : Type} {asStr : α → String} {all : List α} {v w : Value} {a b : α}
    (h : v.beq w = true) (hv : variantOf asStr all v = some a) (hw : variantOf asStr all w = some b) :
    a = b := by
  unfold variantOf at hv
  split at hv
  · cases w with
    | string t =>
      obtain rfl := beq_iff_eq.1 h
      exact Option.some.inj (hv.symm.trans hw)
    | _ => cases h
  · rename_i name
    unfold variantOf at hw
    split at hw
    · cases h
    · rename_i name'
      have hname : name = name' := by
        by_contra hne
        rw [Value.beq, beqMembers, List.lookup_cons, beq_eq_false_iff_ne.2 hne] at h
        simp at h
      exact Option.some.inj (hv.symm.trans (hname ▸ hw))
    · cases hw
  · cases hv

theorem format_of_evidenceBeq {a b : List Evidence} {f f' : CrossLanguageFormat}
    (h : evidenceBeq a b = true) (ha : evidenceFormat a = some f)
    (hb : evidenceFormat b = some f') : f = f' := by
  have hread {evidence : List Evidence} {format : CrossLanguageFormat}
      (hformat : evidenceFormat evidence = some format) : ∃ primary rest value,
      evidence = primary :: rest ∧ primary.properties["format"]? = some value ∧
        CrossLanguageFormat.ofValue value = some format := by
    obtain ⟨primary, hprimary, hproperties⟩ := Option.bind_eq_some_iff.1 hformat
    obtain ⟨properties, hread, rfl⟩ := Option.map_eq_some_iff.1 hproperties
    obtain ⟨rest, rfl⟩ := List.head?_eq_some_iff.1 hprimary
    simp only [CrossLanguageEvidenceProperties.ofProperties, Option.bind_eq_bind,
      Option.bind_eq_some_iff, Option.pure_def, Option.some.injEq] at hread
    obtain ⟨_, -, format, ⟨value, hvalue, hvariant⟩, hrest⟩ := hread
    obtain ⟨_, -, _, -, _, -, _, -, _, -, _, -, _, -, rfl⟩ := hrest
    exact ⟨primary, rest, value, rfl, hvalue, hvariant⟩
  obtain ⟨first, rest, value, rfl, hvalue, hformat⟩ := hread ha
  obtain ⟨first', rest', value', rfl, hvalue', hformat'⟩ := hread hb
  rw [evidenceBeq, List.zip_cons_cons, List.all_cons, Bool.and_eq_true, Bool.and_eq_true] at h
  have hbeq : first.properties.beq first'.properties = true := by
    have := h.2.1
    simp only [Evidence.beq, Bool.and_eq_true] at this
    exact this.2
  rw [Properties.beq, Bool.and_eq_true, beq_iff_eq] at hbeq
  obtain ⟨w, hw, hvw⟩ := exists_of_beqItems hbeq.1 hbeq.2 (mem_toList.2 hvalue)
  obtain rfl := Option.some.inj ((mem_toList.1 hw).symm.trans hvalue')
  exact variantOf_of_beq hvw hformat hformat'

/-- The evidence of a record names a format. -/
theorem exists_evidenceFormat {owner profileId : String} {relation : CrossLanguageRelationKind}
    {evidence : List Evidence} {properties : CrossLanguageEvidenceProperties}
    (h : validateCrossLanguageEvidence S malformed owner profileId relation evidence =
      .ok properties) : evidenceFormat evidence = some properties.format := by
  simp only [validateCrossLanguageEvidence, bind_eq_ok, required_eq_ok, parseEvidenceProperties] at h
  obtain ⟨primary, hprimary, read, hread, _, -, _, -, _, -, _, -, hreturn⟩ := h
  obtain rfl := Except.ok.inj hreturn
  rw [evidenceFormat, hprimary, Option.bind_some, hread]
  rfl

theorem exists_siteFormat {site : DependencySite} {relation : CrossLanguageRelationKind}
    (h : validateCrossLanguageSite S malformed nodes crossNodes site relation = .ok ()) :
    ∃ format, evidenceFormat site.evidence = some format := by
  simp only [validateCrossLanguageSite, bind_eq_ok] at h
  obtain ⟨_, -, properties, hproperties, -⟩ := h
  exact ⟨_, exists_evidenceFormat hproperties⟩

theorem exists_edgeFormat {edge : GraphEdge} {relation : CrossLanguageRelationKind}
    (h : validateCrossLanguageEdge S malformed edge relation = .ok ()) :
    ∃ format, evidenceFormat edge.evidence = some format := by
  simp only [validateCrossLanguageEdge, bind_eq_ok] at h
  obtain ⟨_, -, properties, hproperties, -⟩ := h
  exact ⟨_, exists_evidenceFormat hproperties⟩

theorem exists_head_of_format {evidence : List Evidence} {format : CrossLanguageFormat}
    (h : evidenceFormat evidence = some format) : ∃ primary, evidence.head? = some primary := by
  obtain ⟨primary, hprimary, -⟩ := Option.bind_eq_some_iff.1 h
  exact ⟨primary, hprimary⟩

/-! ### What the ledgers count -/

section Counts

open Counting

variable {ledger : CrossLanguageCompletenessLedger}

/-- Items whose formats have entries are counted once, entry by entry. -/
theorem sum_entries {α : Type} (format : α → Option CrossLanguageFormat) {items : List α}
    (hnodup : (ledger.entries.map CrossLanguageFormatCoverage.format).Nodup)
    (h : ∀ item ∈ items, ∃ entry ∈ ledger.entries, format item = some entry.format) :
    (ledger.entries.map fun entry => items.countP fun item => format item = some entry.format).sum =
      items.length := by
  have hclasses : ((ledger.entries.map CrossLanguageFormatCoverage.format).map some).Nodup :=
    hnodup.map (Option.some_injective _)
  have hsum := countP_sum format hclasses fun item hitem => by
    obtain ⟨entry, hentry, hformat⟩ := h item hitem
    rw [hformat]
    exact List.mem_map_of_mem (List.mem_map_of_mem hentry)
  rw [List.map_map, List.map_map] at hsum
  exact hsum

/-- The entry for a format is unique. -/
theorem existsUnique_entry (hnodup : (ledger.entries.map CrossLanguageFormatCoverage.format).Nodup)
    {format : Option CrossLanguageFormat}
    (h : ∃ entry ∈ ledger.entries, format = some entry.format) :
    ∃! entry, entry ∈ ledger.entries ∧ format = some entry.format := by
  obtain ⟨entry, hentry, rfl⟩ := h
  refine ⟨entry, ⟨hentry, rfl⟩, fun other hboth => ?_⟩
  obtain ⟨hother, hformat⟩ := hboth
  exact List.inj_on_of_nodup_map hnodup hother hentry (Option.some.inj hformat).symm

theorem countP_filter_comm {α : Type} (p q : α → Bool) (l : List α) :
    (l.filter p).countP q = (l.filter q).countP p := by
  simp only [List.countP_filter, Bool.and_comm]

/-- The checks of the ledger of one profile, about the lists. -/
theorem ledgered_of_checks {profile : Profile}
    (hnodes : ((values crossNodes).map Prod.fst).Perm g.crossNodes)
    (hidentity : ∀ entry ∈ values crossNodes, entry.1.contractIdentity = some entry.2)
    (hsites : ((values crossSites).map Prod.fst).Perm g.crossSites)
    (hedges : ((values crossEdges).map Prod.fst).Perm g.crossEdges)
    (hsiteFormat : ∀ site ∈ g.crossSites, ∃ format, evidenceFormat site.evidence = some format)
    (hedgeFormat : ∀ edge ∈ g.crossEdges, ∃ format, evidenceFormat edge.evidence = some format)
    (hedgeSite : ∀ edge ∈ g.crossEdges, ∃ site ∈ g.crossSites, EdgeAgrees edge site)
    (hledger : profile.contractLedger = some ledger)
    (hformats : (ledger.entries.map CrossLanguageFormatCoverage.format).Nodup)
    (hstatus : ∀ entry ∈ ledger.entries, entry.status = .complete ↔
      entry.unresolvedCount = 0 ∧ entry.skippedCount = 0 ∧ entry.reasons = [])
    (h : validateProfileLedger malformed crossNodes crossSites crossEdges profile = .ok ()) :
    g.Ledgered profile.id ledger := by
  simp only [validateProfileLedger, bind_eq_ok, orReject_eq_ok, parseProperty, required_eq_ok,
    forM_eq_ok] at h
  obtain ⟨read, ⟨value, hvalue, hread⟩, _, hcounts, _, hnodeEntries, hsiteEntries⟩ := h
  obtain rfl : ledger = read := by
    rw [Profile.contractLedger, hvalue, Option.bind_some, hread] at hledger
    exact (Option.some.inj hledger).symm
  -- Every record of the profile has an entry.
  have hnodeEntry : ∀ node ∈ g.nodesOf profile.id, ∃ entry ∈ ledger.entries,
      node.contractIdentity.map (·.format) = some entry.format := by
    intro node hnode
    obtain ⟨hcross, howner⟩ := List.mem_filter.1 hnode
    obtain ⟨entry, hentry, rfl⟩ := List.mem_map.1 (hnodes.mem_iff.2 hcross)
    rw [hidentity entry hentry, Option.map_some, beq_iff_eq, Option.some.injEq] at howner
    have hcheck := hnodeEntries entry (List.mem_filter.2 ⟨hentry, decide_eq_true howner⟩)
    rw [ensure_eq_ok] at hcheck
    obtain ⟨found, hfound, hformat⟩ := hcheck
    exact ⟨found, hfound, by rw [hidentity entry hentry, Option.map_some, hformat]⟩
  have hsiteEntry : ∀ site ∈ g.sitesOf profile.id, ∃ entry ∈ ledger.entries,
      evidenceFormat site.evidence = some entry.format := by
    intro site hsite
    obtain ⟨hcross, howner⟩ := List.mem_filter.1 hsite
    have hcheck := hsiteEntries site
      (List.mem_filter.2 ⟨hsites.mem_iff.2 hcross, decide_eq_true (beq_iff_eq.1 howner)⟩)
    simp only [validateLedgeredSite, bind_eq_ok, orReject_eq_ok, ensure_eq_ok, itemAt,
      expected_eq_ok, parseEvidenceProperties, required_eq_ok] at hcheck
    obtain ⟨primary, hprimary, properties, hproperties, found, hfound, hformat⟩ := hcheck
    refine ⟨found, hfound, ?_⟩
    rw [evidenceFormat, List.head?_eq_getElem?, hprimary, Option.bind_some, hproperties,
      Option.map_some, hformat]
  have hedgeEntry : ∀ edge ∈ g.edgesOf profile.id, ∃ entry ∈ ledger.entries,
      evidenceFormat edge.evidence = some entry.format := by
    intro edge hedge
    obtain ⟨hcross, howner⟩ := List.mem_filter.1 hedge
    obtain ⟨site, hsite, hagrees⟩ := hedgeSite edge hcross
    have hsiteOf : site ∈ g.sitesOf profile.id := List.mem_filter.2
      ⟨hsite, beq_iff_eq.2 (hagrees.profile.symm.trans (beq_iff_eq.1 howner))⟩
    obtain ⟨entry, hentry, hformat⟩ := hsiteEntry site hsiteOf
    obtain ⟨format, hedgeFormat⟩ := hedgeFormat edge hcross
    exact ⟨entry, hentry, by
      rw [hedgeFormat, format_of_evidenceBeq hagrees.evidence hedgeFormat hformat]⟩
  -- The counts of an entry are counts of the lists.
  have hentryCounts : ∀ entry ∈ ledger.entries,
      entry.nodeCount = (g.nodesOf profile.id).countP
        (fun node => node.contractIdentity.map (·.format) = some entry.format) ∧
      entry.siteCount = (g.sitesOf profile.id).countP
        (fun site => evidenceFormat site.evidence = some entry.format) ∧
      entry.edgeCount = (g.edgesOf profile.id).countP
        (fun edge => evidenceFormat edge.evidence = some entry.format) ∧
      entry.externalCount = ((g.sitesOf profile.id).filter (·.resolutionStatus = .external)).countP
        (fun site => evidenceFormat site.evidence = some entry.format) ∧
      entry.unresolvedCount =
        ((g.sitesOf profile.id).filter (·.resolutionStatus = .unresolved)).countP
          (fun site => evidenceFormat site.evidence = some entry.format) := by
    intro entry hentry
    have hcheck := hcounts entry hentry
    rw [validateLedgerCounts,
      countedItems_ok fun site hsite => by
        obtain ⟨format, hformat⟩ := hsiteFormat site (hsites.mem_iff.1 hsite)
        exact exists_head_of_format hformat,
      countedItems_ok fun edge hedge => by
        obtain ⟨format, hformat⟩ := hedgeFormat edge (hedges.mem_iff.1 hedge)
        exact exists_head_of_format hformat, ok_bind, ok_bind, orReject_eq_ok,
      ensure_eq_ok] at hcheck
    obtain ⟨-, hnode, hsite, hedge, hexternal, hunresolved⟩ := hcheck
    have hsitesPerm := (hsites.filter fun site => site.profileId == profile.id).filter
      fun site => evidenceFormat site.evidence = some entry.format
    have hedgesPerm := (hedges.filter fun edge => edge.profileId == profile.id).filter
      fun edge => evidenceFormat edge.evidence = some entry.format
    refine ⟨?_, ?_, ?_, ?_, ?_⟩
    · rw [hnode, nodesOf, List.countP_filter, ← hnodes.countP_eq, List.countP_map]
      refine List.countP_congr fun node hmem => ?_
      simp [hidentity node hmem, and_comm]
    · rw [hsite, hsitesPerm.length_eq, List.countP_eq_length_filter]
      rfl
    · rw [hedge, hedgesPerm.length_eq, List.countP_eq_length_filter]
      rfl
    · rw [hexternal, hsitesPerm.countP_eq]
      exact countP_filter_comm _ _ _
    · rw [hunresolved, hsitesPerm.countP_eq]
      exact countP_filter_comm _ _ _
  exact
    { nodes := fun node hnode => existsUnique_entry hformats (hnodeEntry node hnode)
      sites := fun site hsite => existsUnique_entry hformats (hsiteEntry site hsite)
      edges := fun edge hedge => existsUnique_entry hformats (hedgeEntry edge hedge)
      counts := fun entry hentry => by
        obtain ⟨hnode, hsite, hedge, -⟩ := hentryCounts entry hentry
        exact ⟨hnode, hsite, hedge⟩
      nodeTotal := by
        rw [List.map_congr_left fun entry hentry => (hentryCounts entry hentry).1]
        exact sum_entries _ hformats hnodeEntry
      siteTotal := by
        rw [List.map_congr_left fun entry hentry => (hentryCounts entry hentry).2.1]
        exact sum_entries _ hformats hsiteEntry
      edgeTotal := by
        rw [List.map_congr_left fun entry hentry => (hentryCounts entry hentry).2.2.1]
        exact sum_entries _ hformats hedgeEntry
      externalTotal := by
        rw [List.map_congr_left fun entry hentry => (hentryCounts entry hentry).2.2.2.1,
          sum_entries _ hformats fun site hsite => hsiteEntry site (List.mem_of_mem_filter hsite),
          List.countP_eq_length_filter]
      unresolvedTotal := by
        rw [List.map_congr_left fun entry hentry => (hentryCounts entry hentry).2.2.2.2,
          sum_entries _ hformats fun site hsite => hsiteEntry site (List.mem_of_mem_filter hsite),
          List.countP_eq_length_filter]
      status := hstatus }

end Counts

/-- The order in which a graph lists its records. -/
structure Rearranged (g g' : ContractGraph) : Prop where
  profiles : g.profiles.Perm g'.profiles
  nodes : g.nodes.Perm g'.nodes
  edges : g.edges.Perm g'.edges
  sites : g.sites.Perm g'.sites

variable (S malformed)

/-- `validate_cross_language_graph` on the lists of a graph. -/
def validate (g : ContractGraph) : Except (Failure ProtocolError) Unit :=
  validateCrossLanguageGraph S malformed g.profiles g.nodes g.edges g.sites

/-- `cross_language_graph_digest` on the lists of a graph. -/
def digest (g : ContractGraph) : Except (Failure ProtocolError) String :=
  crossLanguageGraphDigest S malformed g.profiles g.nodes g.edges g.sites

variable {S malformed}

theorem Rearranged.validate_eq_ok {g g' : ContractGraph} (h : Rearranged g g') :
    g.validate S malformed = .ok () ↔ g'.validate S malformed = .ok () := by
  simp only [validate, validateCrossLanguageGraph, bind_eq_ok, orReject_eq_ok,
    uniqueMap_perm h.profiles, uniqueMap_perm h.nodes, uniqueMap_perm h.edges,
    uniqueMap_perm h.sites]

theorem Rearranged.digest_eq_ok {g g' : ContractGraph} (h : Rearranged g g') {d : String} :
    g.digest S malformed = .ok d ↔ g'.digest S malformed = .ok d := by
  have hvalidate : g.validate S malformed = .ok () ↔ g'.validate S malformed = .ok () :=
    h.validate_eq_ok
  simp only [validate] at hvalidate
  simp only [digest, crossLanguageGraphDigest, bind_eq_ok, orReject_eq_ok, hvalidate,
    uniqueMap_perm h.profiles, uniqueMap_perm h.nodes, uniqueMap_perm h.edges,
    uniqueMap_perm h.sites]

theorem exists_digest {g : ContractGraph} (h : g.validate S malformed = .ok ()) :
    ∃ d, g.digest S malformed = .ok d := by
  have hmaps := h
  simp only [validate, validateCrossLanguageGraph, bind_eq_ok, orReject_eq_ok] at hmaps
  obtain ⟨profiles, hprofiles, nodes, hnodes, edges, hedges, sites, hsites, -⟩ := hmaps
  rw [validate] at h
  rw [digest, crossLanguageGraphDigest, h, hprofiles, hnodes, hedges, hsites]
  exact ⟨_, rfl⟩

/-- The checks of the maps, about the lists. -/
theorem closed_of_validate (h : g.validate S malformed = .ok ())
    (hclaims : ∃ profile ∈ g.profiles, profile.claimsCrossLanguage = true) : g.Closed := by
  simp only [validate, validateCrossLanguageGraph, bind_eq_ok, orReject_eq_ok] at h
  obtain ⟨profiles, hprofiles, nodes, hnodes, edges, hedges, sites, hsites, hmaps⟩ := h
  simp only [validateCrossLanguageMaps, bind_eq_ok, orReject_eq_ok] at hmaps
  obtain ⟨claimed, hclaimed, _, -, crossNodes, hcrossNodes, hmaps⟩ := hmaps
  obtain ⟨hvalues, hmem, hvalid⟩ := claimedProfiles_ok hprofiles hclaimed
  obtain ⟨claiming, hclaiming, hclaims⟩ := hclaims
  have hsome : claimed.isEmpty ≠ true := by
    intro hempty
    have hin : claiming.id ∈ claimed := (hmem _).2 (claimed_iff.2 ⟨claiming, hclaiming, hclaims, rfl⟩)
    rw [Std.ExtTreeMap.isEmpty_iff.1 hempty] at hin
    exact Std.ExtTreeMap.not_mem_empty hin
  rw [if_neg hsome] at hmaps
  simp only [bind_eq_ok, orReject_eq_ok] at hmaps
  obtain ⟨crossSites, hcrossSites, crossEdges, hcrossEdges, _, hclosure, hledgers⟩ := hmaps
  have hnodesCollected := claimedNodes_ok hnodes hmem hcrossNodes
  have hnodeIds (id : String) : id ∈ crossNodes ↔ ∃ node ∈ g.crossNodes, node.id = id :=
    mem_crossNodes_iff hnodesCollected
  have hsitesCollected := collectCrossSites_ok hsites hmem hnodeIds hcrossSites
  have hedgesCollected := collectCrossEdges_ok hedges hmem hnodeIds hcrossEdges
  have hnodup := (uniqueMap_ok_iff.1 hedges).1
  obtain ⟨hedgeSite, hsiteEdge⟩ := closure_ok hnodup hsitesCollected hedgesCollected hclosure
  have hnodesPerm : ((values crossNodes).map Prod.fst).Perm g.crossNodes :=
    hnodesCollected.values_perm (fun _ _ hfound => hfound.1) (uniqueMap_ok_iff.1 hnodes).1
  have hsitesPerm : ((values crossSites).map Prod.fst).Perm g.crossSites :=
    hsitesCollected.values_perm (fun _ _ hfound => hfound.1) (uniqueMap_ok_iff.1 hsites).1
  have hedgesPerm : ((values crossEdges).map Prod.fst).Perm g.crossEdges :=
    hedgesCollected.values_perm (fun _ _ hfound => hfound.1) hnodup
  have hidentity : ∀ entry ∈ values crossNodes, entry.1.contractIdentity = some entry.2 ∧
      entry.2.profileId ∈ claimed := by
    intro entry hentry
    obtain ⟨-, -, -, hnode⟩ := hnodesCollected.mem_values (fun _ _ hfound => hfound.1) hentry
    exact validateCrossLanguageNode_identity hnode
  have hsiteEntry : ∀ site ∈ g.crossSites, ∃ relation, g.claimed site.profileId = true ∧
      validateCrossLanguageSite S malformed nodes crossNodes site relation = .ok () := by
    intro site hsite
    obtain ⟨hmemSite, hcriterion⟩ := List.mem_filter.1 hsite
    obtain ⟨entry, ⟨rfl, hprofile, -, hchecked⟩, -⟩ :=
      hsitesCollected.complete site hmemSite hcriterion
    exact ⟨entry.2, hprofile, hchecked⟩
  have hedgeEntry : ∀ edge ∈ g.crossEdges, ∃ relation, g.claimed edge.profileId = true ∧
      validateCrossLanguageEdge S malformed edge relation = .ok () := by
    intro edge hedge
    obtain ⟨hmemEdge, hcriterion⟩ := List.mem_filter.1 hedge
    obtain ⟨entry, ⟨rfl, hprofile, -, hchecked⟩, -⟩ :=
      hedgesCollected.complete edge hmemEdge hcriterion
    exact ⟨entry.2, hprofile, hchecked⟩
  refine ⟨fun node hnode => ?_, fun site hsite => ?_, fun edge hedge => ?_, hedgeSite, hsiteEdge,
    fun profile hprofile hprofileClaims => ?_⟩
  · obtain ⟨entry, hentry, rfl⟩ := List.mem_map.1 (hnodesPerm.mem_iff.2 hnode)
    obtain ⟨hread, hprofile⟩ := hidentity entry hentry
    exact ⟨entry.2, hread, (hmem _).1 hprofile⟩
  · obtain ⟨-, hprofile, -⟩ := hsiteEntry site hsite
    exact hprofile
  · obtain ⟨-, hprofile, -⟩ := hedgeEntry edge hedge
    exact hprofile
  · obtain ⟨ledger, hledger, hformats, hstatus⟩ :=
      validateCrossLanguageProfile_ledger (hvalid profile hprofile hprofileClaims)
    have hchecked := forM_eq_ok.1 hledgers profile ((hvalues profile).2 ⟨hprofile, hprofileClaims⟩)
    refine ⟨ledger, hledger, ledgered_of_checks hnodesPerm (fun entry h => (hidentity entry h).1)
      hsitesPerm hedgesPerm (fun site hsite => ?_) (fun edge hedge => ?_) hedgeSite hledger hformats
      hstatus hchecked⟩
    · obtain ⟨relation, -, hchecked⟩ := hsiteEntry site hsite
      exact exists_siteFormat hchecked
    · obtain ⟨relation, -, hchecked⟩ := hedgeEntry edge hedge
      exact exists_edgeFormat hchecked

end

/-- **An accepted graph in which a profile claims the contract is closed, and its verdict and its
digest do not depend on the order of the lists.** -/
theorem validateCrossLanguageGraph_closed (S : StableIds) (malformed : String → Value → String)
    (g : ContractGraph) (h : g.validate S malformed = .ok ())
    (hclaims : ∃ profile ∈ g.profiles, profile.claimsCrossLanguage = true) :
    g.Closed ∧ ∀ g' : ContractGraph, Rearranged g g' → g'.validate S malformed = .ok () ∧
      ∃ d, g.digest S malformed = .ok d ∧ g'.digest S malformed = .ok d := by
  refine ⟨closed_of_validate h hclaims, fun g' hg => ⟨hg.validate_eq_ok.1 h, ?_⟩⟩
  obtain ⟨d, hd⟩ := exists_digest h
  exact ⟨d, hd, hg.digest_eq_ok.1 hd⟩

end ContractGraph

namespace ContractSample

theorem digest_size : (List.replicate 32 (0 : UInt8)).length = 32 := List.length_replicate

/-- A hash that nothing here depends on. -/
def stableIds : StableIds := ⟨.plain, fun _ => ⟨List.replicate 32 0, digest_size⟩⟩

def zeros : String := String.ofList (List.replicate 64 '0')

def profileId : String := "profile:sha256:" ++ zeros

def identity : CrossLanguageProfileIdentity where
  contractVersion := crossLanguageContractVersion
  completenessVersion := crossLanguageCompletenessVersion
  contractInputDigest := "sha256:" ++ zeros
  adapterCapabilityVersions := ["graphql-contract-v1"]
  participatingProfileIds := ["web"]

def ledger : Value := .object [("schema_version", .string crossLanguageCompletenessVersion),
  ("entries", .array [.object [("format", .string "graphql"),
    ("capability", .string "graphql-contract-v1"), ("status", .string "complete"),
    ("input_count", natValue 1), ("node_count", natValue 2), ("site_count", natValue 1),
    ("edge_count", natValue 1), ("external_count", natValue 0), ("unresolved_count", natValue 0),
    ("skipped_count", natValue 0), ("reasons", .array [])]])]

def properties (entries : List (String × Value)) : Properties := .ofList entries

def profiles : List Profile :=
  [⟨profileId, "cross-language", none, none, none, [], ∅, none, properties
      [(crossLanguageContractProperty, .string crossLanguageContractVersion),
        (crossLanguageProfileIdentityProperty, identity.toValue),
        (crossLanguageCompletenessProperty, ledger)]⟩,
    ⟨"web", "javascript", none, none, none, [], ∅, none, ∅⟩]

/-- A node of a schema file. -/
def node (kind : CrossLanguageNodeKind) (coordinate : String) : GraphNode where
  id := kind.asStr ++ ":sha256:" ++ zeros
  kind := kind.asStr
  locator := "cross-language:" ++ kind.asStr ++ ":sha256:" ++ zeros
  displayName := none
  properties := properties [("canonical_identity", CrossLanguageCanonicalIdentity.toValue
      ⟨crossLanguageContractVersion, .graphql, "api.graphql", "1", coordinate, profileId⟩),
    ("profile_id", .string profileId), ("format", .string "graphql")]

def evidence : Evidence where
  kind := .semantic
  extractor := "graphql"
  extractorVersion := "1"
  path := some "api.graphql"
  startLine := some 1
  startColumn := some 1
  endLine := some 1
  endColumn := some 9
  detail := none
  properties := properties [("contract_version", .string crossLanguageContractVersion),
    ("format", .string "graphql"), ("profile_id", .string profileId),
    ("format_version", .string "1"), ("contract_digest", .string ("sha256:" ++ zeros)),
    ("occurrence_kind", .string "provides_operation"),
    ("mapping_kind", .string "contract_internal")]

/-- The service provides the operation. -/
def site : DependencySite where
  id := "site:sha256:" ++ zeros
  source := "service:sha256:" ++ zeros
  kind := "provides_operation"
  specifier := "hello"
  resolutionStatus := .resolved
  targetIds := ["operation:sha256:" ++ zeros]
  profileId := profileId
  condition := .all []
  precision := .exact
  reason := none
  evidence := [evidence]

def edge : GraphEdge where
  id := "edge:sha256:" ++ zeros
  source := site.source
  target := "operation:sha256:" ++ zeros
  kind := site.kind
  siteId := some site.id
  phase := .semantic
  environment := none
  profileId := profileId
  condition := .all []
  resolutionStatus := .resolved
  precision := .exact
  generated := false
  evidence := [evidence]

def graph : ContractGraph :=
  ⟨profiles, [node .service "Api", node .operation "Api.hello"], [edge], [site]⟩

theorem validate_graph : graph.validate stableIds (fun _ _ => "") = .ok () :=
  ok_of_isOk (by decide +kernel)

end ContractSample

open ContractSample in
theorem ContractGraph.validateCrossLanguageGraph_closed_sample :
    graph.Closed ∧ ∀ g' : ContractGraph, Rearranged graph g' →
      g'.validate stableIds (fun _ _ => "") = .ok () ∧
      ∃ d, graph.digest stableIds (fun _ _ => "") = .ok d ∧
        g'.digest stableIds (fun _ _ => "") = .ok d :=
  ContractGraph.validateCrossLanguageGraph_closed stableIds (fun _ _ => "") graph validate_graph
    ⟨_, List.mem_cons_self, by rfl⟩

end Protocol
