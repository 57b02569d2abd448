import Depgraph.Protocol.DeltaBaseCoverage

/-!
# When the base of an accepted stream is accepted

The rules of a delta base that the rules of a stream do not imply are those of canonical form: stable
ids, canonical relative paths, sorted lists and one ledger a file. `DeltaReady` collects them, and
`fromProtocol_accepted` says that nothing else can go wrong.
-/

namespace Protocol

open Json Fallible Panics OrderedMap Std

/-! ### The condition -/

/-- The rules of the sites and edges hold of the records with the evidence that their keys keep. -/
def KeepsEvidence (S : StableIds) (protocol : ValidatedProtocol) : Prop :=
  validateSiteEdgeMaps S protocol.nodes
    (protocol.edges.map fun _ edge =>
      hydratedEdge (protocolEvidence protocol.sites protocol.edges) edge)
    (protocol.sites.map fun _ site =>
      hydratedSite (protocolEvidence protocol.sites protocol.edges) site) .required = .ok ()

/-- What a delta requires of its base beyond the rules of a stream. -/
structure DeltaReady (S : StableIds) (protocol : ValidatedProtocol) : Prop where
  node_id : ∀ id ∈ protocol.nodes, validateStableId "base node ID" id none = .ok ()
  site_id : ∀ id ∈ protocol.sites, validateStableId "base site ID" id (some "site") = .ok ()
  edge_id : ∀ id ∈ protocol.edges, validateStableId "base edge ID" id (some "edge") = .ok ()
  path : ∀ file ∈ filesOf protocol.events,
    validateRelativePath "file coverage path" file.path = .ok ()
  distinct : ((filesOf protocol.events).map FileCompleted.path).Nodup
  emitted : ((filesOf protocol.events).map FileCompleted.emittedSites).sum < 2 ^ 64
  profile : ∀ event ∈ protocol.events, ∀ profileId coverage,
    event.payload = .profileCompleted profileId coverage → coverage.Canonical
  scan : ∀ event ∈ protocol.events, ∀ coverage,
    event.payload = .scanCompleted coverage → coverage.Canonical
  kept : KeepsEvidence S protocol

/-- The field only names the id in the error. -/
theorem validateStableId_field {field field' id : String} {idNamespace : Option String}
    (h : validateStableId field id idNamespace = .ok ()) :
    validateStableId field' id idNamespace = .ok () := by
  simp only [validateStableId, bind_eq_ok, required_eq_ok, ensure_eq_ok] at h ⊢
  exact h

/-! ### The parts of the final state -/

section

variable {host : Host} {v : ProtocolValidator} {aggregate : Coverage}

theorem mem_profiles_fromProtocol {protocol : ValidatedProtocol} {id : String} :
    id ∈ (DeltaGraph.fromProtocol protocol).profiles ↔ id ∈ protocol.profiles := by
  change id ∈ (ExtTreeSet.ofList protocol.profiles.keys : IdSet) ↔ _
  rw [ExtTreeSet.mem_ofList, List.contains_iff_mem, ExtTreeMap.mem_keys]

theorem values_sites_fromProtocol (protocol : ValidatedProtocol) :
    values (DeltaGraph.fromProtocol protocol).sites =
      (values protocol.sites).map fun site => { site with evidence := [] } :=
  values_map _

theorem values_edges_fromProtocol (protocol : ValidatedProtocol) :
    values (DeltaGraph.fromProtocol protocol).edges =
      (values protocol.edges).map fun edge => { edge with evidence := [] } :=
  values_map _

/-- Every evidence record has an owner with a stable id. -/
theorem owner_fromProtocol {protocol : ValidatedProtocol}
    (hsites : KeyedBy DependencySite.id protocol.sites)
    (hedges : KeyedBy GraphEdge.id protocol.edges)
    (hsiteIds : ∀ id ∈ protocol.sites, validateStableId "base site ID" id (some "site") = .ok ())
    (hedgeIds : ∀ id ∈ protocol.edges, validateStableId "base edge ID" id (some "edge") = .ok ())
    {key : DeltaEvidenceKey} (hkey : key ∈ protocolEvidence protocol.sites protocol.edges) :
    validateEvidenceKey key = .ok () ∧ (DeltaGraph.fromProtocol protocol).ownerExists key := by
  obtain ⟨ownerType, ownerId, ordinal⟩ := key
  rcases mem_protocolEvidence.1 hkey with ⟨site, hsite, htype, hid, -⟩ | ⟨edge, hedge, htype, hid, -⟩
  · obtain ⟨id, hfound⟩ := mem_values.1 hsite
    obtain rfl := hsites id site hfound
    change ownerType = _ at htype
    change ownerId = _ at hid
    subst htype hid
    have hmem : site.id ∈ protocol.sites := mem_iff.2 ⟨site, hfound⟩
    exact ⟨validateStableId_field (hsiteIds _ hmem), ExtTreeMap.mem_map.2 hmem⟩
  · obtain ⟨id, hfound⟩ := mem_values.1 hedge
    obtain rfl := hedges id edge hfound
    change ownerType = _ at htype
    change ownerId = _ at hid
    subst htype hid
    have hmem : edge.id ∈ protocol.edges := mem_iff.2 ⟨edge, hfound⟩
    exact ⟨validateStableId_field (hedgeIds _ hmem), ExtTreeMap.mem_map.2 hmem⟩

/-- The checks of the sites and edges see the maps of the stream. -/
theorem validateSiteEdgeInvariants_fromProtocol {S : StableIds} {protocol : ValidatedProtocol}
    (hnodes : KeyedBy GraphNode.id protocol.nodes)
    (hsites : KeyedBy DependencySite.id protocol.sites)
    (hedges : KeyedBy GraphEdge.id protocol.edges) :
    validateSiteEdgeInvariants S (values (DeltaGraph.fromProtocol protocol).nodes)
      ((values (DeltaGraph.fromProtocol protocol).edges).map
        (hydratedEdge (DeltaGraph.fromProtocol protocol).evidence))
      ((values (DeltaGraph.fromProtocol protocol).sites).map
        (hydratedSite (DeltaGraph.fromProtocol protocol).evidence)) = .ok () ↔
      KeepsEvidence S protocol := by
  have hsame : (values (DeltaGraph.fromProtocol protocol).sites).map
        (hydratedSite (DeltaGraph.fromProtocol protocol).evidence) =
      (values protocol.sites).map (hydratedSite (protocolEvidence protocol.sites protocol.edges)) := by
    rw [values_sites_fromProtocol, List.map_map]
    rfl
  have hsame' : (values (DeltaGraph.fromProtocol protocol).edges).map
        (hydratedEdge (DeltaGraph.fromProtocol protocol).evidence) =
      (values protocol.edges).map (hydratedEdge (protocolEvidence protocol.sites protocol.edges)) := by
    rw [values_edges_fromProtocol, List.map_map]
    rfl
  rw [validateSiteEdgeInvariants, hsame, hsame', KeepsEvidence]
  rw [indexed_map_values (hydratedEdge _) (fun _ => rfl) hedges,
    indexed_map_values (hydratedSite _) (fun _ => rfl) hsites]
  exact Iff.of_eq (congrArg (fun nodes => validateSiteEdgeMaps S nodes _ _ _ = _)
    (indexed_values hnodes))

/-- The stream that the validator has read. -/
def ProtocolValidator.toProtocol (v : ProtocolValidator) : ValidatedProtocol :=
  ⟨v.events, v.profiles, v.nodes, v.edges, v.sites, v.diagnostics⟩

theorem FileCompleted.Accounted.validate {file : FileCompleted} (h : file.Accounted) (path : String) :
    validateFileCoverage path file.ledger = .ok () := by
  simp only [validateFileCoverage, bind_eq_ok, required_eq_ok, ensure_eq_ok, exists_const,
    checkedAddU64_eq_some]
  refine ⟨_, ⟨h.total, h.fits⟩, rfl, ?_, ?_⟩
  · rintro ⟨hpos, hfalse⟩
    exact Bool.false_ne_true (hfalse.symm.trans (h.skips hpos))
  · rintro ⟨hskipped, hall⟩
    obtain ⟨reason, hsome, hne⟩ := h.reasons hskipped
    change file.reason.all _ = true at hall
    rw [hsome, Option.all_some, beq_iff_eq] at hall
    exact hne hall

/-- A file record is that of a file that was completed. -/
theorem file_of_eventCoverage {event : ProtocolEvent} {adapter path : String}
    {value : DeltaFileCoverage} (h : eventCoverage event = some (.file adapter path value)) :
    event.common.adapter = adapter ∧
      ∃ file, event.payload.file? = some file ∧ file.path = path ∧ file.ledger = value := by
  cases hkind : event.payload with
  | fileCompleted path' discoveredSites emittedSites skippedSites skipped reason =>
    rw [eventCoverage, hkind] at h
    obtain ⟨hadapter, hpath, hvalue⟩ := DeltaCoverage.file.inj (Option.some.inj h)
    exact ⟨hadapter, _, rfl, hpath, hvalue⟩
  | _ =>
    rw [eventCoverage, hkind] at h
    cases h

theorem eventCoverage_of_file {event : ProtocolEvent} {file : FileCompleted}
    (h : event.payload.file? = some file) :
    eventCoverage event = some (.file event.common.adapter file.path file.ledger) := by
  cases hkind : event.payload with
  | fileCompleted path discoveredSites emittedSites skippedSites skipped reason =>
    rw [hkind] at h
    rw [eventCoverage, hkind, ← Option.some.inj h]
    rfl
  | _ =>
    rw [hkind] at h
    cases h

theorem mem_protocolCoverage {events : List ProtocolEvent} {event : ProtocolEvent}
    (hevent : event ∈ events) {item : DeltaCoverage} (h : eventCoverage event = some item) :
    item.key ∈ protocolCoverage events := by
  refine mem_insertAll.2 (.inr ?_)
  rw [List.map_map]
  exact List.mem_map.2 ⟨item, List.mem_filterMap.2 ⟨event, hevent, h⟩, rfl⟩

theorem event_of_coverage {events : List ProtocolEvent} {key : DeltaCoverageKey}
    {item : DeltaCoverage} (h : (protocolCoverage events)[key]? = some item) :
    item.key = key ∧ ∃ event ∈ events, eventCoverage event = some item := by
  obtain ⟨item', hitem, heq⟩ := List.mem_map.1 (mem_of_getElem?_insertAll h)
  obtain ⟨rfl, rfl⟩ := Prod.mk.inj heq
  exact ⟨rfl, List.mem_filterMap.1 hitem⟩

/-- The coverage of a completed profile that the stream has checked. -/
theorem ProtocolValidator.StreamKept.counts (h : v.StreamKept host) {id : String}
    {coverage : Coverage} (hfound : v.profileCoverage[id]? = some coverage) :
    coverage.profiles = 1 ∧
      CountsSites coverage ((values v.sites).filter fun site => site.profileId = id) ∧
      Stream.validateCoverage host.overflowChecks coverage = .ok () := by
  obtain ⟨hcoverage, hprofile⟩ := h.coverage.checked id coverage hfound
  simp only [Stream.validateProfileCoverage, bind_eq_ok, ensure_eq_ok, exists_const,
    validateSiteCounts_eq_ok] at hprofile
  exact ⟨hprofile.1, hprofile.2, hcoverage⟩

theorem ProtocolValidator.Ended.counts (h : v.Ended host aggregate) :
    aggregate.profiles = v.profiles.size ∧ CountsSites aggregate (values v.sites) := by
  have hscan := h.scan
  simp only [validateScanCoverage, bind_eq_ok, orReject_eq_ok, ensure_eq_ok, exists_const,
    validateSiteCounts_eq_ok] at hscan
  obtain ⟨hprofiles, hsites, -⟩ := hscan
  exact ⟨hprofiles, hsites⟩

/-- The coverage records of a base are accepted when their paths and lists are canonical. -/
theorem entries_iff (h : v.StreamKept host) (hended : v.Ended host aggregate) :
    (∀ entry ∈ (protocolCoverage v.events).toList, validateCoverageEntry
        (DeltaGraph.fromProtocol v.toProtocol).profiles entry = .ok ()) ↔
      (∀ file ∈ filesOf v.events, validateRelativePath "file coverage path" file.path = .ok ()) ∧
      (∀ event ∈ v.events, ∀ profileId coverage,
        event.payload = .profileCompleted profileId coverage → coverage.Canonical) ∧
      ∀ event ∈ v.events, ∀ coverage,
        event.payload = .scanCompleted coverage → coverage.Canonical := by
  have hprofile {id : String} {coverage : Coverage} (hfound : v.profileCoverage[id]? = some coverage) :
      validateCoverage coverage = .ok () ↔ coverage.Canonical :=
    (validateCoverage_iff (h.counts hfound).2.1 (h.counts hfound).2.2).2
  have haggregate : validateCoverage aggregate = .ok () ↔ aggregate.Canonical :=
    (validateCoverage_iff hended.counts.2 hended.coverage).2
  have hlookup {id : String} {coverage : Coverage} (hfound : v.profileCoverage[id]? = some coverage) :
      (protocolCoverage v.events)[DeltaCoverageKey.profile id]? = some (.profile id coverage) := by
    rw [h.events.profiles, hfound]
    rfl
  constructor
  · intro hall
    have hchecked {key : DeltaCoverageKey} {item : DeltaCoverage}
        (hfound : (protocolCoverage v.events)[key]? = some item) :
        validateCoverageKey key = .ok () ∧ validateDeltaCoverage item = .ok () := by
      have hentry := hall (key, item) (mem_toList.2 hfound)
      simp only [validateCoverageEntry, bind_eq_ok] at hentry
      obtain ⟨_, hkey, _, hitem, -⟩ := hentry
      exact ⟨hkey, hitem⟩
    refine ⟨fun file hfile => ?_, fun event hevent id coverage hkind => ?_,
      fun event hevent coverage hkind => ?_⟩
    · obtain ⟨event, hevent, hfile⟩ := List.mem_filterMap.1 hfile
      obtain ⟨item, hfound⟩ := mem_iff.1 (mem_protocolCoverage hevent (eventCoverage_of_file hfile))
      have hkey := (hchecked hfound).1
      simp only [DeltaCoverage.key, validateCoverageKey, bind_eq_ok] at hkey
      obtain ⟨_, -, hpath⟩ := hkey
      exact hpath
    · have hfound := h.once event hevent id coverage hkind
      have hitem := (hchecked (hlookup hfound)).2
      simp only [validateDeltaCoverage, bind_eq_ok] at hitem
      obtain ⟨_, -, hcoverage⟩ := hitem
      exact (hprofile hfound).1 hcoverage
    · obtain rfl := hended.only event hevent coverage hkind
      exact haggregate.1 (hchecked hended.found).2
  · rintro ⟨hpaths, hprofiles, hscan⟩ ⟨key, item⟩ hentry
    have hfound := mem_toList.1 hentry
    obtain ⟨hkey, event, hevent, hitem⟩ := event_of_coverage hfound
    change item.key = key at hkey
    subst hkey
    simp only [validateCoverageEntry, bind_eq_ok, ensure_eq_ok, exists_const]
    cases item with
    | file adapter path value =>
      obtain ⟨hadapter, file, hfile, rfl, rfl⟩ := file_of_eventCoverage hitem
      obtain ⟨identity, hidentity, heq⟩ := h.events.adapter event hevent
      have hname : requireNonEmpty "file coverage adapter" adapter = .ok () := by
        rw [requireNonEmpty_eq_ok, ← hadapter, heq]
        exact h.events.named identity hidentity
      have hpath := hpaths file (List.mem_filterMap.2 ⟨event, hevent, hfile⟩)
      refine ⟨(), ?_, (), ?_, trivial, rfl⟩
      · simp only [DeltaCoverage.key, validateCoverageKey, bind_eq_ok]
        exact ⟨(), hname, hpath⟩
      · simp only [validateDeltaCoverage, bind_eq_ok]
        exact ⟨(), hname, (), hpath, (h.events.files event hevent file hfile).validate _⟩
    | profile id coverage =>
      have hkind : event.payload = .profileCompleted id coverage := by
        cases hkind : event.payload with
        | profileCompleted id' coverage' =>
          rw [eventCoverage, hkind] at hitem
          obtain ⟨rfl, rfl⟩ := DeltaCoverage.profile.inj (Option.some.inj hitem)
          rfl
        | _ =>
          rw [eventCoverage, hkind] at hitem
          cases hitem
      have hcompleted := h.once event hevent id coverage hkind
      have hdeclared : id ∈ v.profiles := h.coverage.declared id (mem_iff.2 ⟨coverage, hcompleted⟩)
      have hname : requireNonEmpty "coverage profile ID" id = .ok () :=
        requireNonEmpty_eq_ok.2 (h.maps.profile_id id hdeclared)
      refine ⟨(), hname, (), ?_, trivial, ensure_eq_ok.2 (mem_profiles_fromProtocol.2 hdeclared)⟩
      simp only [validateDeltaCoverage, bind_eq_ok]
      exact ⟨(), hname, (hprofile hcompleted).2 (hprofiles event hevent id coverage hkind)⟩
    | aggregate coverage =>
      have hkind : event.payload = .scanCompleted coverage := by
        cases hkind : event.payload with
        | scanCompleted coverage' =>
          rw [eventCoverage, hkind] at hitem
          obtain rfl := DeltaCoverage.aggregate.inj (Option.some.inj hitem)
          rfl
        | _ =>
          rw [eventCoverage, hkind] at hitem
          cases hitem
      refine ⟨(), rfl, (), ?_, trivial, rfl⟩
      obtain rfl := hended.only event hevent coverage hkind
      exact haggregate.2 (hscan event hevent coverage hkind)

/-! ### The hierarchy -/

theorem profileCoverage_protocol (h : v.StreamKept host) (id : String) :
    profileCoverage (protocolCoverage v.events) id = v.profileCoverage[id]? := by
  rw [profileCoverage, h.events.profiles]
  cases v.profileCoverage[id]? <;> rfl

theorem toList_profiles_fromProtocol (h : v.StreamKept host) (hended : v.Ended host aggregate) :
    (DeltaGraph.fromProtocol v.toProtocol).profiles.toList = v.profileCoverage.keys :=
  (toList_ofList_keys v.profiles).trans (keys_eq_of_mem_iff fun id =>
    ⟨hended.covered id, h.coverage.declared id⟩)

/-- The hierarchy of the coverage records is accepted when every file has one record, and their sites
can be counted. -/
theorem hierarchy_iff (h : v.StreamKept host) (hended : v.Ended host aggregate) :
    validateCoverageHierarchy (DeltaGraph.fromProtocol v.toProtocol).profiles
        (DeltaGraph.fromProtocol v.toProtocol).sites (protocolCoverage v.events) = .ok () ↔
      ((filesOf v.events).map FileCompleted.path).Nodup ∧
        ((filesOf v.events).map FileCompleted.emittedSites).sum < 2 ^ 64 := by
  obtain ⟨hprofiles, hsites⟩ := hended.counts
  have hsmall := (validateCoverage_iff hsites hended.coverage).1
  have haggregate : aggregateCoverage (protocolCoverage v.events) = some aggregate := by
    rw [aggregateCoverage, hended.found]
  have hsize : aggregate.profiles = (DeltaGraph.fromProtocol v.toProtocol).profiles.size := by
    rw [hprofiles, ← ExtTreeSet.length_toList]
    exact ((congrArg List.length (toList_ofList_keys v.profiles)).trans ExtTreeMap.length_keys).symm
  have hscanSites : validateDeltaSiteCounts "delta scan" aggregate
      (values (DeltaGraph.fromProtocol v.toProtocol).sites) = .ok () := by
    rw [validateDeltaSiteCounts_eq_ok, values_sites_fromProtocol, List.length_map, countsSites_bare]
    exact ⟨hsmall, hsites⟩
  have hprofileSites : ∀ id ∈ (DeltaGraph.fromProtocol v.toProtocol).profiles.toList,
      validateProfileCoverage (DeltaGraph.fromProtocol v.toProtocol).sites
        (protocolCoverage v.events) id = .ok () := by
    intro id hid
    rw [toList_profiles_fromProtocol h hended, ExtTreeMap.mem_keys, mem_iff] at hid
    obtain ⟨coverage, hfound⟩ := hid
    obtain ⟨hone, hcounts, hstream⟩ := h.counts hfound
    have hfilter : (values (DeltaGraph.fromProtocol v.toProtocol).sites).filter
        (fun site => site.profileId == id) =
        ((values v.sites).filter fun site => site.profileId = id).map
          fun site => { site with evidence := [] } := by
      rw [values_sites_fromProtocol, List.filter_map]
      rfl
    simp only [validateProfileCoverage, bind_eq_ok, required_eq_ok, ensure_eq_ok, exists_const,
      validateDeltaSiteCounts_eq_ok]
    refine ⟨coverage, (profileCoverage_protocol h id).trans hfound, hone, ?_, ?_⟩
    · rw [hfilter, List.length_map]
      exact (validateCoverage_iff hcounts hstream).1
    · rw [hfilter, countsSites_bare]
      exact hcounts
  have hprofileList : (DeltaGraph.fromProtocol v.toProtocol).profiles.toList.filterMap
      (profileCoverage (protocolCoverage v.events)) = values v.profileCoverage := by
    rw [toList_profiles_fromProtocol h hended, ← filterMap_keys]
    exact List.filterMap_congr fun id _ => profileCoverage_protocol h id
  have hrelation : validateDeltaAggregateProfileCoverage aggregate
      ((DeltaGraph.fromProtocol v.toProtocol).profiles.toList.filterMap
        (profileCoverage (protocolCoverage v.events))) = .ok () := by
    rw [hprofileList, validateDeltaAggregate_iff]
    exact hended.profiles
  obtain ⟨adapter, hadapter⟩ : ∃ adapter, ∀ event ∈ v.events, event.common.adapter = adapter := by
    cases hidentity : v.identity with
    | none =>
      refine ⟨"", fun event hevent => ?_⟩
      obtain ⟨identity, hsome, -⟩ := h.events.adapter event hevent
      cases hidentity.symm.trans hsome
    | some identity =>
      refine ⟨identity.adapter, fun event hevent => ?_⟩
      obtain ⟨identity', hsome, heq⟩ := h.events.adapter event hevent
      rw [heq, Option.some.inj (hidentity.symm.trans hsome)]
  have hscan := hended.scan
  simp only [validateScanCoverage, bind_eq_ok, orReject_eq_ok, ensure_eq_ok, exists_const] at hscan
  obtain ⟨-, _, -, emitted, hemitted, hdiscovered, hskipped, hbound⟩ := hscan
  change sumU64 host.overflowChecks ((filesOf v.events).map FileCompleted.emittedSites) = _ at hemitted
  change aggregate.filesDiscovered = (filesOf v.events).length at hdiscovered
  change aggregate.filesSkipped = (filesOf v.events).countP FileCompleted.skipped at hskipped
  simp only [validateCoverageHierarchy, bind_eq_ok, required_eq_ok, ensure_eq_ok, exists_const,
    forM_eq_ok]
  constructor
  · rintro ⟨found, hfound, -, _, -, -, _, -, total, htotal, hfiles, -, -⟩
    obtain rfl := Option.some.inj (haggregate.symm.trans hfound)
    have hnodup := nodup_of_fileCoverage_length hadapter (hfiles.symm.trans hdiscovered)
    obtain ⟨rfl, hfits⟩ := (foldlM_addEmittedSites (Nat.two_pow_pos 64)).1 htotal
    have hperm := (fileCoverage_perm hadapter hnodup).map DeltaFileCoverage.emittedSites
    rw [Nat.zero_add, hperm.sum_nat, List.map_map] at hfits
    exact ⟨hnodup, hfits⟩
  · rintro ⟨hnodup, hfits⟩
    have hperm := fileCoverage_perm hadapter hnodup
    have hsum : ((fileCoverage (protocolCoverage v.events)).map DeltaFileCoverage.emittedSites).sum =
        ((filesOf v.events).map FileCompleted.emittedSites).sum := by
      rw [(hperm.map _).sum_nat, List.map_map]
      rfl
    rw [sumU64_eq, addU64_of_lt (by rwa [Nat.zero_add]), Nat.zero_add] at hemitted
    refine ⟨aggregate, haggregate, hsize, (), hscanSites, hprofileSites, (), hrelation, _,
      (foldlM_addEmittedSites (Nat.two_pow_pos 64)).2 ⟨(Nat.zero_add _).symm, hsum ▸ hfits⟩, ?_, ?_, ?_⟩
    · rw [hdiscovered, hperm.length_eq, List.length_map]
    · rw [hskipped, hperm.countP_eq, List.countP_map]
      rfl
    · rw [hsum, Except.ok.inj hemitted]
      exact Nat.not_lt.1 hbound

/-! ### The base as a whole -/

/-- A loop whose turns check an element and leave the state alone. -/
theorem foldlM_checks {ε α σ : Type} {f : σ → α → Except ε σ} {p : α → Prop} {l : List α} {s t : σ}
    (h : ∀ a ∈ l, ∀ t, f s a = .ok t ↔ p a ∧ t = s) :
    l.foldlM f s = .ok t ↔ (∀ a ∈ l, p a) ∧ t = s := by
  induction l with
  | nil =>
    change Except.ok s = Except.ok t ↔ _
    rw [Except.ok.injEq, eq_comm]
    exact (and_iff_right (List.forall_mem_nil p)).symm
  | cons a l ih =>
    rw [List.foldlM_cons, bind_eq_ok, List.forall_mem_cons]
    have hrest := ih fun b hb => h b (List.mem_cons_of_mem a hb)
    constructor
    · rintro ⟨s', hfirst, htail⟩
      obtain ⟨hp, rfl⟩ := (h a List.mem_cons_self s').1 hfirst
      obtain ⟨hall, heq⟩ := hrest.1 htail
      exact ⟨⟨hp, hall⟩, heq⟩
    · rintro ⟨⟨hp, hall⟩, heq⟩
      exact ⟨s, (h a List.mem_cons_self s).2 ⟨hp, rfl⟩, hrest.2 ⟨hall, heq⟩⟩

theorem hoistSite_bare {evidence t : EvidenceMap} {entry : String × DependencySite}
    (hkey : entry.1 = entry.2.id) (hbare : entry.2.evidence = []) :
    hoistSite evidence entry = .ok t ↔
      validateStableId "base site ID" entry.1 (some "site") = .ok () ∧ t = evidence := by
  simp only [hoistSite, bind_eq_ok, ensure_eq_ok, exists_const, hbare, mergeEmbeddedEvidence,
    mergeEmbeddedFrom, Except.ok.injEq]
  constructor
  · rintro ⟨_, hid, -, rfl⟩
    exact ⟨hid, rfl⟩
  · rintro ⟨hid, rfl⟩
    exact ⟨(), hid, hkey, rfl⟩

theorem hoistEdge_bare {evidence t : EvidenceMap} {entry : String × GraphEdge}
    (hkey : entry.1 = entry.2.id) (hbare : entry.2.evidence = []) :
    hoistEdge evidence entry = .ok t ↔
      validateStableId "base edge ID" entry.1 (some "edge") = .ok () ∧ t = evidence := by
  simp only [hoistEdge, bind_eq_ok, ensure_eq_ok, exists_const, hbare, mergeEmbeddedEvidence,
    mergeEmbeddedFrom, Except.ok.injEq]
  constructor
  · rintro ⟨_, hid, -, rfl⟩
    exact ⟨hid, rfl⟩
  · rintro ⟨hid, rfl⟩
    exact ⟨(), hid, hkey, rfl⟩

/-- Nothing is left to move out of a base from a stream, so that only the ids are checked. -/
theorem hoisted_fromProtocol {protocol : ValidatedProtocol} {g : DeltaGraph}
    (hsites : KeyedBy DependencySite.id protocol.sites)
    (hedges : KeyedBy GraphEdge.id protocol.edges) :
    (DeltaGraph.fromProtocol protocol).hoisted = .ok g ↔
      ((∀ id ∈ protocol.sites, validateStableId "base site ID" id (some "site") = .ok ()) ∧
        ∀ id ∈ protocol.edges, validateStableId "base edge ID" id (some "edge") = .ok ()) ∧
      g = DeltaGraph.fromProtocol protocol := by
  have hsite {id : String} {site : DependencySite}
      (hfound : (DeltaGraph.fromProtocol protocol).sites[id]? = some site) :
      id ∈ protocol.sites ∧ id = site.id ∧ site.evidence = [] := by
    change (protocol.sites.map fun _ site => { site with evidence := [] })[id]? = _ at hfound
    rw [ExtTreeMap.getElem?_map, Option.map_eq_some_iff] at hfound
    obtain ⟨site, hsite, rfl⟩ := hfound
    exact ⟨mem_iff.2 ⟨site, hsite⟩, (hsites id site hsite).symm, rfl⟩
  have hedge {id : String} {edge : GraphEdge}
      (hfound : (DeltaGraph.fromProtocol protocol).edges[id]? = some edge) :
      id ∈ protocol.edges ∧ id = edge.id ∧ edge.evidence = [] := by
    change (protocol.edges.map fun _ edge => { edge with evidence := [] })[id]? = _ at hfound
    rw [ExtTreeMap.getElem?_map, Option.map_eq_some_iff] at hfound
    obtain ⟨edge, hedge, rfl⟩ := hfound
    exact ⟨mem_iff.2 ⟨edge, hedge⟩, (hedges id edge hedge).symm, rfl⟩
  have hsiteEntries : (∀ entry ∈ (DeltaGraph.fromProtocol protocol).sites.toList,
      validateStableId "base site ID" entry.1 (some "site") = .ok ()) ↔
        ∀ id ∈ protocol.sites, validateStableId "base site ID" id (some "site") = .ok () := by
    constructor
    · intro h id hid
      obtain ⟨site, hfound⟩ := mem_iff.1 ((ExtTreeMap.mem_map
        (f := fun (_ : String) (site : DependencySite) => { site with evidence := [] })).2 hid)
      exact h (id, site) (mem_toList.2 hfound)
    · exact fun h entry hentry => h entry.1 (hsite (mem_toList.1 hentry)).1
  have hedgeEntries : (∀ entry ∈ (DeltaGraph.fromProtocol protocol).edges.toList,
      validateStableId "base edge ID" entry.1 (some "edge") = .ok ()) ↔
        ∀ id ∈ protocol.edges, validateStableId "base edge ID" id (some "edge") = .ok () := by
    constructor
    · intro h id hid
      obtain ⟨edge, hfound⟩ := mem_iff.1 ((ExtTreeMap.mem_map
        (f := fun (_ : String) (edge : GraphEdge) => { edge with evidence := [] })).2 hid)
      exact h (id, edge) (mem_toList.2 hfound)
    · exact fun h entry hentry => h entry.1 (hedge (mem_toList.1 hentry)).1
  have hbare : { DeltaGraph.fromProtocol protocol with
      sites := (DeltaGraph.fromProtocol protocol).sites.map fun _ site => { site with evidence := [] }
      edges := (DeltaGraph.fromProtocol protocol).edges.map fun _ edge =>
        { edge with evidence := [] } } = DeltaGraph.fromProtocol protocol := by
    rw [map_eq_self fun id site hfound => by rw [← (hsite hfound).2.2],
      map_eq_self fun id edge hfound => by rw [← (hedge hfound).2.2]]
  simp only [DeltaGraph.hoisted, bind_eq_ok]
  constructor
  · rintro ⟨evidence, hsiteLoop, evidence', hedgeLoop, hg⟩
    obtain ⟨hsiteIds, rfl⟩ := (foldlM_checks fun entry hentry t =>
      hoistSite_bare (hsite (mem_toList.1 hentry)).2.1 (hsite (mem_toList.1 hentry)).2.2).1 hsiteLoop
    obtain ⟨hedgeIds, rfl⟩ := (foldlM_checks fun entry hentry t =>
      hoistEdge_bare (hedge (mem_toList.1 hentry)).2.1 (hedge (mem_toList.1 hentry)).2.2).1 hedgeLoop
    exact ⟨⟨hsiteEntries.1 hsiteIds, hedgeEntries.1 hedgeIds⟩, (Except.ok.inj hg).symm.trans hbare⟩
  · rintro ⟨⟨hsiteIds, hedgeIds⟩, rfl⟩
    exact ⟨_, (foldlM_checks fun entry hentry t =>
        hoistSite_bare (hsite (mem_toList.1 hentry)).2.1 (hsite (mem_toList.1 hentry)).2.2).2
          ⟨hsiteEntries.2 hsiteIds, rfl⟩, _,
      (foldlM_checks fun entry hentry t =>
        hoistEdge_bare (hedge (mem_toList.1 hentry)).2.1 (hedge (mem_toList.1 hentry)).2.2).2
          ⟨hedgeEntries.2 hedgeIds, rfl⟩, congrArg Except.ok hbare⟩

/-- The final state of a base whose ids are stable is accepted under the rest of the condition. -/
theorem validateFinalState_iff (h : v.StreamKept host) (hended : v.Ended host aggregate)
    (hsiteIds : ∀ id ∈ v.sites, validateStableId "base site ID" id (some "site") = .ok ())
    (hedgeIds : ∀ id ∈ v.edges, validateStableId "base edge ID" id (some "edge") = .ok ()) :
    validateFinalState host.ids (DeltaGraph.fromProtocol v.toProtocol) = .ok () ↔
      KeepsEvidence host.ids v.toProtocol ∧
      ((∀ file ∈ filesOf v.events, validateRelativePath "file coverage path" file.path = .ok ()) ∧
        (∀ event ∈ v.events, ∀ profileId coverage,
          event.payload = .profileCompleted profileId coverage → coverage.Canonical) ∧
        ∀ event ∈ v.events, ∀ coverage,
          event.payload = .scanCompleted coverage → coverage.Canonical) ∧
      ((filesOf v.events).map FileCompleted.path).Nodup ∧
        ((filesOf v.events).map FileCompleted.emittedSites).sum < 2 ^ 64 := by
  have howners : ∀ key ∈ (DeltaGraph.fromProtocol v.toProtocol).evidence.keys, ∃ u : Unit,
      validateEvidenceKey key = .ok u ∧ (DeltaGraph.fromProtocol v.toProtocol).ownerExists key := by
    intro key hkey
    exact ⟨(), owner_fromProtocol h.maps.site h.maps.edge hsiteIds hedgeIds
      (ExtTreeMap.mem_keys.1 hkey)⟩
  have hsiteProfiles : ∀ site ∈ values (DeltaGraph.fromProtocol v.toProtocol).sites,
      site.profileId ∈ (DeltaGraph.fromProtocol v.toProtocol).profiles := by
    intro site hsite
    rw [values_sites_fromProtocol] at hsite
    obtain ⟨stored, hstored, rfl⟩ := List.mem_map.1 hsite
    obtain ⟨id, hfound⟩ := mem_values.1 hstored
    exact mem_profiles_fromProtocol.2 (h.maps.site_profile id stored hfound)
  have hedgeProfiles : ∀ edge ∈ values (DeltaGraph.fromProtocol v.toProtocol).edges,
      edge.profileId ∈ (DeltaGraph.fromProtocol v.toProtocol).profiles := by
    intro edge hedge
    rw [values_edges_fromProtocol] at hedge
    obtain ⟨stored, hstored, rfl⟩ := List.mem_map.1 hedge
    obtain ⟨id, hfound⟩ := mem_values.1 hstored
    exact mem_profiles_fromProtocol.2 (h.maps.edge_profile id stored hfound)
  have haggregate : DeltaCoverageKey.aggregate ∈ (DeltaGraph.fromProtocol v.toProtocol).coverage :=
    mem_iff.2 ⟨_, hended.found⟩
  have hcovered : ∀ id ∈ (DeltaGraph.fromProtocol v.toProtocol).profiles.toList,
      DeltaCoverageKey.profile id ∈ (DeltaGraph.fromProtocol v.toProtocol).coverage := by
    intro id hid
    rw [toList_profiles_fromProtocol h hended, ExtTreeMap.mem_keys, mem_iff] at hid
    obtain ⟨coverage, hfound⟩ := hid
    refine mem_iff.2 ⟨.profile id coverage, ?_⟩
    change (protocolCoverage v.events)[_]? = _
    rw [h.events.profiles, hfound]
    rfl
  have hordinals : validateEvidenceOrdinals (DeltaGraph.fromProtocol v.toProtocol).evidence = .ok () :=
    validateEvidenceOrdinals_protocol v.sites v.edges
  rw [← @validateSiteEdgeInvariants_fromProtocol _ v.toProtocol h.maps.node h.maps.site
    h.maps.edge, ← entries_iff h hended, ← hierarchy_iff h hended]
  simp only [validateFinalState, bind_eq_ok, ensure_eq_ok, forM_eq_ok, exists_const]
  constructor
  · rintro ⟨-, _, -, -, -, _, hlinks, -, -, hentries, hhierarchy⟩
    exact ⟨hlinks, hentries, hhierarchy⟩
  · rintro ⟨hlinks, hentries, hhierarchy⟩
    exact ⟨howners, (), hordinals, hsiteProfiles, hedgeProfiles, (), hlinks, haggregate, hcovered,
      hentries, hhierarchy⟩

/-- **The base of an accepted stream is accepted exactly when the stream is in the form that deltas
require.** -/
theorem new_fromProtocol_iff (h : v.StreamKept host) (hended : v.Ended host aggregate)
    {snapshotId : String}
    (hid : validateStableId "base snapshot ID" snapshotId (some "snapshot") = .ok ()) :
    (∃ d, DeltaValidator.new host.ids (.fromProtocol snapshotId
        (deltaGraphDigest host.ids (.fromProtocol v.toProtocol)) v.toProtocol) = .ok d) ↔
      DeltaReady host.ids v.toProtocol := by
  have hdigest : validateDigest "base graph digest"
      (deltaGraphDigest host.ids (.fromProtocol v.toProtocol)) = .ok () :=
    ensure_eq_ok.2 (deltaGraphDigest_hex _ _)
  have hnames : (DeltaGraph.fromProtocol v.toProtocol).profiles.toList.forM
      (requireNonEmpty "base profile ID") = .ok () := by
    rw [forM_eq_ok]
    intro id hmem
    exact requireNonEmpty_eq_ok.2 (h.maps.profile_id id
      (mem_profiles_fromProtocol.1 (ExtTreeSet.mem_toList.1 hmem)))
  have hnodes : (DeltaGraph.fromProtocol v.toProtocol).nodes.toList.forM checkBaseNode = .ok () ↔
      ∀ id ∈ v.nodes, validateStableId "base node ID" id none = .ok () := by
    rw [forM_eq_ok]
    simp only [checkBaseNode, bind_eq_ok, ensure_eq_ok]
    constructor
    · intro hall id hmem
      obtain ⟨node, hfound⟩ := mem_iff.1 hmem
      obtain ⟨_, hstable, -⟩ := hall (id, node) (mem_toList.2 hfound)
      exact hstable
    · intro hall entry hentry
      have hfound := mem_toList.1 hentry
      exact ⟨(), hall entry.1 (mem_iff.2 ⟨_, hfound⟩), (h.maps.node _ _ hfound).symm⟩
  have hnew (d : DeltaValidator) : DeltaValidator.new host.ids (.fromProtocol snapshotId
        (deltaGraphDigest host.ids (.fromProtocol v.toProtocol)) v.toProtocol) = .ok d →
      DeltaReady host.ids v.toProtocol := by
    intro hd
    simp only [DeltaValidator.new, bind_eq_ok] at hd
    obtain ⟨_, -, _, -, _, -, _, hnodeIds, g, hg, _, hfinal, -⟩ := hd
    obtain ⟨⟨hsiteIds, hedgeIds⟩, rfl⟩ := (hoisted_fromProtocol h.maps.site h.maps.edge).1 hg
    obtain ⟨hkept, ⟨hpaths, hprofiles, hscan⟩, hdistinct, hemitted⟩ :=
      (validateFinalState_iff h hended hsiteIds hedgeIds).1 hfinal
    exact ⟨hnodes.1 hnodeIds, hsiteIds, hedgeIds, hpaths, hdistinct, hemitted, hprofiles, hscan, hkept⟩
  refine ⟨fun hd => hd.elim hnew, fun hready => ?_⟩
  have hg := (hoisted_fromProtocol h.maps.site h.maps.edge (g := .fromProtocol v.toProtocol)).2
    ⟨⟨hready.site_id, hready.edge_id⟩, rfl⟩
  have hfinal := (validateFinalState_iff h hended hready.site_id hready.edge_id).2
    ⟨hready.kept, ⟨hready.path, hready.profile, hready.scan⟩, hready.distinct, hready.emitted⟩
  simp only [DeltaValidator.new, bind_eq_ok]
  exact ⟨_, (), hid, (), hdigest, (), hnames, (), hnodes.2 hready.node_id, _, hg, (), hfinal, rfl⟩

end

open ProtocolValidator in
/-- **Streams and deltas agree about an accepted graph up to the form that deltas require.** The base of
an accepted stream is accepted if and only if ids, paths, lists and ledgers are canonical; lists of
evidence that the ordinals can number are always kept. A request that is made from the base passes its
checks and gives the base back, whatever the form. -/
theorem fromProtocol_accepted (host : Host) (policy : ValidationPolicy) (retainGraphEvents : Bool)
    (events : List ProtocolEvent) {v : ProtocolValidator} {protocol : ValidatedProtocol}
    (haccepted : accepted host (fresh policy retainGraphEvents) events = some v)
    (hprotocol : v.finish = .ok protocol) {snapshotId : String}
    (hid : validateStableId "base snapshot ID" snapshotId (some "snapshot") = .ok ()) :
    ((∃ d, DeltaValidator.new host.ids (.fromProtocol snapshotId
        (deltaGraphDigest host.ids (.fromProtocol protocol)) protocol) = .ok d) ↔
      DeltaReady host.ids protocol) ∧
    (ShortEvidence protocol.sites protocol.edges → KeepsEvidence host.ids protocol) ∧
    ∀ scanId adapter analysisMode changes scope, RequestFields scanId adapter changes scope →
      ∃ request, WorkerDeltaRequest.newWithMode host.ids scanId adapter analysisMode changes scope
          (.fromProtocol snapshotId (deltaGraphDigest host.ids (.fromProtocol protocol)) protocol) =
            .ok request ∧
        request.validate host.ids = .ok () ∧
        request.buildBaseGraph host.ids = .ok (.fromProtocol snapshotId
          (deltaGraphDigest host.ids (.fromProtocol protocol)) protocol) := by
  obtain ⟨hruns, hstate⟩ := accepted_eq_some.1 haccepted
  have hkept := (@streamKept_fresh host policy retainGraphEvents).runs hruns
  obtain ⟨aggregate, hended⟩ := hkept.ended hstate
  simp only [finish, bind_eq_ok] at hprotocol
  obtain ⟨_, -, hprotocol⟩ := hprotocol
  obtain rfl : v.toProtocol = protocol := Except.ok.inj hprotocol
  refine ⟨new_fromProtocol_iff hkept hended hid, fun hshort => ?_, ?_⟩
  · obtain ⟨hsites, hedges⟩ := hydrated_of_short hkept.maps.site hkept.maps.edge hshort
    have hlinks (sites : SiteMap) (edges : EdgeMap) (hs : sites = v.sites) (he : edges = v.edges) :
        validateSiteEdgeMaps host.ids v.nodes edges sites .required = .ok () := by
      rw [hs, he]
      exact hended.links
    exact hlinks _ _ hsites hedges
  · intro scanId adapter analysisMode changes scope hfields
    refine newWithMode_ok hfields ⟨hkept.maps.node, ?_, ?_⟩ (keyedBy_protocolCoverage _)
      (validateStableId_field hid) rfl analysisMode
    · intro id site hfound
      change (v.sites.map fun _ site => { site with evidence := [] })[id]? = _ at hfound
      rw [ExtTreeMap.getElem?_map, Option.map_eq_some_iff] at hfound
      obtain ⟨stored, hstored, rfl⟩ := hfound
      exact hkept.maps.site id stored hstored
    · intro id edge hfound
      change (v.edges.map fun _ edge => { edge with evidence := [] })[id]? = _ at hfound
      rw [ExtTreeMap.getElem?_map, Option.map_eq_some_iff] at hfound
      obtain ⟨stored, hstored, rfl⟩ := hfound
      exact hkept.maps.edge id stored hstored

namespace BaseSample

open ProtocolValidator

def common (seq : Nat) : CommonFields := ⟨protocolVersion, "scan", "worker", "1", seq⟩

/-- The coverage of one profile with nothing in it but reasons. -/
def coverage (reasons : List String) : Coverage := ⟨1, 0, 0, 0, 0, 0, 0, 0, 0, 0, false, [], reasons⟩

/-- A stream without files, nodes or sites. -/
def events (reasons : List String) : List ProtocolEvent :=
  [⟨common 1, .scanStarted "/r" false true⟩,
    ⟨common 2, .profileDeclared ⟨"p", "go", none, none, none, [], ∅, none, ∅⟩⟩,
    ⟨common 3, .profileCompleted "p" (coverage reasons)⟩,
    ⟨common 4, .scanCompleted (coverage reasons)⟩]

def host : Host where
  ids := Sample.stableIds
  fromStr _ := none
  malformed _ _ := ""
  canonicalize _ := none
  overflowChecks := true

/-- The base of a stream under one snapshot. -/
def base (protocol : ValidatedProtocol) : DeltaBaseGraph :=
  .fromProtocol Sample.snapshotId (deltaGraphDigest host.ids (.fromProtocol protocol)) protocol

theorem validateStableId_snapshot : validateStableId "base snapshot ID" Sample.snapshotId
    (some "snapshot") = .ok () := by
  rw [validateStableId]
  decide +kernel

/-- Whether the base of the accepted stream is accepted. -/
def baseAccepted (reasons : List String) : Option Bool := do
  let v ← accepted host (fresh .compatible true) (events reasons)
  let protocol ← v.finish.toOption
  return (DeltaValidator.new host.ids (base protocol)).isOk

theorem baseAccepted_sorted : baseAccepted ["a", "b"] = some true := by decide +kernel

theorem baseAccepted_unsorted : baseAccepted ["b", "a"] = some false := by decide +kernel

/-- The stream and its base behind the answer. -/
theorem of_baseAccepted {reasons : List String} {answer : Bool}
    (h : baseAccepted reasons = some answer) : ∃ v protocol,
      accepted host (fresh .compatible true) (events reasons) = some v ∧ v.finish = .ok protocol ∧
      (DeltaValidator.new host.ids (base protocol)).isOk = answer := by
  simp only [baseAccepted, Option.bind_eq_bind, Option.bind_eq_some_iff, Option.pure_def,
    Option.some.injEq] at h
  obtain ⟨v, haccepted, protocol, hfinish, hanswer⟩ := h
  cases hprotocol : v.finish with
  | error failure =>
    rw [hprotocol] at hfinish
    cases hfinish
  | ok found =>
    rw [hprotocol] at hfinish
    obtain rfl := Option.some.inj hfinish
    exact ⟨v, _, haccepted, hprotocol, hanswer⟩

end BaseSample

open BaseSample ProtocolValidator

/-- Two reasons in the wrong order: the stream is accepted, and its base is not. -/
theorem fromProtocol_rejected : ∃ v protocol,
    accepted host (fresh .compatible true) (events ["b", "a"]) = some v ∧ v.finish = .ok protocol ∧
    ¬ ∃ d, DeltaValidator.new host.ids (base protocol) = .ok d := by
  obtain ⟨v, protocol, haccepted, hfinish, hanswer⟩ := of_baseAccepted baseAccepted_unsorted
  refine ⟨v, protocol, haccepted, hfinish, fun haccepts => ?_⟩
  obtain ⟨d, hd⟩ := haccepts
  rw [hd] at hanswer
  cases hanswer

theorem fromProtocol_accepted_sorted : ∃ v protocol,
    accepted host (fresh .compatible true) (events ["a", "b"]) = some v ∧ v.finish = .ok protocol ∧
    DeltaReady host.ids protocol ∧
    ∃ request, WorkerDeltaRequest.newWithMode host.ids "scan" "worker" .complete
        [⟨.modified, none, some "a.txt"⟩] Sample.scope (base protocol) = .ok request ∧
      request.validate host.ids = .ok () ∧
      request.buildBaseGraph host.ids = .ok (base protocol) := by
  obtain ⟨v, protocol, haccepted, hfinish, hanswer⟩ := of_baseAccepted baseAccepted_sorted
  obtain ⟨hiff, -, hrequest⟩ := fromProtocol_accepted host .compatible true (events ["a", "b"])
    haccepted hfinish validateStableId_snapshot
  refine ⟨v, protocol, haccepted, hfinish, hiff.1 ?_, hrequest _ _ _ _ _ ?_⟩
  · cases hnew : DeltaValidator.new host.ids (base protocol) with
    | ok d => exact ⟨d, hnew⟩
    | error failure =>
      rw [hnew] at hanswer
      cases hanswer
  · exact ⟨by decide, by decide, rfl, by decide +kernel, by decide +kernel⟩

end Protocol
