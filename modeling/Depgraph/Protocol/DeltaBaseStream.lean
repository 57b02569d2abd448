import Depgraph.Protocol.DeltaRequest
import Depgraph.Protocol.PayloadOrder
import Depgraph.Protocol.StreamPanics

/-!
# What an accepted stream says about its base

The invariants of a run of the stream validator that the coverage and the maps of a base rest on. What
the loop of `from_protocol` finds in the events is what the validator has checked: the last coverage of
a profile, the coverage of the scan, and the ledgers of the files.
-/

namespace Protocol

open Json Fallible Panics OrderedMap Std

/-! ### Files -/

/-- The ledger of a file adds up, and what is skipped has a reason. -/
structure FileCompleted.Accounted (file : FileCompleted) : Prop where
  total : file.emittedSites + file.skippedSites = file.discoveredSites
  fits : file.discoveredSites < 2 ^ 64
  skips : 0 < file.skippedSites → file.skipped = true
  reasons : file.skipped = true → ∃ reason, file.reason = some reason ∧ reason ≠ ""

theorem checkedAddU64_eq_some {a b sum : Nat} :
    checkedAddU64 a b = some sum ↔ a + b = sum ∧ sum < 2 ^ 64 := by
  rw [checkedAddU64, Option.ite_none_right_eq_some, Option.some.injEq]
  constructor
  · rintro ⟨hfits, rfl⟩
    exact ⟨rfl, hfits⟩
  · rintro ⟨rfl, hfits⟩
    exact ⟨hfits, rfl⟩

theorem accounted_of_checkFile {host : Host} {v : ProtocolValidator} {file : FileCompleted}
    (h : v.checkFile host file = .ok ()) : file.Accounted := by
  simp only [ProtocolValidator.checkFile, bind_eq_ok, orReject_eq_ok, required_eq_ok, ensure_eq_ok,
    checkedAddU64_eq_some, exists_const] at h
  obtain ⟨_, -, _, -, accounted, ⟨hsum, hfits⟩, htotal, hskips, hreason, hnamed⟩ := h
  refine ⟨hsum.trans htotal, htotal ▸ hfits, fun hpos => ?_, fun hskipped => ?_⟩
  · by_contra hnot
    exact hskips ⟨hpos, Bool.eq_false_iff.2 hnot⟩
  · cases hfile : file.reason with
    | none => exact absurd ⟨hskipped, hfile⟩ hreason
    | some reason =>
      rw [hfile] at hnamed
      exact ⟨reason, rfl, requireNonEmpty_eq_ok.1 hnamed⟩

/-! ### Coverage in the events -/

theorem protocolCoverage_append_none {events : List ProtocolEvent} {event : ProtocolEvent}
    (h : eventCoverage event = none) (p : ProtocolEvent → Bool) :
    protocolCoverage (events ++ [event].filter p) = protocolCoverage events := by
  have hnone : ([event].filter p).filterMap eventCoverage = [] := by
    rw [List.filter_singleton]
    cases p event <;> simp [h]
  rw [protocolCoverage, List.filterMap_append, hnone, List.append_nil, protocolCoverage]

theorem protocolCoverage_append_some {events : List ProtocolEvent} {event : ProtocolEvent}
    {item : DeltaCoverage} (h : eventCoverage event = some item) {p : ProtocolEvent → Bool}
    (hp : p event = true) : protocolCoverage (events ++ [event].filter p) =
      (protocolCoverage events).insert item.key item := by
  rw [List.filter_singleton, hp, cond_true, protocolCoverage, List.filterMap_append,
    List.filterMap_cons_some h, List.map_append, insertAll_append]
  rfl

namespace ProtocolValidator

variable {host : Host} {v v' : ProtocolValidator} {event : ProtocolEvent}

theorem retains_of_eventCoverage {item : DeltaCoverage} (h : eventCoverage event = some item) :
    v.retains event = true := by
  have hgraph : event.payload.isGraphEvent = false := by
    unfold eventCoverage at h
    split at h
    · rename_i heq
      rw [heq]
      rfl
    · rename_i heq
      rw [heq]
      rfl
    · rename_i heq
      rw [heq]
      rfl
    · cases h
  rw [retains, hgraph]
  exact Bool.or_true _

/-- An event leaves the entries under other keys alone. -/
theorem getElem?_protocolCoverage_append {events : List ProtocolEvent} {key : DeltaCoverageKey}
    (h : ∀ item, eventCoverage event = some item → key ≠ item.key) :
    (protocolCoverage (events ++ [event].filter v.retains))[key]? = (protocolCoverage events)[key]? := by
  cases hitem : eventCoverage event with
  | none => rw [protocolCoverage_append_none hitem]
  | some item =>
    rw [protocolCoverage_append_some hitem (retains_of_eventCoverage hitem), getElem?_insert,
      if_neg (h item hitem)]

/-! ### The maps -/

/-- The maps are keyed, and their records name declared profiles. -/
structure MapsKept (v : ProtocolValidator) : Prop where
  node : KeyedBy GraphNode.id v.nodes
  site : KeyedBy DependencySite.id v.sites
  edge : KeyedBy GraphEdge.id v.edges
  profile_id : ∀ id ∈ v.profiles, id ≠ ""
  site_profile : ∀ (id : String) (site : DependencySite), v.sites[id]? = some site →
    site.profileId ∈ v.profiles
  edge_profile : ∀ (id : String) (edge : GraphEdge), v.edges[id]? = some edge →
    edge.profileId ∈ v.profiles

theorem forall_insertIfNew {V : Type} {m : ExtTreeMap String V} {id : String} {value : V}
    {p : V → Prop} (h : ∀ (key : String) (v : V), m[key]? = some v → p v) (hp : p value)
    (key : String) (v : V) (hv : (m.insertIfNew id value)[key]? = some v) : p v := by
  rw [getElem?_insertIfNew] at hv
  split_ifs at hv with hnew
  · exact Option.some.inj hv ▸ hp
  · exact h key v hv

theorem requireActiveProfile_ok {profileId name : String}
    (h : v.requireActiveProfile profileId name = .ok ()) : profileId ∈ v.profiles := by
  simp only [requireActiveProfile, requireDeclaredProfile, bind_eq_ok, check_eq_ok,
    exists_const] at h
  exact h.1

theorem MapsKept.noted (h : v.MapsKept) {payload : EventPayload}
    (hverdict : v.payloadVerdict host payload = .ok ()) : (v.noted payload).MapsKept := by
  cases payload with
  | scanStarted root projectCodeExecuted safeMode => exact ⟨h.1, h.2, h.3, h.4, h.5, h.6⟩
  | diagnostic diagnostic => exact ⟨h.1, h.2, h.3, h.4, h.5, h.6⟩
  | fileCompleted path discoveredSites emittedSites skippedSites skipped reason => exact h
  | profileCompleted profileId coverage => exact ⟨h.1, h.2, h.3, h.4, h.5, h.6⟩
  | scanCompleted coverage => exact ⟨h.1, h.2, h.3, h.4, h.5, h.6⟩
  | profileDeclared profile =>
    simp only [payloadVerdict, checkProfile, validateProfile, bind_eq_ok, orReject_eq_ok,
      requireNonEmpty_eq_ok, exists_const] at hverdict
    obtain ⟨_, ⟨_, ⟨hid, -⟩, -⟩, -⟩ := hverdict
    have hmem (id : String) (hid : id ∈ v.profiles) :
        id ∈ v.profiles.insertIfNew profile.id profile :=
      ExtTreeMap.mem_insertIfNew.2 (.inr hid)
    refine ⟨h.node, h.site, h.edge, fun id hmem => ?_,
      fun id site hsite => hmem _ (h.site_profile id site hsite),
      fun id edge hedge => hmem _ (h.edge_profile id edge hedge)⟩
    rcases ExtTreeMap.mem_insertIfNew.1 hmem with heq | hold
    · exact Std.compare_eq_iff_eq.1 heq ▸ hid
    · exact h.profile_id id hold
  | nodeUpsert node => exact ⟨h.node.insertIfNew, h.2, h.3, h.4, h.5, h.6⟩
  | edgeUpsert edge =>
    simp only [payloadVerdict, checkEdge, bind_eq_ok, orReject_eq_ok] at hverdict
    obtain ⟨_, ⟨_, -, _, hactive, -⟩, -⟩ := hverdict
    exact ⟨h.1, h.2, h.edge.insertIfNew, h.4, h.5,
      forall_insertIfNew h.edge_profile (requireActiveProfile_ok hactive)⟩
  | dependencySite site =>
    simp only [payloadVerdict, checkSite, bind_eq_ok, orReject_eq_ok] at hverdict
    obtain ⟨_, ⟨_, -, _, hactive, -⟩, -⟩ := hverdict
    exact ⟨h.1, h.site.insertIfNew, h.3, h.4,
      forall_insertIfNew h.site_profile (requireActiveProfile_ok hactive), h.6⟩

/-! ### The events -/

/-- The events come from one adapter, their files are accounted for, and their coverage is what the
validator keeps. -/
structure EventsKept (v : ProtocolValidator) : Prop where
  adapter : ∀ event ∈ v.events, ∃ identity, v.identity = some identity ∧
    event.common.adapter = identity.adapter
  named : ∀ identity, v.identity = some identity → identity.adapter ≠ ""
  files : ∀ event ∈ v.events, ∀ file, event.payload.file? = some file → file.Accounted
  profiles : ∀ profileId, (protocolCoverage v.events)[DeltaCoverageKey.profile profileId]? =
    v.profileCoverage[profileId]?.map (.profile profileId)
  aggregate : v.state ≠ .completed →
    (protocolCoverage v.events)[DeltaCoverageKey.aggregate]? = none

/-! ### The coverage of the profiles -/

/-- What has been checked of the completed profiles holds of the current sites. -/
structure CoverageKept (host : Host) (v : ProtocolValidator) : Prop where
  completed : ∀ id, id ∈ v.completedProfiles ↔ id ∈ v.profileCoverage
  declared : ∀ id ∈ v.profileCoverage, id ∈ v.profiles
  closed : ∀ id ∈ v.profileCoverage, v.payloadClosed = true
  checked : ∀ (id : String) (coverage : Coverage), v.profileCoverage[id]? = some coverage →
    Stream.validateCoverage host.overflowChecks coverage = .ok () ∧
      Stream.validateProfileCoverage id coverage v.sites = .ok ()

theorem checkState_ok {payload : EventPayload} (h : v.checkState payload = .ok ()) :
    v.state ≠ .completed ∧ ¬ (v.payloadClosed = true ∧ payload.isPayloadEvent = true) := by
  unfold checkState at h
  cases hstate : v.state with
  | completed =>
    rw [hstate] at h
    cases h
  | scanning =>
    rw [hstate] at h
    exact ⟨StreamState.noConfusion, check_eq_ok.1 h⟩
  | awaitingStart =>
    rw [hstate] at h
    refine ⟨StreamState.noConfusion, ?_⟩
    cases payload with
    | scanStarted root projectCodeExecuted safeMode => exact check_eq_ok.1 h
    | _ => cases h

theorem CoverageKept.noted (h : v.CoverageKept host) {payload : EventPayload}
    (hstate : v.checkState payload = .ok ())
    (hverdict : v.payloadVerdict host payload = .ok ()) : (v.noted payload).CoverageKept host := by
  have hopen (hpayload : payload.isPayloadEvent = true) (id : String) : id ∉ v.profileCoverage := by
    intro hid
    exact (checkState_ok hstate).2 ⟨h.closed id hid, hpayload⟩
  cases payload with
  | scanStarted root projectCodeExecuted safeMode => exact ⟨h.1, h.2, h.3, h.4⟩
  | diagnostic diagnostic => exact ⟨h.1, h.2, h.3, h.4⟩
  | fileCompleted path discoveredSites emittedSites skippedSites skipped reason => exact h
  | scanCompleted coverage => exact ⟨h.1, h.2, h.3, h.4⟩
  | nodeUpsert node => exact ⟨h.1, h.2, h.3, h.4⟩
  | edgeUpsert edge => exact ⟨h.1, h.2, h.3, h.4⟩
  | profileDeclared profile =>
    exact ⟨h.1, fun id hid => ExtTreeMap.mem_insertIfNew.2 (.inr (h.declared id hid)), h.3, h.4⟩
  | dependencySite site =>
    refine ⟨h.1, h.2, h.3, fun id coverage hfound => ?_⟩
    exact absurd (mem_iff.2 ⟨coverage, hfound⟩) (hopen rfl id)
  | profileCompleted profileId coverage =>
    simp only [payloadVerdict, requireDeclaredProfile, checkCompletion, bind_eq_ok, orReject_eq_ok,
      check_eq_ok, exists_const] at hverdict
    obtain ⟨hdeclared, -, _, -, _, hcoverage, _, hprofile, -⟩ := hverdict
    have hmem (id : String) : id ∈ v.profileCoverage.insert profileId coverage ↔
        id = profileId ∨ id ∈ v.profileCoverage := by
      rw [ExtTreeMap.mem_insert, Std.compare_eq_iff_eq, eq_comm]
    refine ⟨fun id => ?_, fun id hid => ?_, fun _ _ => rfl, fun id found hfound => ?_⟩
    · exact mem_insert.trans ((or_congr_right (h.completed id)).trans (hmem id).symm)
    · rcases (hmem id).1 hid with rfl | hold
      · exact hdeclared
      · exact h.declared id hold
    · change (v.profileCoverage.insert profileId coverage)[id]? = some found at hfound
      rw [getElem?_insert] at hfound
      split_ifs at hfound with heq
      · obtain rfl := Option.some.inj hfound
        subst heq
        exact ⟨hcoverage, hprofile⟩
      · exact h.checked id found hfound

theorem EventsKept.recorded (h : v.EventsKept) (hverdict : v.verdict host event = .ok ()) :
    (v.recorded event).EventsKept := by
  simp only [verdict, bind_eq_ok, orReject_eq_ok] at hverdict
  obtain ⟨_, hcommon, _, hstate, hpayload⟩ := hverdict
  obtain ⟨hroutable, -, hidentity⟩ := commonVerdict_eq_ok.1 hcommon
  have hevents : (v.recorded event).events = v.events ++ [event].filter v.retains :=
    events_recorded event
  have hidentity' : (v.recorded event).identity = some (identityOf event.common) := by
    rw [recorded_eq]
  have hmem {other : ProtocolEvent} (hother : other ∈ (v.recorded event).events) :
      other ∈ v.events ∨ other = event := by
    rw [hevents, List.mem_append] at hother
    exact hother.imp_right fun hfilter => List.mem_singleton.1 (List.mem_filter.1 hfilter).1
  have hopen := h.aggregate (checkState_ok hstate).1
  have hcoverage : (v.recorded event).profileCoverage = (v.noted event.payload).profileCoverage := by
    rw [recorded_eq]
  have hnext : (v.recorded event).state = (v.noted event.payload).state := by
    rw [recorded_eq]
  constructor
  case adapter =>
    intro other hother
    refine ⟨_, hidentity', ?_⟩
    rcases hmem hother with hold | rfl
    · obtain ⟨identity, hsome, hadapter⟩ := h.adapter other hold
      rw [hadapter, hidentity identity hsome]
    · rfl
  case named =>
    intro identity hsome
    rw [hidentity', Option.some.injEq] at hsome
    exact hsome ▸ requireNonEmpty_eq_ok.1 hroutable.2.2.1
  case files =>
    intro other hother file hfile
    rcases hmem hother with hold | rfl
    · exact h.files other hold file hfile
    · cases hkind : other.payload with
      | fileCompleted path discoveredSites emittedSites skippedSites skipped reason =>
        rw [hkind] at hpayload hfile
        exact Option.some.inj hfile ▸ accounted_of_checkFile hpayload
      | _ =>
        rw [hkind] at hfile
        cases hfile
  case profiles =>
    intro profileId
    rw [hevents, hcoverage]
    cases hkind : event.payload with
    | fileCompleted path discoveredSites emittedSites skippedSites skipped reason =>
      rw [getElem?_protocolCoverage_append fun item hitem => ?_]
      · exact h.profiles profileId
      · rw [eventCoverage, hkind] at hitem
        exact Option.some.inj hitem ▸ DeltaCoverageKey.noConfusion
    | profileCompleted completed coverage =>
      have hitem : eventCoverage event = some (.profile completed coverage) := by
        rw [eventCoverage, hkind]
      rw [protocolCoverage_append_some hitem (retains_of_eventCoverage hitem), getElem?_insert]
      change _ = (v.profileCoverage.insert completed coverage)[profileId]?.map _
      rw [getElem?_insert, h.profiles, DeltaCoverage.key]
      by_cases heq : profileId = completed
      · rw [if_pos heq, if_pos (congrArg DeltaCoverageKey.profile heq), heq]
        rfl
      · rw [if_neg heq, if_neg fun hkey => heq (DeltaCoverageKey.profile.inj hkey)]
    | scanCompleted coverage =>
      rw [getElem?_protocolCoverage_append fun item hitem => ?_]
      · exact h.profiles profileId
      · rw [eventCoverage, hkind] at hitem
        exact Option.some.inj hitem ▸ DeltaCoverageKey.noConfusion
    | _ =>
      have hitem : eventCoverage event = none := by
        rw [eventCoverage, hkind]
      rw [protocolCoverage_append_none hitem]
      exact h.profiles profileId
  case aggregate =>
    intro hscanning
    rw [hnext] at hscanning
    rw [hevents, getElem?_protocolCoverage_append fun item hitem => ?_]
    · exact hopen
    · cases hkind : event.payload with
      | fileCompleted path discoveredSites emittedSites skippedSites skipped reason =>
        rw [eventCoverage, hkind] at hitem
        exact Option.some.inj hitem ▸ DeltaCoverageKey.noConfusion
      | profileCompleted completed coverage =>
        rw [eventCoverage, hkind] at hitem
        exact Option.some.inj hitem ▸ DeltaCoverageKey.noConfusion
      | scanCompleted coverage =>
        rw [hkind] at hscanning
        exact absurd rfl hscanning
      | _ =>
        rw [eventCoverage, hkind] at hitem
        cases hitem

/-! ### The end of the stream -/

/-- What the last event of a stream has established. -/
structure Ended (host : Host) (v : ProtocolValidator) (aggregate : Coverage) : Prop where
  found : (protocolCoverage v.events)[DeltaCoverageKey.aggregate]? = some (.aggregate aggregate)
  only : ∀ event ∈ v.events, ∀ coverage, event.payload = .scanCompleted coverage →
    coverage = aggregate
  covered : ∀ id ∈ v.profiles, id ∈ v.profileCoverage
  coverage : Stream.validateCoverage host.overflowChecks aggregate = .ok ()
  scan : validateScanCoverage host.overflowChecks aggregate v.profiles v.sites v.events = .ok ()
  profiles : validateAggregateProfileCoverage aggregate v.profileCoverage = .ok ()
  links : validateSiteEdgeMaps host.ids v.nodes v.edges v.sites .required = .ok ()

/-- The coverage of a profile is emitted once. -/
def ProfilesOnce (v : ProtocolValidator) : Prop :=
  ∀ event ∈ v.events, ∀ profileId coverage, event.payload = .profileCompleted profileId coverage →
    v.profileCoverage[profileId]? = some coverage

theorem ProfilesOnce.recorded (h : v.ProfilesOnce) (hcoverage : v.CoverageKept host)
    (hpayload : v.payloadVerdict host event.payload = .ok ()) : (v.recorded event).ProfilesOnce := by
  intro other hother profileId coverage hkind
  have hnoted : (v.recorded event).profileCoverage = (v.noted event.payload).profileCoverage := by
    rw [recorded_eq]
  rw [hnoted]
  rw [events_recorded, List.mem_append] at hother
  rcases hother with hold | hnew
  · have hfound := h other hold profileId coverage hkind
    cases hevent : event.payload with
    | profileCompleted completed new =>
      rw [hevent] at hpayload
      simp only [payloadVerdict, bind_eq_ok, orReject_eq_ok, check_eq_ok, exists_const] at hpayload
      obtain ⟨_, -, hfresh, -⟩ := hpayload
      have hne : profileId ≠ completed := by
        rintro rfl
        exact hfresh ((hcoverage.completed _).2 (mem_iff.2 ⟨coverage, hfound⟩))
      change (v.profileCoverage.insert completed new)[profileId]? = _
      rw [getElem?_insert, if_neg hne, hfound]
    | _ => exact hfound
  · obtain rfl := List.mem_singleton.1 (List.mem_filter.1 hnew).1
    rw [hkind]
    change (v.profileCoverage.insert profileId coverage)[profileId]? = _
    rw [getElem?_insert, if_pos rfl]

/-- The invariant of a run. -/
structure StreamKept (host : Host) (v : ProtocolValidator) : Prop where
  once : v.ProfilesOnce
  maps : v.MapsKept
  events : v.EventsKept
  coverage : v.CoverageKept host
  ended : v.state = .completed → ∃ aggregate, v.Ended host aggregate

/-- A stream that is not completed has no coverage of the scan yet. -/
theorem EventsKept.not_scanCompleted (h : v.EventsKept) (hstate : v.state ≠ .completed)
    {other : ProtocolEvent} (hother : other ∈ v.events) {coverage : Coverage} :
    other.payload ≠ .scanCompleted coverage := by
  intro hkind
  refine not_mem_iff.2 (h.aggregate hstate) (mem_insertAll.2 (.inr ?_))
  have hitem : eventCoverage other = some (.aggregate coverage) := by
    rw [eventCoverage, hkind]
  rw [List.map_map]
  exact List.mem_map.2 ⟨_, List.mem_filterMap.2 ⟨other, hother, hitem⟩, rfl⟩

theorem ended_recorded (h : v.CoverageKept host) (hevents : v.EventsKept)
    (hstate : v.state ≠ .completed) {coverage : Coverage}
    (hkind : event.payload = .scanCompleted coverage)
    (hverdict : v.checkScanCompleted host coverage = .ok ()) :
    (v.recorded event).Ended host coverage := by
  simp only [checkScanCompleted, bind_eq_ok, orReject_eq_ok, check_eq_ok, exists_const] at hverdict
  obtain ⟨hcompleted, _, -, _, hcoverage, _, hscan, _, hprofiles, _, -, _, hlinks, -⟩ := hverdict
  have hitem : eventCoverage event = some (.aggregate coverage) := by
    rw [eventCoverage, hkind]
  have happend : (v.recorded event).events = v.events ++ [event].filter v.retains :=
    events_recorded event
  have hfiles : validateScanCoverage host.overflowChecks coverage v.profiles v.sites
      (v.events ++ [event].filter v.retains) = .ok () := by
    have hnone : ([event].filter v.retains).filterMap (fun event => event.payload.file?) = [] := by
      rw [List.filter_singleton, retains_of_eventCoverage hitem, cond_true]
      exact List.filterMap_cons_none (by rw [hkind]; rfl)
    unfold validateScanCoverage at hscan ⊢
    rw [List.filterMap_append, hnone, List.append_nil]
    exact hscan
  rw [recorded_eq, happend, hkind]
  refine ⟨?_, fun other hother found hfound => ?_, fun id hid => ?_, hcoverage, hfiles, hprofiles,
    hlinks⟩
  · change (protocolCoverage (v.events ++ [event].filter v.retains))[_]? = _
    rw [protocolCoverage_append_some hitem (retains_of_eventCoverage hitem), getElem?_insert]
    exact if_pos rfl
  · rcases List.mem_append.1 hother with hold | hnew
    · exact absurd hfound (hevents.not_scanCompleted hstate hold)
    · obtain rfl := List.mem_singleton.1 (List.mem_filter.1 hnew).1
      exact (EventPayload.scanCompleted.inj (hkind.symm.trans hfound)).symm
  · by_contra hnot
    have hmem : id ∈ v.profiles.keys.filter fun id => id ∉ v.completedProfiles := by
      rw [List.mem_filter, ExtTreeMap.mem_keys, decide_eq_true_eq, h.completed]
      exact ⟨hid, hnot⟩
    rw [hcompleted] at hmem
    cases hmem

theorem StreamKept.recorded (h : v.StreamKept host) (hverdict : v.verdict host event = .ok ()) :
    (v.recorded event).StreamKept host := by
  have hparts := hverdict
  simp only [verdict, bind_eq_ok, orReject_eq_ok] at hparts
  obtain ⟨_, -, _, hstate, hpayload⟩ := hparts
  have hmaps := h.maps.noted hpayload
  have hcoverage := h.coverage.noted hstate hpayload
  constructor
  case once => exact h.once.recorded h.coverage hpayload
  case maps =>
    rw [recorded_eq]
    exact ⟨hmaps.1, hmaps.2, hmaps.3, hmaps.4, hmaps.5, hmaps.6⟩
  case events => exact h.events.recorded hverdict
  case coverage =>
    rw [recorded_eq]
    exact ⟨hcoverage.1, hcoverage.2, hcoverage.3, hcoverage.4⟩
  case ended =>
    intro hcompleted
    rw [recorded_eq] at hcompleted
    cases hkind : event.payload with
    | scanCompleted coverage =>
      rw [hkind] at hpayload
      exact ⟨coverage, ended_recorded h.coverage h.events (checkState_ok hstate).1 hkind hpayload⟩
    | scanStarted root projectCodeExecuted safeMode =>
      rw [hkind] at hcompleted
      cases hcompleted
    | _ =>
      rw [hkind] at hcompleted
      exact absurd hcompleted (checkState_ok hstate).1

theorem StreamKept.runs (h : v.StreamKept host) {events : List ProtocolEvent}
    (hruns : Runs host v events v') : v'.StreamKept host := by
  induction events generalizing v with
  | nil => exact hruns ▸ h
  | cons event events ih => exact ih (h.recorded hruns.1) hruns.2

theorem streamKept_fresh (policy : ValidationPolicy) (retainGraphEvents : Bool) :
    (fresh policy retainGraphEvents).StreamKept host := by
  have hnone {V : Type} (id : String) (value : V) : (∅ : ExtTreeMap String V)[id]? ≠ some value := by
    rw [ExtTreeMap.getElem?_empty]
    exact Option.some_ne_none value |>.symm
  have hmaps : (withPolicy policy).MapsKept :=
    ⟨fun id v hv => absurd hv (hnone id v), fun id v hv => absurd hv (hnone id v),
      fun id v hv => absurd hv (hnone id v), fun id hid => absurd hid ExtTreeMap.not_mem_empty,
      fun id v hv => absurd hv (hnone id v), fun id v hv => absurd hv (hnone id v)⟩
  have hevents : (withPolicy policy).EventsKept := by
    refine ⟨fun _ hmem => absurd hmem List.not_mem_nil, fun identity h => absurd h.symm (Option.some_ne_none identity),
      fun _ hmem => absurd hmem List.not_mem_nil, fun profileId => ?_, fun _ => ?_⟩
    · change (∅ : CoverageMap)[_]? = (∅ : ProfileCoverage)[profileId]?.map _
      rw [ExtTreeMap.getElem?_empty, ExtTreeMap.getElem?_empty]
      rfl
    · exact ExtTreeMap.getElem?_empty
  have hcoverage : (withPolicy policy).CoverageKept host := by
    refine ⟨fun id => ?_, fun id hid => absurd hid ExtTreeMap.not_mem_empty,
      fun id hid => absurd hid ExtTreeMap.not_mem_empty, fun id v hv => absurd hv (hnone id v)⟩
    exact iff_of_false ExtTreeSet.not_mem_empty ExtTreeMap.not_mem_empty
  have honce : (withPolicy policy).ProfilesOnce := fun _ hmem => absurd hmem List.not_mem_nil
  have hended : (withPolicy policy).state = .completed →
      ∃ aggregate, (withPolicy policy).Ended host aggregate := fun h => StreamState.noConfusion h
  unfold fresh
  split_ifs
  · exact ⟨honce, hmaps, hevents, hcoverage, hended⟩
  · exact ⟨honce, ⟨hmaps.1, hmaps.2, hmaps.3, hmaps.4, hmaps.5, hmaps.6⟩,
      ⟨hevents.1, hevents.2, hevents.3, hevents.4, hevents.5⟩,
      ⟨hcoverage.1, hcoverage.2, hcoverage.3, hcoverage.4⟩, fun h => StreamState.noConfusion h⟩

end ProtocolValidator

end Protocol
