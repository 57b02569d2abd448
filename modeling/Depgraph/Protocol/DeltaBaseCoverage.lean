import Depgraph.Protocol.DeltaBaseEvidence
import Depgraph.Protocol.DeltaBaseStream

/-!
# The coverage of a base

What the stream has checked of coverage records, and what it leaves to the delta: the form of the lists,
and one record for every file. The lists and the counters of both validators are compared here.
-/

namespace Protocol

open Json Fallible Panics OrderedMap Std

/-! ### Coverage records -/

/-- The form that a delta requires of a coverage record. -/
structure Coverage.Canonical (coverage : Coverage) : Prop where
  completeness : (coverage.completeness.map CompletenessLevel.rank).IsChain (· < ·)
  reasons : coverage.reasons.IsChain (· < ·)
  fits : coverage.filesAnalyzed + coverage.filesSkipped < 2 ^ 64

theorem addU64_of_lt {overflowChecks : Bool} {a b : Nat} (h : a + b < 2 ^ 64) :
    (addU64 overflowChecks a b : Except (Failure ProtocolError) Nat) = .ok (a + b) :=
  if_pos h

/-- Every site has one of the four statuses. -/
theorem sum_countP_status (sites : List DependencySite) :
    sites.countP (·.resolutionStatus == .resolved) + sites.countP (·.resolutionStatus == .candidates) +
      sites.countP (·.resolutionStatus == .external) +
      sites.countP (·.resolutionStatus == .unresolved) = sites.length := by
  induction sites with
  | nil => rfl
  | cons site sites ih =>
    simp only [List.countP_cons, List.length_cons]
    cases site.resolutionStatus <;> simp <;> omega

theorem siteCounts_eq_iff {sites : List DependencySite} {coverage : Coverage} :
    siteCounts sites = coverage.siteCounts ↔ CountsSites coverage sites := by
  simp only [siteCounts, Coverage.siteCounts, List.map_cons, List.map_nil, List.cons.injEq, and_true,
    CountsSites, eq_comm]

/-- What the stream has checked of a coverage record leaves its form to the delta. -/
theorem validateCoverage_iff {overflowChecks : Bool} {coverage : Coverage}
    {sites : List DependencySite} (hcounts : CountsSites coverage sites)
    (h : Stream.validateCoverage overflowChecks coverage = .ok ()) :
    sites.length < 2 ^ 64 ∧ (validateCoverage coverage = .ok () ↔ coverage.Canonical) := by
  simp only [Stream.validateCoverage, bind_eq_ok, orReject_eq_ok, ensure_eq_ok, exists_const] at h
  obtain ⟨_, -, _, -, classified, hclassified, hsites, accounted, haccounted, hfiles, -⟩ := h
  obtain ⟨htotal, hresolved, hcandidates, hexternal, hunresolved⟩ := hcounts
  have hsum := sum_countP_status sites
  have hsmall : sites.length < 2 ^ 64 := by
    rw [← htotal, ← hsites]
    exact addU64_lt hclassified
  refine ⟨hsmall, ?_⟩
  simp only [validateCoverage, bind_eq_ok, required_eq_ok, ensure_eq_ok, exists_const,
    Option.bind_eq_some_iff, checkedAddU64_eq_some]
  constructor
  · rintro ⟨_, -, -, total, ⟨hadd, hfits⟩, -, hcompleteness, hreasons⟩
    exact ⟨hcompleteness, hreasons, hadd ▸ hfits⟩
  · rintro ⟨hcompleteness, hreasons, hfits⟩
    rw [addU64_of_lt hfits] at haccounted
    exact ⟨sites.length, ⟨_, ⟨_, ⟨rfl, by omega⟩, rfl, by omega⟩, by omega, hsmall⟩, htotal.symm, _,
      ⟨rfl, hfits⟩, (Except.ok.inj haccounted).trans hfiles, hcompleteness, hreasons⟩

theorem validateSiteCounts_eq_ok {scope : String} {coverage : Coverage} {sites : List DependencySite}
    {u : Unit} : validateSiteCounts scope coverage sites = .ok u ↔ CountsSites coverage sites := by
  rw [validateSiteCounts, ensure_eq_ok, siteCounts_eq_iff]

theorem validateDeltaSiteCounts_eq_ok {scope : String} {coverage : Coverage}
    {sites : List DependencySite} {u : Unit} : validateDeltaSiteCounts scope coverage sites = .ok u ↔
      sites.length < 2 ^ 64 ∧ CountsSites coverage sites := by
  simp only [validateDeltaSiteCounts, bind_eq_ok, ensure_eq_ok, exists_const, siteCounts_eq_iff]

/-- Both validators compare the aggregate with the profiles in the same way. -/
theorem validateDeltaAggregate_iff {aggregate : Coverage} {profiles : ProfileCoverage} :
    validateDeltaAggregateProfileCoverage aggregate (values profiles) = .ok () ↔
      validateAggregateProfileCoverage aggregate profiles = .ok () := by
  unfold validateDeltaAggregateProfileCoverage validateAggregateProfileCoverage
  cases values profiles with
  | nil => rfl
  | cons first rest =>
    simp only [bind_eq_ok, ensure_eq_ok, exists_const, forM_eq_ok, Nat.not_lt]

/-! ### File records -/

def DeltaCoverageKey.isFile : DeltaCoverageKey → Bool
  | .file _ _ => true
  | _ => false

def DeltaCoverage.file? : DeltaCoverage → Option DeltaFileCoverage
  | .file _ _ value => some value
  | _ => none

/-- The ledger of a file. -/
def FileCompleted.ledger (file : FileCompleted) : DeltaFileCoverage :=
  ⟨file.discoveredSites, file.emittedSites, file.skippedSites, file.skipped, file.reason⟩

/-- The files that events complete. -/
def filesOf (events : List ProtocolEvent) : List FileCompleted :=
  events.filterMap fun event => event.payload.file?

theorem filesOf_cons_some {event : ProtocolEvent} {file : FileCompleted}
    (h : event.payload.file? = some file) (events : List ProtocolEvent) :
    filesOf (event :: events) = file :: filesOf events :=
  List.filterMap_cons_some h

theorem filesOf_cons_none {event : ProtocolEvent} (h : event.payload.file? = none)
    (events : List ProtocolEvent) : filesOf (event :: events) = filesOf events :=
  List.filterMap_cons_none h

theorem fileCoverage_eq {coverage : CoverageMap} (hkey : KeyedBy DeltaCoverage.key coverage) :
    fileCoverage coverage = (coverage.toList.filter fun entry => entry.1.isFile).filterMap
      fun entry => entry.2.file? := by
  have hfile (entry : DeltaCoverageKey × DeltaCoverage) (hentry : entry ∈ coverage.toList)
      (hnot : entry.1.isFile ≠ true) : entry.2.file? = none := by
    have heq := hkey entry.1 entry.2 (mem_toList.1 hentry)
    rw [← heq] at hnot
    cases hitem : entry.2 with
    | file adapter path value =>
      rw [hitem] at hnot
      exact absurd rfl hnot
    | _ => rfl
  rw [fileCoverage, values, List.filterMap_map, List.filterMap_filter]
  refine List.filterMap_congr fun entry hentry => ?_
  split_ifs with h
  · rfl
  · exact hfile entry hentry h

theorem isSome_file? {coverage : CoverageMap} (hkey : KeyedBy DeltaCoverage.key coverage)
    {entry : DeltaCoverageKey × DeltaCoverage}
    (hentry : entry ∈ coverage.toList.filter fun entry => entry.1.isFile) :
    entry.2.file?.isSome = true := by
  obtain ⟨hmem, hfile⟩ := List.mem_filter.1 hentry
  rw [← hkey entry.1 entry.2 (mem_toList.1 hmem)] at hfile
  cases hitem : entry.2 with
  | file adapter path value => rfl
  | _ =>
    rw [hitem] at hfile
    cases hfile

/-- The entries of the files of one adapter. -/
theorem filter_entries_file {adapter : String} {events : List ProtocolEvent}
    (hadapter : ∀ event ∈ events, event.common.adapter = adapter) :
    ((events.filterMap eventCoverage).map fun item => (item.key, item)).filter
        (fun entry => entry.1.isFile) =
      (filesOf events).map fun file => (.file adapter file.path, .file adapter file.path file.ledger) := by
  induction events with
  | nil => rfl
  | cons event events ih =>
    have hrest := ih fun other hother => hadapter other (List.mem_cons_of_mem _ hother)
    have hevent := hadapter event List.mem_cons_self
    cases hkind : event.payload with
    | fileCompleted path discoveredSites emittedSites skippedSites skipped reason =>
      have hitem : eventCoverage event = some (.file event.common.adapter path
          ⟨discoveredSites, emittedSites, skippedSites, skipped, reason⟩) := by
        rw [eventCoverage, hkind]
      have hfile : event.payload.file? =
          some ⟨path, discoveredSites, emittedSites, skippedSites, skipped, reason⟩ := by
        rw [hkind]
        rfl
      rw [List.filterMap_cons_some hitem, List.map_cons, List.filter_cons_of_pos rfl, hrest,
        filesOf_cons_some hfile, List.map_cons, hevent]
      rfl
    | profileCompleted profileId coverage =>
      have hitem : eventCoverage event = some (.profile profileId coverage) := by
        rw [eventCoverage, hkind]
      have hfile : event.payload.file? = none := by
        rw [hkind]
        rfl
      rw [List.filterMap_cons_some hitem, List.map_cons, List.filter_cons_of_neg Bool.false_ne_true,
        hrest, filesOf_cons_none hfile]
    | scanCompleted coverage =>
      have hitem : eventCoverage event = some (.aggregate coverage) := by
        rw [eventCoverage, hkind]
      have hfile : event.payload.file? = none := by
        rw [hkind]
        rfl
      rw [List.filterMap_cons_some hitem, List.map_cons, List.filter_cons_of_neg Bool.false_ne_true,
        hrest, filesOf_cons_none hfile]
    | _ =>
      have hitem : eventCoverage event = none := by
        rw [eventCoverage, hkind]
      have hfile : event.payload.file? = none := by
        rw [hkind]
        rfl
      rw [List.filterMap_cons_none hitem, hrest, filesOf_cons_none hfile]

theorem keyedBy_protocolCoverage (events : List ProtocolEvent) :
    KeyedBy DeltaCoverage.key (protocolCoverage events) := by
  intro key item hitem
  obtain ⟨item', -, heq⟩ := List.mem_map.1 (mem_of_getElem?_insertAll hitem)
  obtain ⟨rfl, rfl⟩ := Prod.mk.inj heq
  rfl

section

variable {adapter : String} {events : List ProtocolEvent}

theorem map_fst_files (hadapter : ∀ event ∈ events, event.common.adapter = adapter) :
    (((events.filterMap eventCoverage).map fun item => (item.key, item)).filter
      (fun entry => entry.1.isFile)).map Prod.fst =
        ((filesOf events).map FileCompleted.path).map (.file adapter) := by
  rw [filter_entries_file hadapter, List.map_map, List.map_map]
  rfl

/-- Files with distinct paths have one record each. -/
theorem fileCoverage_perm (hadapter : ∀ event ∈ events, event.common.adapter = adapter)
    (hnodup : ((filesOf events).map FileCompleted.path).Nodup) :
    (fileCoverage (protocolCoverage events)).Perm ((filesOf events).map FileCompleted.ledger) := by
  have hkeys : (((events.filterMap eventCoverage).map fun item => (item.key, item)).filter
      (fun entry => entry.1.isFile)).map Prod.fst |>.Nodup := by
    rw [map_fst_files hadapter]
    exact hnodup.map fun path path' heq => (DeltaCoverageKey.file.inj heq).2
  have hperm := filter_toList_perm hkeys
  rw [filter_entries_file hadapter] at hperm
  rw [fileCoverage_eq (keyedBy_protocolCoverage events)]
  refine (hperm.filterMap _).trans (List.Perm.of_eq ?_)
  rw [List.filterMap_map]
  exact congrFun (List.filterMap_eq_map (f := FileCompleted.ledger)) _

/-- As many records as files there are only when the paths are distinct. -/
theorem nodup_of_fileCoverage_length (hadapter : ∀ event ∈ events, event.common.adapter = adapter)
    (hlength : (fileCoverage (protocolCoverage events)).length = (filesOf events).length) :
    ((filesOf events).map FileCompleted.path).Nodup := by
  rw [fileCoverage_eq (keyedBy_protocolCoverage events), List.filterMap_length_eq_length.2 fun entry =>
    isSome_file? (keyedBy_protocolCoverage events)] at hlength
  have hkeys := nodup_of_filter_length (p := DeltaCoverageKey.isFile) (hlength.trans (by
    rw [filter_entries_file hadapter, List.length_map]))
  rw [map_fst_files hadapter] at hkeys
  exact hkeys.of_map _

end

/-! ### Sets and lists of profiles -/

theorem toList_ofList_keys {V : Type} (m : ExtTreeMap String V) :
    (ExtTreeSet.ofList m.keys : IdSet).toList = m.keys := by
  refine eq_of_ordered ExtTreeSet.ordered_toList ExtTreeMap.ordered_keys fun id => ?_
  rw [ExtTreeSet.mem_toList, ExtTreeSet.mem_ofList, List.contains_iff_mem]

/-- Two maps with the same keys list them alike. -/
theorem keys_eq_of_mem_iff {V W : Type} {m : ExtTreeMap String V} {m' : ExtTreeMap String W}
    (h : ∀ id, id ∈ m ↔ id ∈ m') : m.keys = m'.keys := by
  refine eq_of_ordered ExtTreeMap.ordered_keys ExtTreeMap.ordered_keys fun id => ?_
  rw [ExtTreeMap.mem_keys, ExtTreeMap.mem_keys, h]

theorem filterMap_keys {V : Type} (m : ExtTreeMap String V) :
    m.keys.filterMap (fun id => m[id]?) = values m := by
  rw [← ExtTreeMap.map_fst_toList_eq_keys, List.filterMap_map, values]
  refine (List.filterMap_congr fun entry hentry => ?_).trans
    (congrFun (List.filterMap_eq_map (f := Prod.snd)) _)
  exact mem_toList.1 hentry

/-! ### Counters -/

theorem foldlM_addEmittedSites {files : List DeltaFileCoverage} {total sum : Nat}
    (hsmall : total < 2 ^ 64) : files.foldlM addEmittedSites total = .ok sum ↔
      sum = total + (files.map DeltaFileCoverage.emittedSites).sum ∧ sum < 2 ^ 64 := by
  induction files generalizing total with
  | nil =>
    change Except.ok total = Except.ok sum ↔ _
    rw [Except.ok.injEq, List.map_nil, List.sum_nil, Nat.add_zero]
    constructor
    · rintro rfl
      exact ⟨rfl, hsmall⟩
    · exact fun h => h.1.symm
  | cons file files ih =>
    rw [List.foldlM_cons, bind_eq_ok, List.map_cons, List.sum_cons]
    simp only [addEmittedSites, required_eq_ok, checkedAddU64_eq_some]
    constructor
    · rintro ⟨next, ⟨rfl, hnext⟩, hrest⟩
      obtain ⟨rfl, hsum⟩ := (ih hnext).1 hrest
      exact ⟨by omega, by omega⟩
    · rintro ⟨rfl, hsum⟩
      have hnext : total + file.emittedSites < 2 ^ 64 := by omega
      exact ⟨_, ⟨rfl, hnext⟩, (ih hnext).2 ⟨by omega, hsum⟩⟩

/-- Moving the evidence out of the sites does not change how many there are. -/
theorem countsSites_bare {coverage : Coverage} {sites : List DependencySite} :
    CountsSites coverage (sites.map fun site => { site with evidence := [] }) ↔
      CountsSites coverage sites := by
  simp only [CountsSites, List.length_map, List.countP_map, Function.comp_def]

end Protocol
