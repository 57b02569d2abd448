import Depgraph.Protocol.SemanticPanics
import Depgraph.Protocol.Verdict

/-!
# When the stream validator panics

No lookup, index or path of `ProtocolValidator::push` and of the semantic contract fails. What is left are
the counters: `validate_coverage` and `validate_scan_coverage` add without a check, which panics in a build
that checks for overflow. `CountersFit` says that the sums that are taken fit into 64 bits.
-/

namespace Protocol

open Json Fallible Panics Mutable OrderedMap

/-! ### Counters -/

/-- The sums that `validate_coverage` takes fit into 64 bits. The files are added once the statuses have
been found to agree with the total. -/
def Coverage.Fits (coverage : Coverage) : Prop :=
  coverage.resolved + coverage.candidates + coverage.external + coverage.unresolved < 2 ^ 64 ∧
    (coverage.resolved + coverage.candidates + coverage.external + coverage.unresolved =
        coverage.dependencySites →
      coverage.filesAnalyzed + coverage.filesSkipped < 2 ^ 64)

theorem noPanic_streamValidateCoverage {overflowChecks : Bool} {coverage : Coverage} :
    NoPanic (Stream.validateCoverage overflowChecks coverage) ↔
      (overflowChecks = true → coverage.Fits) := by
  have hlast (accounted : Nat) : NoPanic (do
      orReject (ensure (accounted = coverage.filesDiscovered)
        s!"coverage files_discovered={coverage.filesDiscovered} but analyzed+skipped={accounted}")
      orReject (ensure (coverage.completeness.dedup.length = coverage.completeness.length)
        "coverage completeness values must be unique")) :=
    NoPanic.bind_orReject fun _ _ => NoPanic.orReject _
  unfold Stream.validateCoverage
  cases overflowChecks with
  | false =>
    refine iff_of_true ?_ fun h => absurd h Bool.false_ne_true
    refine NoPanic.bind NoPanic.wrappingAdd fun _ _ => NoPanic.bind NoPanic.wrappingAdd fun _ _ => ?_
    refine NoPanic.bind NoPanic.wrappingAdd fun _ _ => NoPanic.bind_orReject fun _ _ => ?_
    exact NoPanic.bind NoPanic.wrappingAdd fun accounted _ => hlast accounted
  | true =>
    refine Iff.trans ?_ (forall_prop_of_true rfl).symm
    simp only [noPanic_checkedAdd_bind, noPanic_orReject_then, ensure_eq_ok,
      NoPanic.orReject, implies_true, and_true]
    unfold Coverage.Fits
    constructor
    · rintro ⟨-, -, hclassified, hfiles⟩
      exact ⟨hclassified, hfiles⟩
    · rintro ⟨hclassified, hfiles⟩
      exact ⟨by omega, by omega, hclassified, hfiles⟩

/-- The files that the retained events complete. -/
def completedFiles (events : List ProtocolEvent) : List FileCompleted :=
  events.filterMap fun event => event.payload.file?

theorem noPanic_validateScanCoverage {overflowChecks : Bool} {coverage : Coverage}
    {profiles : ProfileMap} {sites : SiteMap} {events : List ProtocolEvent} :
    NoPanic (validateScanCoverage overflowChecks coverage profiles sites events) ↔
      (coverage.profiles = profiles.size →
        validateSiteCounts "scan" coverage (values sites) = .ok () → overflowChecks = true →
          ((completedFiles events).map FileCompleted.emittedSites).sum < 2 ^ 64) := by
  unfold validateScanCoverage
  simp only [noPanic_orReject_then, ensure_eq_ok, sumU64_eq]
  refine forall_congr' fun _ => forall_congr' fun _ => ?_
  simp only [noPanic_bind, noPanic_addU64, Nat.zero_add, NoPanic.orReject, implies_true, and_true]
  rfl

/-! ### Cross-language contracts -/

section

variable {S : StableIds} {malformed : String → Value → String}

theorem validateCrossLanguageSite_evidence {nodes : NodeMap} {crossNodes : CrossNodes}
    {site : DependencySite} {relation : CrossLanguageRelationKind}
    (h : validateCrossLanguageSite S malformed nodes crossNodes site relation = .ok ()) :
    0 < site.evidence.length := by
  simp only [validateCrossLanguageSite, crossLanguagePrimaryEvidence, bind_eq_ok,
    required_eq_ok] at h
  obtain ⟨primary, hhead, -⟩ := h
  exact List.length_pos_of_mem (List.mem_of_head? hhead)

theorem validateCrossLanguageEdge_evidence {edge : GraphEdge} {relation : CrossLanguageRelationKind}
    (h : validateCrossLanguageEdge S malformed edge relation = .ok ()) :
    0 < edge.evidence.length := by
  simp only [validateCrossLanguageEdge, bind_eq_ok, required_eq_ok] at h
  obtain ⟨primary, hhead, -⟩ := h
  exact List.length_pos_of_mem (List.mem_of_head? hhead)

/-- The records of a map have evidence. -/
def HaveEvidence {α : Type} (evidence : α → List Evidence)
    (records : Std.ExtTreeMap String (α × CrossLanguageRelationKind)) : Prop :=
  ∀ record ∈ (values records).map Prod.fst, 0 < (evidence record).length

theorem HaveEvidence.empty {α : Type} (evidence : α → List Evidence) : HaveEvidence evidence ∅ := by
  intro record hrecord
  obtain ⟨entry, hentry, -⟩ := List.mem_map.1 hrecord
  obtain ⟨id, hid⟩ := mem_values.1 hentry
  rw [Std.ExtTreeMap.getElem?_empty] at hid
  cases hid

theorem HaveEvidence.insert {α : Type} {evidence : α → List Evidence}
    {records : Std.ExtTreeMap String (α × CrossLanguageRelationKind)} {id : String} {record : α}
    {relation : CrossLanguageRelationKind} (h : HaveEvidence evidence records)
    (hrecord : 0 < (evidence record).length) :
    HaveEvidence evidence (records.insert id (record, relation)) := by
  intro found hfound
  obtain ⟨entry, hentry, rfl⟩ := List.mem_map.1 hfound
  obtain ⟨key, hkey⟩ := mem_values.1 hentry
  rw [getElem?_insert] at hkey
  split_ifs at hkey with hsame
  · exact Option.some.inj hkey ▸ hrecord
  · exact h entry.1 (List.mem_map_of_mem (mem_values.2 ⟨key, hkey⟩))

theorem haveEvidence_sites {claimed : ProfileMap} {nodes : NodeMap} {crossNodes : CrossNodes}
    {sites : List DependencySite} {crossSites : CrossSites}
    (h : sites.foldlM (collectCrossSite S malformed claimed nodes crossNodes) ∅ = .ok crossSites) :
    HaveEvidence DependencySite.evidence crossSites := by
  refine foldlM_induction (motive := fun _ => HaveEvidence DependencySite.evidence) h
    (HaveEvidence.empty _) fun _ site collected collected' hcollected hstep => ?_
  unfold collectCrossSite at hstep
  split_ifs at hstep
  · exact Except.ok.inj hstep ▸ hcollected
  · simp only [bind_eq_ok] at hstep
    obtain ⟨-, -, relation, -, _, hsite, hinsert⟩ := hstep
    rw [← Except.ok.inj hinsert]
    exact hcollected.insert (validateCrossLanguageSite_evidence hsite)

theorem haveEvidence_edges {claimed : ProfileMap} {crossNodes : CrossNodes}
    {edges : List GraphEdge} {crossEdges : CrossEdges}
    (h : edges.foldlM (collectCrossEdge S malformed claimed crossNodes) ∅ = .ok crossEdges) :
    HaveEvidence GraphEdge.evidence crossEdges := by
  refine foldlM_induction (motive := fun _ => HaveEvidence GraphEdge.evidence) h
    (HaveEvidence.empty _) fun _ edge collected collected' hcollected hstep => ?_
  unfold collectCrossEdge at hstep
  split_ifs at hstep
  · exact Except.ok.inj hstep ▸ hcollected
  · simp only [bind_eq_ok] at hstep
    obtain ⟨-, -, relation, -, _, hedge, hinsert⟩ := hstep
    rw [← Except.ok.inj hinsert]
    exact hcollected.insert (validateCrossLanguageEdge_evidence hedge)

theorem noPanic_countedItems {α : Type} {profileId : String} {format : CrossLanguageFormat}
    {owner : α → String} {evidence : α → List Evidence} {items : List α}
    (h : ∀ item ∈ items, 0 < (evidence item).length) :
    NoPanic (countedItems malformed profileId format owner evidence items) := by
  refine NoPanic.filterM fun item hitem => ?_
  split_ifs
  · refine NoPanic.bind (NoPanic.itemAt (h item hitem)) fun primary _ => ?_
    split
    · exact NoPanic.pure _
    · exact NoPanic.pure _
  · exact NoPanic.pure _

theorem noPanic_validateCrossLanguageMaps {profiles : ProfileMap} {nodes : NodeMap}
    {edges : EdgeMap} {sites : SiteMap} :
    NoPanic (validateCrossLanguageMaps S malformed profiles nodes edges sites) := by
  refine NoPanic.bind_orReject fun claimed _ => NoPanic.bind_orReject fun _ _ => ?_
  refine NoPanic.bind_orReject fun crossNodes _ => ?_
  dsimp only
  split
  · exact NoPanic.orReject _
  refine NoPanic.bind_orReject fun crossSites hcrossSites => ?_
  refine NoPanic.bind_orReject fun crossEdges hcrossEdges => ?_
  have hsites := haveEvidence_sites hcrossSites
  refine NoPanic.bind_orReject fun _ _ => NoPanic.forM fun profile _ => ?_
  refine NoPanic.bind_orReject fun ledger _ => ?_
  refine NoPanic.bind (NoPanic.forM fun entry _ => ?_) fun _ _ => ?_
  · refine NoPanic.bind (noPanic_countedItems hsites) fun _ _ => ?_
    refine NoPanic.bind (noPanic_countedItems (haveEvidence_edges hcrossEdges)) fun _ _ => ?_
    exact NoPanic.orReject _
  refine NoPanic.bind (NoPanic.forM fun node _ => NoPanic.orReject _) fun _ _ => ?_
  refine NoPanic.forM fun site hsite => ?_
  refine NoPanic.bind (NoPanic.itemAt (hsites site (List.mem_of_mem_filter hsite))) fun _ _ => ?_
  exact NoPanic.bind_orReject fun _ _ => NoPanic.orReject _

end

/-! ### Completeness -/

theorem noPanic_validateVerifiedRustToolchainAttestation {profile : Profile} :
    NoPanic (validateVerifiedRustToolchainAttestation profile) := by
  have hfound {attestation : List (String × Value)} {tool commit : String}
      (h : identityMatches attestation tool commit = true) : (attestation.lookup tool).isSome = true := by
    unfold identityMatches at h
    cases hlookup : attestation.lookup tool with
    | none =>
      rw [hlookup] at h
      cases h
    | some value => rfl
  refine NoPanic.bind_orReject fun attestation _ => NoPanic.bind_orReject fun _ _ => ?_
  refine NoPanic.bind_orReject fun _ hmatches => ?_
  obtain ⟨hrustc, hcargo⟩ := ensure_eq_ok.1 hmatches
  refine NoPanic.bind (NoPanic.expected (hfound hrustc) _) fun _ _ => ?_
  exact NoPanic.bind (NoPanic.expected (hfound hcargo) _) fun _ _ => NoPanic.orReject _

theorem noPanic_validateProfileCompleteness {fromStr : String → Option Value} {profile : Profile}
    {coverage : Coverage} : NoPanic (validateProfileCompleteness fromStr profile coverage) := by
  unfold validateProfileCompleteness
  split_ifs
  · refine NoPanic.bind_orReject fun _ _ => ?_
    exact NoPanic.bind noPanic_validateVerifiedRustToolchainAttestation fun _ _ => NoPanic.orReject _
  · exact NoPanic.orReject _
  · exact NoPanic.ok ()
  · exact NoPanic.ok ()

/-- Sites that are driven by evidence, or fall back to the source, have evidence. -/
theorem pos_of_firstIs {predicate : Evidence → Bool} {evidence : List Evidence}
    (h : firstIs predicate evidence = true) : 0 < evidence.length := by
  cases evidence with
  | nil => cases h
  | cons item rest => exact Nat.succ_pos _

theorem noPanic_unrefinedRustSourceFallbackSite {sites : SiteMap} {profileId : String} :
    NoPanic (unrefinedRustSourceFallbackSite sites profileId) := by
  refine NoPanic.bind (NoPanic.bind (NoPanic.mapM fun site hsite => ?_) fun _ _ => NoPanic.pure _)
    fun refined _ => NoPanic.findM fun site _ => ?_
  · have hkept := (List.mem_filter.1 hsite).2
    simp only [DependencySite.isEvidenceDriven, Bool.and_eq_true] at hkept
    refine NoPanic.bind (NoPanic.itemsFrom (pos_of_firstIs hkept.2.2)) fun supporting _ => ?_
    refine NoPanic.mapM fun evidence hevidence => ?_
    have hspan := (List.mem_filter.1 hevidence).2
    rw [Bool.and_eq_true] at hspan
    exact NoPanic.bind (noPanic_primaryEvidenceAnchor hspan.2) fun _ _ => NoPanic.pure _
  · unfold isUnrefinedFallback
    split_ifs with hfallback
    · have hsource : firstIs (fun evidence => evidence.kind == .source) site.evidence = true := by
        by_contra hother
        rw [sourceFallbackEdgeKind, if_neg hother] at hfallback
        cases hfallback.2
      refine NoPanic.bind (NoPanic.itemAt (pos_of_firstIs hsource)) fun primary _ => ?_
      split
      · rename_i hspan
        exact NoPanic.bind (noPanic_primaryEvidenceAnchor hspan) fun _ _ => NoPanic.pure _
      · exact NoPanic.pure _
    · exact NoPanic.pure _
    · exact NoPanic.pure _

/-! ### One event -/

namespace ProtocolValidator

section

variable {host : Host} {v : ProtocolValidator} {event : ProtocolEvent}

/-- The event gets as far as the counters of its coverage. -/
def ReachesCoverage (v : ProtocolValidator) (event : ProtocolEvent) (coverage : Coverage) : Prop :=
  v.commonVerdict event.common = .ok () ∧ v.checkState event.payload = .ok () ∧
    ¬ (v.safeMode = true ∧ coverage.projectCodeExecuted = true)

/-- The sums that are taken for an event fit into 64 bits: those of a coverage, and at the end of the scan
the sites that the files have emitted. -/
def CountersFit (v : ProtocolValidator) (event : ProtocolEvent) : Prop :=
  match event.payload with
  | .profileCompleted profileId coverage =>
    v.ReachesCoverage event coverage → profileId ∈ v.profiles → profileId ∉ v.completedProfiles →
      coverage.Fits
  | .scanCompleted coverage =>
    v.ReachesCoverage event coverage → (∀ id ∈ v.profiles, id ∈ v.completedProfiles) →
      coverage.Fits ∧ (Stream.validateCoverage true coverage = .ok () →
        coverage.profiles = v.profiles.size →
        validateSiteCounts "scan" coverage (values v.sites) = .ok () →
          ((completedFiles v.events).map FileCompleted.emittedSites).sum < 2 ^ 64)
  | _ => True

/-- Once the scan has started its root is known. -/
def RootKnown (v : ProtocolValidator) : Prop := v.state ≠ .awaitingStart → v.root.isSome = true

theorem noPanic_validateSpanOf {owner : String} {path : Option String}
    {startLine startColumn endLine endColumn : Option Nat} :
    NoPanic (validateSpanOf owner path startLine startColumn endLine endColumn) := by
  unfold validateSpanOf
  dsimp only
  generalize hrest : (if [startLine, startColumn, endLine, endColumn].all Option.isNone = true then
    (.ok () : Except (Failure ProtocolError) Unit) else _) = rest
  have hcoordinates : NoPanic rest := by
    rw [← hrest]
    split
    · exact NoPanic.ok ()
    refine NoPanic.bind_orReject fun _ hchecked => ?_
    have hthere := (ensure_eq_ok.1 hchecked).2
    simp only [List.any_cons, List.any_nil, Bool.or_eq_false_iff, Option.isNone_eq_false_iff]
      at hthere
    obtain ⟨hstartLine, hstartColumn, hendLine, hendColumn, -⟩ := hthere
    refine NoPanic.bind (NoPanic.expected hstartLine _) fun _ _ => ?_
    refine NoPanic.bind (NoPanic.expected hstartColumn _) fun _ _ => ?_
    refine NoPanic.bind (NoPanic.expected hendLine _) fun _ _ => ?_
    refine NoPanic.bind (NoPanic.expected hendColumn _) fun _ _ => ?_
    exact NoPanic.bind_orReject fun _ _ => NoPanic.orReject _
  split
  · exact NoPanic.bind_orReject fun _ _ => hcoordinates
  · exact hcoordinates

theorem noPanic_validateDiagnostic {diagnostic : Diagnostic} :
    NoPanic (validateDiagnostic diagnostic) := by
  refine NoPanic.bind_orReject fun _ _ => NoPanic.bind_orReject fun _ _ => ?_
  refine NoPanic.bind_orReject fun _ _ => ?_
  dsimp only
  split
  case' h_1 => refine NoPanic.bind_orReject fun _ _ => ?_
  all_goals exact NoPanic.bind noPanic_validateSpanOf fun _ _ => NoPanic.orReject _

theorem noPanic_validatePath {path : String} (h : v.root.isSome = true) :
    NoPanic (v.validatePath host path) := by
  refine NoPanic.bind (NoPanic.expected h _) fun root _ => NoPanic.bind_orReject fun _ _ => ?_
  split
  · exact NoPanic.ok ()
  · split
    · exact NoPanic.ok ()
    · exact NoPanic.orReject _

theorem noPanic_validateEvidencePaths {evidence : List Evidence} (h : v.root.isSome = true) :
    NoPanic (v.validateEvidencePaths host evidence) := by
  refine NoPanic.forM fun item _ => ?_
  split
  · exact noPanic_validatePath h
  · exact NoPanic.ok ()

theorem noPanic_checkDiagnostic {diagnostic : Diagnostic} (h : v.root.isSome = true) :
    NoPanic (v.checkDiagnostic host diagnostic) := by
  refine NoPanic.bind noPanic_validateDiagnostic fun _ _ => ?_
  dsimp only
  split
  case' h_1 => refine NoPanic.bind_orReject fun _ _ => ?_
  all_goals
    split
    · exact NoPanic.bind (noPanic_validatePath h) fun _ _ => noPanic_validateEvidencePaths h
    · exact noPanic_validateEvidencePaths h

theorem noPanic_checkFile {file : FileCompleted} (h : v.root.isSome = true) :
    NoPanic (v.checkFile host file) :=
  NoPanic.bind_orReject fun _ _ =>
    NoPanic.bind (noPanic_validatePath h) fun _ _ => NoPanic.orReject _

theorem noPanic_checkCompletion {profileId : String} {coverage : Coverage}
    (h : profileId ∈ v.profiles) :
    NoPanic (v.checkCompletion host profileId coverage) ↔
      (¬ (v.safeMode = true ∧ coverage.projectCodeExecuted = true) → host.overflowChecks = true →
        coverage.Fits) := by
  obtain ⟨profile, hprofile⟩ := mem_iff.1 h
  unfold checkCompletion
  rw [noPanic_orReject_then, ensure_eq_ok, noPanic_bind, noPanic_streamValidateCoverage, hprofile]
  refine forall_congr' fun _ => and_iff_left fun _ _ => ?_
  refine NoPanic.bind_orReject fun _ _ => NoPanic.bind (NoPanic.ok profile) fun _ _ => ?_
  refine NoPanic.bind noPanic_validateProfileCompleteness fun _ _ => ?_
  split
  · refine NoPanic.bind noPanic_unrefinedRustSourceFallbackSite fun found _ => ?_
    split
    · exact NoPanic.orReject _
    · exact NoPanic.ok ()
  · exact NoPanic.pure ()

theorem noPanic_checkScanCompleted {coverage : Coverage} :
    NoPanic (v.checkScanCompleted host coverage) ↔
      ((∀ id ∈ v.profiles, id ∈ v.completedProfiles) →
        ¬ (v.safeMode = true ∧ coverage.projectCodeExecuted = true) →
          (host.overflowChecks = true → coverage.Fits) ∧
          (Stream.validateCoverage host.overflowChecks coverage = .ok () →
            coverage.profiles = v.profiles.size →
            validateSiteCounts "scan" coverage (values v.sites) = .ok () →
              host.overflowChecks = true →
                ((completedFiles v.events).map FileCompleted.emittedSites).sum < 2 ^ 64)) := by
  have hcompleted : (v.profiles.keys.filter fun id => id ∉ v.completedProfiles) = [] ↔
      ∀ id ∈ v.profiles, id ∈ v.completedProfiles := by
    simp [List.filter_eq_nil_iff]
  unfold checkScanCompleted
  rw [noPanic_orReject_then, check_eq_ok, hcompleted, noPanic_orReject_then, ensure_eq_ok,
    noPanic_bind, noPanic_streamValidateCoverage]
  refine forall_congr' fun _ => forall_congr' fun _ => and_congr_right fun _ => ?_
  constructor
  · intro h haccepted
    exact noPanic_validateScanCoverage.1 (noPanic_bind.1 (h () haccepted)).1
  · intro h _ haccepted
    refine NoPanic.bind (noPanic_validateScanCoverage.2 (h haccepted)) fun _ _ => ?_
    refine NoPanic.bind_orReject fun _ _ => NoPanic.bind_orReject fun _ _ => ?_
    exact NoPanic.bind_orReject fun _ _ => noPanic_validateCrossLanguageMaps

/-- A payload that is admitted after the start comes when the root is known. -/
theorem RootKnown.of_checkState {payload : EventPayload} (hroot : v.RootKnown)
    (hallowed : v.checkState payload = .ok ()) (hpayload : payload.isPayloadEvent = true) :
    v.root.isSome = true := by
  refine hroot fun hawaiting => ?_
  unfold checkState at hallowed
  rw [hawaiting] at hallowed
  cases payload with
  | scanStarted root projectCodeExecuted safeMode => cases hpayload
  | _ => cases hallowed

/-- The checks of one event do not panic when its counters fit, and only then. -/
theorem noPanic_verdict (hroot : v.RootKnown) :
    NoPanic (v.verdict host event) ↔ (host.overflowChecks = true → v.CountersFit event) := by
  have hpayload (hcommon : v.commonVerdict event.common = .ok ())
      (hallowed : v.checkState event.payload = .ok ()) :
      NoPanic (v.payloadVerdict host event.payload) ↔
        (host.overflowChecks = true → v.CountersFit event) := by
    have hknown := hroot.of_checkState hallowed
    unfold CountersFit ReachesCoverage
    generalize event.payload = payload at *
    cases payload with
    | scanStarted root projectCodeExecuted safeMode =>
      exact iff_of_true (NoPanic.orReject _) fun _ => trivial
    | profileDeclared profile =>
      exact iff_of_true (NoPanic.bind_orReject fun _ _ => NoPanic.orReject _) fun _ => trivial
    | nodeUpsert node =>
      exact iff_of_true (NoPanic.bind_orReject fun _ _ => NoPanic.orReject _) fun _ => trivial
    | edgeUpsert edge =>
      refine iff_of_true (NoPanic.bind ?_ fun _ _ => NoPanic.orReject _) fun _ => trivial
      refine NoPanic.bind_orReject fun _ _ => NoPanic.bind_orReject fun _ _ => ?_
      exact noPanic_validateEvidencePaths (hknown rfl)
    | dependencySite site =>
      refine iff_of_true (NoPanic.bind ?_ fun _ _ => NoPanic.orReject _) fun _ => trivial
      refine NoPanic.bind_orReject fun _ _ => NoPanic.bind_orReject fun _ _ => ?_
      exact noPanic_validateEvidencePaths (hknown rfl)
    | diagnostic diagnostic =>
      refine iff_of_true (NoPanic.bind ?_ fun _ _ => NoPanic.orReject _) fun _ => trivial
      exact noPanic_checkDiagnostic (hknown rfl)
    | fileCompleted path discoveredSites emittedSites skippedSites skipped reason =>
      exact iff_of_true (noPanic_checkFile (hknown rfl)) fun _ => trivial
    | profileCompleted profileId coverage =>
      unfold payloadVerdict requireDeclaredProfile
      rw [noPanic_orReject_then, check_eq_ok, noPanic_orReject_then, check_eq_ok]
      dsimp only
      constructor
      · rintro h hchecks ⟨-, -, hsafe⟩ hdeclared hopen
        exact (noPanic_checkCompletion hdeclared).1 (h hdeclared hopen) hsafe hchecks
      · intro h hdeclared hopen
        exact (noPanic_checkCompletion hdeclared).2 fun hsafe hchecks =>
          h hchecks ⟨hcommon, hallowed, hsafe⟩ hdeclared hopen
    | scanCompleted coverage =>
      unfold payloadVerdict
      rw [noPanic_checkScanCompleted]
      dsimp only
      constructor
      · rintro h hchecks ⟨-, -, hsafe⟩ hcompleted
        obtain ⟨hfits, hfiles⟩ := h hcompleted hsafe
        rw [hchecks] at hfiles
        exact ⟨hfits hchecks, fun haccepted hprofiles hcounts => hfiles haccepted hprofiles hcounts rfl⟩
      · intro h hcompleted hsafe
        refine ⟨fun hchecks => (h hchecks ⟨hcommon, hallowed, hsafe⟩ hcompleted).1, ?_⟩
        intro haccepted hprofiles hcounts hchecks
        rw [hchecks] at haccepted
        exact (h hchecks ⟨hcommon, hallowed, hsafe⟩ hcompleted).2 haccepted hprofiles hcounts
  unfold verdict
  rw [noPanic_orReject_then, noPanic_orReject_then]
  constructor
  · intro h hchecks
    by_cases hreached : v.commonVerdict event.common = .ok () ∧ v.checkState event.payload = .ok ()
    · exact (hpayload hreached.1 hreached.2).1 (h hreached.1 hreached.2) hchecks
    · have hunreached (coverage : Coverage) : ¬ v.ReachesCoverage event coverage :=
        fun hreaches => hreached ⟨hreaches.1, hreaches.2.1⟩
      unfold CountersFit
      cases event.payload with
      | profileCompleted profileId coverage => exact fun hreaches => absurd hreaches (hunreached _)
      | scanCompleted coverage => exact fun hreaches => absurd hreaches (hunreached _)
      | _ => trivial
  · exact fun h hcommon hallowed => (hpayload hcommon hallowed).2 h

theorem countersFit_normalizeConditions {F : FloatText} :
    v.CountersFit (normalizeConditions F event) ↔ v.CountersFit event := by
  unfold CountersFit ReachesCoverage normalizeConditions normalizePayload
  cases event.payload <;> rfl

/-- **One event does not panic when its counters fit, and only then.** -/
theorem noPanic_push (hroot : v.RootKnown) : NoPanic (outcome (push host event) v).1 ↔
    (host.overflowChecks = true → v.CountersFit event) := by
  rw [← countersFit_normalizeConditions, ← noPanic_verdict hroot, outcome_push]
  generalize v.verdict host (normalizeConditions host.ids.floatText event) = verdict
  cases verdict with
  | ok u => exact iff_of_true (NoPanic.ok _) (NoPanic.ok _)
  | error failure => exact Iff.rfl

end

/-! ### Runs -/

section

variable {host : Host} {v : ProtocolValidator}

/-- What the lookups of a run rest on. -/
structure WellKept (v : ProtocolValidator) : Prop where
  root : v.RootKnown
  sites : KeyedBy DependencySite.id v.sites

theorem wellKept_retain {event : ProtocolEvent} (h : v.WellKept) : (retain event v).WellKept := by
  unfold retain
  split_ifs
  · exact ⟨h.root, h.sites⟩
  · exact h

theorem WellKept.recorded (h : v.WellKept) {event : ProtocolEvent}
    (hallowed : v.checkState event.payload = .ok ()) : (v.recorded event).WellKept := by
  refine wellKept_retain ?_
  cases hpayload : event.payload with
  | scanStarted root projectCodeExecuted safeMode => exact ⟨fun _ => rfl, h.sites⟩
  | scanCompleted coverage =>
    refine ⟨fun _ => h.root fun hawaiting => ?_, h.sites⟩
    unfold checkState at hallowed
    rw [hawaiting, hpayload] at hallowed
    cases hallowed
  | dependencySite site => exact ⟨h.root, h.sites.insertIfNew⟩
  | profileDeclared profile => exact ⟨h.root, h.sites⟩
  | nodeUpsert node => exact ⟨h.root, h.sites⟩
  | edgeUpsert edge => exact ⟨h.root, h.sites⟩
  | diagnostic diagnostic => exact ⟨h.root, h.sites⟩
  | fileCompleted path discoveredSites emittedSites skippedSites skipped reason =>
    exact ⟨h.root, h.sites⟩
  | profileCompleted profileId coverage => exact ⟨h.root, h.sites⟩

theorem WellKept.afterRejected (h : v.WellKept) (event : ProtocolEvent) :
    (v.afterRejected event).WellKept := by
  unfold ProtocolValidator.afterRejected
  split
  · exact h
  · split
    · exact ⟨h.root, h.sites⟩
    · unfold marked
      split
      · split_ifs
        · exact ⟨h.root, h.sites⟩
        · exact ⟨h.root, h.sites⟩
      · exact ⟨h.root, h.sites⟩

theorem WellKept.push (h : v.WellKept) (event : ProtocolEvent) :
    (outcome (push host event) v).2.WellKept := by
  rw [outcome_push]
  cases hverdict : v.verdict host (normalizeConditions host.ids.floatText event) with
  | ok u =>
    simp only [verdict, bind_eq_ok, orReject_eq_ok] at hverdict
    obtain ⟨-, -, _, hallowed, -⟩ := hverdict
    exact h.recorded hallowed
  | error failure => exact h.afterRejected _

theorem WellKept.afterAll (h : v.WellKept) (events : List ProtocolEvent) :
    (afterAll (ProtocolValidator.push host) v events).WellKept := by
  induction events generalizing v with
  | nil => exact h
  | cons event events ih => exact ih (h.push event)

/-- A new validator that keeps the graph events among its validated events, or does not. -/
def fresh (policy : ValidationPolicy) (retainGraphEvents : Bool) : ProtocolValidator :=
  if retainGraphEvents then withPolicy policy else (withPolicy policy).withoutGraphEventRetention

theorem wellKept_fresh (policy : ValidationPolicy) (retainGraphEvents : Bool) :
    (fresh policy retainGraphEvents).WellKept := by
  have hempty : KeyedBy DependencySite.id (∅ : SiteMap) := fun id site hsite => by
    rw [Std.ExtTreeMap.getElem?_empty] at hsite
    cases hsite
  unfold fresh
  split_ifs
  · exact ⟨fun h => absurd rfl h, hempty⟩
  · exact ⟨fun h => absurd rfl h, hempty⟩

end

end ProtocolValidator

def validateSemanticContract (host : Host) (protocol : ValidatedProtocol) :
    Except (Failure ProtocolError) Unit := do
  orReject (validateSiteEdgeMaps host.ids protocol.nodes protocol.edges protocol.sites .required)
  validateSemanticMaps host.ids protocol.profiles protocol.nodes protocol.edges protocol.sites .required
  validateCrossLanguageMaps host.ids host.malformed protocol.profiles protocol.nodes protocol.edges
    protocol.sites

theorem noPanic_validateSemanticContract {host : Host} {protocol : ValidatedProtocol}
    (hkeyed : KeyedBy DependencySite.id protocol.sites) :
    NoPanic (validateSemanticContract host protocol) := by
  refine NoPanic.bind_orReject fun _ hmaps => ?_
  refine NoPanic.bind (noPanic_validateSemanticMaps (validateSiteEdgeMaps_ok hmaps) hkeyed) ?_
  exact fun _ _ => noPanic_validateCrossLanguageMaps

namespace ProtocolValidator

/-- **A stream never panics as long as the counters of its events fit into 64 bits, and panics when those
of one do not.** A build that wraps never panics. The semantic contract does not panic on what has been
validated, whether edges share the evidence of their sites or not. -/
theorem noPanic_stream (host : Host) (policy : ValidationPolicy) (retainGraphEvents : Bool)
    (events : List ProtocolEvent) :
    ((∀ before event after, events = before ++ event :: after →
        NoPanic (outcome (push host event)
          (afterAll (push host) (fresh policy retainGraphEvents) before)).1) ↔
      (host.overflowChecks = true → ∀ before event after, events = before ++ event :: after →
        (afterAll (push host) (fresh policy retainGraphEvents) before).CountersFit event)) ∧
    ∀ protocol, finish (afterAll (push host) (fresh policy retainGraphEvents) events) = .ok protocol →
      NoPanic (validateSemanticContract host protocol) ∧
      ∀ mode, NoPanic (validateGraphMaps host.ids protocol.nodes protocol.edges protocol.sites mode) := by
  have hkept (events : List ProtocolEvent) :
      (afterAll (push host) (fresh policy retainGraphEvents) events).WellKept :=
    (wellKept_fresh policy retainGraphEvents).afterAll events
  constructor
  · constructor
    · intro h hchecks before event after heq
      exact (noPanic_push (hkept before).root).1 (h before event after heq) hchecks
    · intro h before event after heq
      exact (noPanic_push (hkept before).root).2 fun hchecks => h hchecks before event after heq
  · intro protocol hfinish
    simp only [finish, bind_eq_ok] at hfinish
    obtain ⟨-, -, hprotocol⟩ := hfinish
    rw [← Except.ok.inj hprotocol]
    exact ⟨noPanic_validateSemanticContract (hkept events).sites,
      fun mode => noPanic_validateGraphMaps (hkept events).sites⟩

end ProtocolValidator

namespace CounterSample

theorem length_zeros : (List.replicate 32 (0 : UInt8)).length = 32 := List.length_replicate

/-- A build that checks for overflow. -/
def host : Host where
  ids := ⟨.plain, fun _ => ⟨List.replicate 32 0, length_zeros⟩⟩
  fromStr _ := none
  malformed _ _ := ""
  canonicalize _ := none
  overflowChecks := true

def event (seq : Nat) (payload : EventPayload) : ProtocolEvent :=
  ⟨⟨protocolVersion, "s", "a", "1", seq⟩, payload⟩

def started : List ProtocolEvent :=
  [event 0 (.scanStarted "/r" false true),
    event 1 (.profileDeclared ⟨"p", "go", none, none, none, [], ∅, none, ∅⟩)]

/-- Two of the counters are more than 64 bits together. -/
def coverage : Coverage where
  profiles := 1
  filesDiscovered := 0
  filesAnalyzed := 0
  filesSkipped := 0
  dependencySites := 0
  resolved := 2 ^ 64 - 1
  candidates := 1
  external := 0
  unresolved := 0
  unsupportedSyntax := 0
  projectCodeExecuted := false
  completeness := []
  reasons := []

end CounterSample

open CounterSample ProtocolValidator in
/-- A completed profile whose counters overflow. -/
theorem ProtocolValidator.noPanic_stream_overflow :
    ¬ NoPanic (outcome (push host (event 2 (.profileCompleted "p" coverage)))
      (afterAll (push host) (fresh .compatible true) started)).1 :=
  fun h => h "attempt to add with overflow" (by rfl)

end Protocol
