import Depgraph.Protocol.DeltaBaseCoverage

/-!
# The sums of a coverage

The laws that `validate_coverage` and `validate_scan_coverage` are there for, as equations of unbounded
numbers. The stream validator adds 64-bit counters without a check, so what it accepts obeys them
exactly when no addition overflows; the delta validator adds with a check and always enforces them.
-/

namespace Protocol

open Json Fallible Panics Mutable OrderedMap

/-- Every dependency site is classified and every discovered file accounted for. -/
structure Coverage.Exact (coverage : Coverage) : Prop where
  sites : coverage.resolved + coverage.candidates + coverage.external + coverage.unresolved =
    coverage.dependencySites
  files : coverage.filesAnalyzed + coverage.filesSkipped = coverage.filesDiscovered

/-- What the files of a stream have emitted, without a bound. -/
def emittedTotal (events : List ProtocolEvent) : Nat :=
  ((completedFiles events).map FileCompleted.emittedSites).sum

/-- The sum of the emitted sites fits into 64 bits, when the scan coverage counts the profiles and the
sites right, so that the sum is taken. -/
def EmittedFit (coverage : Coverage) (profiles : ProfileMap) (sites : SiteMap)
    (events : List ProtocolEvent) : Prop :=
  coverage.profiles = profiles.size → CountsSites coverage (values sites) →
    emittedTotal events < 2 ^ 64

/-! ### The checks -/

section Checks

variable {overflowChecks : Bool} {coverage : Coverage}

/-- On a coverage whose sums fit the checks of every build are those of the exact laws. -/
theorem Coverage.Fits.validateCoverage_eq_ok (fits : coverage.Fits) :
    Stream.validateCoverage overflowChecks coverage = .ok () ↔
      coverage.Exact ∧ coverage.completeness.dedup.length = coverage.completeness.length := by
  obtain ⟨statuses, files⟩ := fits
  -- each partial sum is below the total, so none of the additions wraps
  rw [Stream.validateCoverage, addU64_of_lt (by omega), ok_bind, addU64_of_lt (by omega), ok_bind,
    addU64_of_lt statuses, ok_bind]
  simp only [bind_eq_ok, orReject_eq_ok, ensure_eq_ok, exists_const]
  constructor
  · rintro ⟨sites, accounted, haccounted, discovered, distinct⟩
    rw [addU64_of_lt (files sites)] at haccounted
    obtain rfl := Except.ok.inj haccounted
    exact ⟨⟨sites, discovered⟩, distinct⟩
  · rintro ⟨⟨sites, discovered⟩, distinct⟩
    exact ⟨sites, _, addU64_of_lt (files sites), discovered, distinct⟩

/-- A coverage whose sums fit and that is accepted is exact. -/
theorem Coverage.Fits.exact (fits : coverage.Fits)
    (accepted : Stream.validateCoverage overflowChecks coverage = .ok ()) : coverage.Exact :=
  (fits.validateCoverage_eq_ok.1 accepted).1

/-- Files whose sum fits have emitted no more sites than an accepted coverage counts. -/
theorem emittedTotal_le {profiles : ProfileMap} {sites : SiteMap} {events : List ProtocolEvent}
    (fits : EmittedFit coverage profiles sites events)
    (accepted : validateScanCoverage overflowChecks coverage profiles sites events = .ok ()) :
    emittedTotal events ≤ coverage.dependencySites := by
  simp only [validateScanCoverage, bind_eq_ok, orReject_eq_ok, ensure_eq_ok, exists_const]
    at accepted
  obtain ⟨declared, _, counts, emitted, hemitted, -, -, bound⟩ := accepted
  have small : 0 + emittedTotal events < 2 ^ 64 := by
    rw [Nat.zero_add]
    exact fits declared (validateSiteCounts_eq_ok.1 counts)
  rw [sumU64_eq] at hemitted
  change addU64 overflowChecks 0 (emittedTotal events) = .ok emitted at hemitted
  rw [addU64_of_lt small, Nat.zero_add] at hemitted
  rw [← Except.ok.inj hemitted] at bound
  exact Nat.not_lt.1 bound

/-- `validate_coverage` is exact and free of overflow in every build, just on the coverages whose sums
fit. -/
theorem validateCoverage_sound_iff :
    (∀ checks, NoPanic (Stream.validateCoverage checks coverage) ∧
      (Stream.validateCoverage checks coverage = .ok () → coverage.Exact)) ↔ coverage.Fits := by
  constructor
  · intro sound
    exact noPanic_streamValidateCoverage.1 (sound true).1 rfl
  · intro fits checks
    exact ⟨noPanic_streamValidateCoverage.2 fun _ => fits, fits.exact⟩

/-- `validate_scan_coverage` is exact and free of overflow in every build, just when the sum of the
emitted sites fits if it is reached. -/
theorem validateScanCoverage_sound_iff {profiles : ProfileMap} {sites : SiteMap}
    {events : List ProtocolEvent} :
    (∀ checks, NoPanic (validateScanCoverage checks coverage profiles sites events) ∧
      (validateScanCoverage checks coverage profiles sites events = .ok () →
        emittedTotal events ≤ coverage.dependencySites)) ↔
    EmittedFit coverage profiles sites events := by
  constructor
  · intro sound declared counts
    exact noPanic_validateScanCoverage.1 (sound true).1 declared
      (validateSiteCounts_eq_ok.2 counts) rfl
  · intro fits checks
    refine ⟨noPanic_validateScanCoverage.2 fun declared counts _ => ?_, emittedTotal_le fits⟩
    exact fits declared (validateSiteCounts_eq_ok.1 counts)

end Checks

/-! ### Runs -/

namespace ProtocolValidator

/-- The laws that an event claims: those of its coverage, and at the end of the scan that the files
have emitted no more sites than there are. -/
def SumsAgree (v : ProtocolValidator) (event : ProtocolEvent) : Prop :=
  match event.payload with
  | .profileCompleted _ coverage => coverage.Exact
  | .scanCompleted coverage =>
    coverage.Exact ∧ emittedTotal v.events ≤ coverage.dependencySites
  | _ => True

/-- The sums that an event leads to fit into 64 bits. -/
def SumsFit (v : ProtocolValidator) (event : ProtocolEvent) : Prop :=
  match event.payload with
  | .profileCompleted profileId coverage =>
    v.ReachesCoverage event coverage → profileId ∈ v.profiles → profileId ∉ v.completedProfiles →
      coverage.Fits
  | .scanCompleted coverage =>
    v.ReachesCoverage event coverage → (∀ id ∈ v.profiles, id ∈ v.completedProfiles) →
      coverage.Fits ∧ (coverage.Exact ∧
        coverage.completeness.dedup.length = coverage.completeness.length →
          EmittedFit coverage v.profiles v.sites v.events)
  | _ => True

variable {host : Host} {v : ProtocolValidator} {event : ProtocolEvent}

theorem sumsFit_iff : v.SumsFit event ↔ v.CountersFit event := by
  unfold SumsFit CountersFit
  cases event.payload with
  | scanCompleted coverage =>
    refine forall_congr' fun _ => forall_congr' fun _ => and_congr_right fun fits => ?_
    rw [fits.validateCoverage_eq_ok]
    refine forall_congr' fun _ => forall_congr' fun _ => ?_
    rw [validateSiteCounts_eq_ok]
    rfl
  | _ => exact Iff.rfl

/-- An accepted event whose counters fit claims what holds. -/
theorem sumsAgree_of_verdict (fits : v.SumsFit event)
    (accepted : v.verdict host event = .ok ()) : v.SumsAgree event := by
  simp only [verdict, bind_eq_ok, orReject_eq_ok] at accepted
  obtain ⟨_, hcommon, _, hstate, hpayload⟩ := accepted
  unfold SumsFit ReachesCoverage at fits
  unfold SumsAgree
  generalize event.payload = payload at *
  cases payload with
  | profileCompleted profileId coverage =>
    simp only [payloadVerdict, requireDeclaredProfile, bind_eq_ok, orReject_eq_ok, check_eq_ok,
      exists_const, checkCompletion, ensure_eq_ok] at hpayload
    obtain ⟨hdeclared, hopen, hsafe, _, hcoverage, -⟩ := hpayload
    exact (fits ⟨hcommon, hstate, hsafe⟩ hdeclared hopen).exact hcoverage
  | scanCompleted coverage =>
    simp only [payloadVerdict, checkScanCompleted, bind_eq_ok, orReject_eq_ok, check_eq_ok,
      exists_const, ensure_eq_ok] at hpayload
    obtain ⟨hcompleted, hsafe, _, hcoverage, _, hscan, -⟩ := hpayload
    have completed : ∀ id ∈ v.profiles, id ∈ v.completedProfiles := by
      intro id declared
      by_contra missing
      have listed := List.filter_eq_nil_iff.1 hcompleted id (Std.ExtTreeMap.mem_keys.2 declared)
      simp [missing] at listed
    obtain ⟨sums, files⟩ := fits ⟨hcommon, hstate, hsafe⟩ completed
    have exact := sums.validateCoverage_eq_ok.1 hcoverage
    exact ⟨exact.1, emittedTotal_le (files exact) hscan⟩
  | _ => trivial

/-- The build of a host that checks for overflow. -/
def checkedBuild (host : Host) : Host := { host with overflowChecks := true }

/-- An event is sound in a state when none of the additions that it leads to overflows, and it is
accepted only if the laws that it claims hold. -/
def SumsSound (host : Host) (v : ProtocolValidator) (event : ProtocolEvent) : Prop :=
  NoPanic (outcome (push (checkedBuild host) event) v).1 ∧
    ((outcome (push host event) v).1 = .ok () → v.SumsAgree event)

theorem sumsAgree_normalizeConditions {F : FloatText} :
    v.SumsAgree (normalizeConditions F event) ↔ v.SumsAgree event := by
  unfold SumsAgree normalizeConditions normalizePayload
  cases event.payload <;> rfl

/-- One event is sound just when its counters fit. -/
theorem sumsSound_iff (hroot : v.RootKnown) : SumsSound host v event ↔ v.SumsFit event := by
  rw [sumsFit_iff]
  constructor
  · intro sound
    exact (noPanic_push hroot).1 sound.1 rfl
  · intro fits
    refine ⟨(noPanic_push hroot).2 fun _ => fits, ?_⟩
    intro accepted
    rw [outcome_push] at accepted
    have passed : v.verdict host (normalizeConditions host.ids.floatText event) = .ok () := by
      cases verdict : v.verdict host (normalizeConditions host.ids.floatText event) with
      | ok u => rfl
      | error failure =>
        rw [verdict] at accepted
        cases accepted
    have normal := countersFit_normalizeConditions (F := host.ids.floatText) |>.2 fits
    exact sumsAgree_normalizeConditions.1 (sumsAgree_of_verdict (sumsFit_iff.2 normal) passed)

/-- **The coverage checks are exact just on the counters whose sums fit into 64 bits**: on every single
coverage, at the end of every scan, and at every event of every stream. -/
theorem coverage_sums (host : Host) (policy : ValidationPolicy) (retainGraphEvents : Bool) :
    (∀ coverage, (∀ checks, NoPanic (Stream.validateCoverage checks coverage) ∧
        (Stream.validateCoverage checks coverage = .ok () → coverage.Exact)) ↔ coverage.Fits) ∧
    (∀ coverage profiles sites events,
      (∀ checks, NoPanic (validateScanCoverage checks coverage profiles sites events) ∧
        (validateScanCoverage checks coverage profiles sites events = .ok () →
          emittedTotal events ≤ coverage.dependencySites)) ↔
      EmittedFit coverage profiles sites events) ∧
    ∀ events : List ProtocolEvent,
      (∀ before event after, events = before ++ event :: after →
        SumsSound host (afterAll (push host) (fresh policy retainGraphEvents) before) event) ↔
      (∀ before event after, events = before ++ event :: after →
        (afterAll (push host) (fresh policy retainGraphEvents) before).SumsFit event) := by
  refine ⟨fun _ => validateCoverage_sound_iff, fun _ _ _ _ => validateScanCoverage_sound_iff, ?_⟩
  intro events
  refine forall_congr' fun before => forall_congr' fun event => forall_congr' fun after => ?_
  refine forall_congr' fun _ => sumsSound_iff ?_
  exact ((wellKept_fresh policy retainGraphEvents).afterAll before).root

end ProtocolValidator

/-! ### A wrapping sum -/

namespace SumSample

/-- A build that wraps. -/
def host : Host := { CounterSample.host with overflowChecks := false }

/-- The files are more than 64 bits together. -/
def coverage : Coverage :=
  { CounterSample.coverage with resolved := 0, candidates := 0, filesAnalyzed := 2 ^ 64 - 1,
                                filesSkipped := 1 }

/-- A completed profile that claims no file, although it counts some. -/
def event : ProtocolEvent := CounterSample.event 2 (.profileCompleted "p" coverage)

/-- The validator in front of the completed profile. -/
def before : ProtocolValidator :=
  afterAll (ProtocolValidator.push host)
    (ProtocolValidator.fresh .compatible true) CounterSample.started

end SumSample

open SumSample ProtocolValidator in
/-- A build that wraps accepts a completed profile whose files do not add up, and a build that checks
panics on it. -/
theorem ProtocolValidator.coverage_sums_wrap :
    (outcome (push host event) before).1 = .ok () ∧ ¬ before.SumsAgree event ∧
    ¬ NoPanic (outcome (push (checkedBuild host) event) before).1 := by
  refine ⟨by rfl, ?_, fun h => h "attempt to add with overflow" (by rfl)⟩
  rintro ⟨-, files⟩
  exact absurd files (by decide)

end Protocol
