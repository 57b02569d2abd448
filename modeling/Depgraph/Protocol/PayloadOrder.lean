import Depgraph.Protocol.Verdict
import Mathlib.Data.List.Perm.Basic

/-!
# The order of payload events

Streams whose payload events are sent in another order. Two records of one kind with one identifier that
compare equal without being the same (`0.0` and `-0.0` in a condition or a property) are twins: the
validator keeps the first of them. Without twins the order of the payload decides neither whether a
stream is accepted nor what it leaves in the maps.
-/

namespace Protocol

open Json Fallible Panics Mutable OrderedMap Std

/-! ### The files of a scan -/

theorem validateScanCoverage_perm {overflowChecks : Bool} {coverage : Coverage}
    {profiles : ProfileMap} {sites : SiteMap} {events events' : List ProtocolEvent}
    (h : (events.map ProtocolEvent.payload).Perm (events'.map ProtocolEvent.payload)) :
    validateScanCoverage overflowChecks coverage profiles sites events =
      validateScanCoverage overflowChecks coverage profiles sites events' := by
  have hfiles : (events.filterMap fun event => event.payload.file?).Perm
      (events'.filterMap fun event => event.payload.file?) := by
    have hmapped := h.filterMap EventPayload.file?
    rwa [List.filterMap_map, List.filterMap_map] at hmapped
  unfold validateScanCoverage
  simp only [sumU64_eq, hfiles.length_eq, hfiles.countP_eq,
    (hfiles.map FileCompleted.emittedSites).sum_nat]

/-! ### Payload events -/

/-- A node, an edge, a site, a diagnostic or a completed file. -/
def EventPayload.isContent : EventPayload → Bool
  | .nodeUpsert _ | .edgeUpsert _ | .dependencySite _ | .diagnostic _ | .fileCompleted .. => true
  | _ => false

/-- Two records of one kind with one identifier that compare equal and are not the same. -/
def EventPayload.Twins : EventPayload → EventPayload → Prop
  | .nodeUpsert a, .nodeUpsert b => a.id = b.id ∧ a.beq b = true ∧ a ≠ b
  | .edgeUpsert a, .edgeUpsert b => a.id = b.id ∧ a.beq b = true ∧ a ≠ b
  | .dependencySite a, .dependencySite b => a.id = b.id ∧ a.beq b = true ∧ a ≠ b
  | .diagnostic a, .diagnostic b => a.id = b.id ∧ a.beq b = true ∧ a ≠ b
  | _, _ => False

section Upserts

variable {V : Type} {beq : V → V → Bool} {m : ExtTreeMap String V} {id id' : String} {a b : V}

/-- A record that is already known compares equal. -/
def Agrees (beq : V → V → Bool) (m : ExtTreeMap String V) (id : String) (value : V) : Prop :=
  ∀ known, m[id]? = some known → beq known value = true

theorem agrees_eq_ok {entity : String} :
    ProtocolValidator.agrees beq m id a entity = .ok () ↔ Agrees beq m id a := by
  unfold ProtocolValidator.agrees insertUpsert Agrees
  cases hknown : m[id]? with
  | none => simp
  | some known =>
    by_cases hbeq : beq known a = true
    · simp [hbeq]
    · simp [hbeq]

theorem getElem?_insertIfNew {key : String} :
    (m.insertIfNew id a)[key]? = if id = key ∧ m[id]? = none then some a else m[key]? := by
  rw [ExtTreeMap.getElem?_insertIfNew]
  simp only [Std.compare_eq_iff_eq, not_mem_iff]

/-- Of two records that are not twins, the second one is new under its identifier or the same. -/
theorem same_of_clash (htwins : ¬ (id = id' ∧ beq a b = true ∧ a ≠ b))
    (hb : Agrees beq (m.insertIfNew id a) id' b) (hclash : id = id' ∧ m[id]? = none) : a = b := by
  by_contra hne
  refine htwins ⟨hclash.1, hb a ?_, hne⟩
  rw [getElem?_insertIfNew, if_pos hclash]

/-- Two records that are not twins agree in one order if they agree in the other. -/
theorem agrees_swap (htwins : ¬ (id = id' ∧ beq a b = true ∧ a ≠ b)) (ha : Agrees beq m id a)
    (hb : Agrees beq (m.insertIfNew id a) id' b) :
    Agrees beq m id' b ∧ Agrees beq (m.insertIfNew id' b) id a := by
  by_cases hclash : id = id' ∧ m[id]? = none
  · obtain rfl := same_of_clash htwins hb hclash
    obtain ⟨rfl, habsent⟩ := hclash
    exact ⟨ha, hb⟩
  · refine ⟨fun known hknown => hb known ?_, fun known hknown => ha known ?_⟩
    · rw [getElem?_insertIfNew, if_neg hclash, hknown]
    · rwa [getElem?_insertIfNew, if_neg] at hknown
      rintro ⟨rfl, habsent⟩
      exact hclash ⟨rfl, habsent⟩

theorem insertIfNew_comm (htwins : ¬ (id = id' ∧ beq a b = true ∧ a ≠ b))
    (hb : Agrees beq (m.insertIfNew id a) id' b) :
    (m.insertIfNew id a).insertIfNew id' b = (m.insertIfNew id' b).insertIfNew id a := by
  by_cases hclash : id = id' ∧ m[id]? = none
  · obtain rfl := same_of_clash htwins hb hclash
    rw [hclash.1]
  · by_cases hsame : id = id'
    · obtain rfl := hsame
      obtain ⟨known, hknown⟩ := Option.ne_none_iff_exists'.1 fun habsent => hclash ⟨rfl, habsent⟩
      rw [insertIfNew_of_some hknown, insertIfNew_of_some hknown, insertIfNew_of_some hknown]
    · refine ExtTreeMap.ext_getElem? fun key => ?_
      simp only [getElem?_insertIfNew, hsame, Ne.symm hsame, false_and, if_false]
      by_cases hkey : id = key
      · have hother : ¬ id' = key := fun h => hsame (hkey.trans h.symm)
        simp only [hkey, hother, false_and, if_false]
      · simp only [hkey, false_and, if_false]

end Upserts

namespace ProtocolValidator

/-! ### Streams -/

/-- The event under another sequence number. -/
def withSeq (seq : Nat) (event : ProtocolEvent) : ProtocolEvent :=
  { event with common := { event.common with seq } }

/-- The events under consecutive sequence numbers. -/
def renumbered : Nat → List ProtocolEvent → List ProtocolEvent
  | _, [] => []
  | seq, event :: events => withSeq seq event :: renumbered (seq + 1) events

theorem renumbered_append (seq : Nat) (events events' : List ProtocolEvent) :
    renumbered seq (events ++ events') =
      renumbered seq events ++ renumbered (seq + events.length) events' := by
  induction events generalizing seq with
  | nil => rfl
  | cons event events ih =>
    rw [List.cons_append, renumbered, ih, List.length_cons, Nat.add_right_comm, Nat.add_assoc]
    rfl

/-- The validator after a stream that it accepts. -/
def accepted (host : Host) (v : ProtocolValidator) (events : List ProtocolEvent) :
    Option ProtocolValidator :=
  match outcome (events.forM (push host)) v with
  | (.ok (), v') => if v'.finish.isOk then some v' else none
  | (.error _, _) => none

/-- The run of a validator over events whose conditions are normalized, each of them accepted. -/
def Runs (host : Host) : ProtocolValidator → List ProtocolEvent → ProtocolValidator → Prop
  | v, [], v' => v' = v
  | v, event :: events, v' => v.verdict host event = .ok () ∧ Runs host (v.recorded event) events v'

variable {host : Host} {v v' w : ProtocolValidator}

theorem runs_append {events events' : List ProtocolEvent} :
    Runs host v (events ++ events') v' ↔ ∃ w, Runs host v events w ∧ Runs host w events' v' := by
  induction events generalizing v with
  | nil => simp only [List.nil_append, Runs, exists_eq_left]
  | cons event events ih => simp only [List.cons_append, Runs, ih, and_assoc, exists_and_left]

theorem outcome_push_ok {event : ProtocolEvent} :
    outcome (push host event) v = (.ok (), v') ↔
      v.verdict host (normalizeConditions host.ids.floatText event) = .ok () ∧
        v' = v.recorded (normalizeConditions host.ids.floatText event) := by
  rw [outcome_push]
  cases v.verdict host (normalizeConditions host.ids.floatText event) with
  | ok u => simp [eq_comm]
  | error failure => simp

theorem outcome_forM_ok {events : List ProtocolEvent} :
    outcome (events.forM (push host)) v = (.ok (), v') ↔
      Runs host v (events.map (normalizeConditions host.ids.floatText)) v' := by
  induction events generalizing v with
  | nil => simp [Runs, eq_comm]
  | cons event events ih =>
    change outcome (push host event >>= fun _ => events.forM (push host)) v = _ ↔ _
    rw [outcome_bind_ok, List.map_cons, Runs]
    constructor
    · rintro ⟨u, s, hpush, hrest⟩
      obtain ⟨hverdict, rfl⟩ := outcome_push_ok.1 hpush
      exact ⟨hverdict, ih.1 hrest⟩
    · rintro ⟨hverdict, hrest⟩
      exact ⟨(), _, outcome_push_ok.2 ⟨hverdict, rfl⟩, ih.2 hrest⟩

theorem accepted_eq_some {events : List ProtocolEvent} :
    accepted host v events = some v' ↔
      Runs host v (events.map (normalizeConditions host.ids.floatText)) v' ∧
        v'.state = .completed := by
  rw [← outcome_forM_ok, accepted]
  have hfinish (v : ProtocolValidator) : v.finish.isOk = true ↔ v.state = .completed := by
    unfold finish
    by_cases hstate : v.state = .completed
    · rw [check_of hstate]
      simp [hstate]
      rfl
    · rw [check_of_not hstate]
      simp [hstate]
      rfl
  cases hrun : outcome (events.forM (push host)) v with | mk result s =>
  cases result with
  | error failure => simp
  | ok u =>
    simp only [hfinish, Option.ite_none_right_eq_some, Option.some.injEq, Prod.mk.injEq, true_and]
    constructor
    · rintro ⟨hstate, rfl⟩
      exact ⟨rfl, hstate⟩
    · rintro ⟨rfl, hstate⟩
      exact ⟨hstate, rfl⟩

/-! ### Validators that differ in the order of their events -/

/-- Everything but the validated events agrees, and these agree up to their order and their sequence
numbers. -/
structure Same (v w : ProtocolValidator) : Prop where
  fields : w = { v with events := w.events }
  payloads : (v.events.map ProtocolEvent.payload).Perm (w.events.map ProtocolEvent.payload)

theorem Same.refl (v : ProtocolValidator) : Same v v := ⟨rfl, .refl _⟩

theorem Same.trans {u : ProtocolValidator} (h : Same u v) (h' : Same v w) : Same u w where
  fields := by
    rw [h'.fields, h.fields]
  payloads := h.payloads.trans h'.payloads

theorem Same.verdict (h : Same v w) (event : ProtocolEvent) :
    w.verdict host event = v.verdict host event := by
  have hscan (coverage : Coverage) :
      w.checkScanCompleted host coverage = v.checkScanCompleted host coverage := by
    unfold checkScanCompleted
    rw [h.fields, validateScanCoverage_perm h.payloads]
  have hpayload (payload : EventPayload) :
      w.payloadVerdict host payload = v.payloadVerdict host payload := by
    cases payload with
    | scanCompleted coverage => exact hscan coverage
    | _ => rw [h.fields]; rfl
  unfold ProtocolValidator.verdict
  rw [hpayload, h.fields]
  rfl

theorem retain_fields (event : ProtocolEvent) (v : ProtocolValidator) :
    retain event v = { v with events := (retain event v).events } := by
  unfold retain
  split_ifs <;> rfl

theorem Same.recorded (h : Same v w) (event : ProtocolEvent) :
    Same (v.recorded event) (w.recorded event) := by
  have hretains : w.retains = v.retains := by
    rw [h.fields]
    rfl
  have hnoted : (w.routed event.common).noted event.payload =
      { (v.routed event.common).noted event.payload with events := w.events } := by
    rw [h.fields]
    cases event.payload <;> rfl
  constructor
  · unfold ProtocolValidator.recorded
    rw [retain_fields event, hnoted, retain_fields event (noted _ _)]
  · rw [events_recorded, events_recorded, List.map_append, List.map_append, hretains]
    exact h.payloads.append_right _

theorem Same.runs (h : Same v w) {events : List ProtocolEvent} (hruns : Runs host v events v') :
    ∃ w', Runs host w events w' ∧ Same v' w' := by
  induction events generalizing v w with
  | nil => exact ⟨w, rfl, hruns ▸ h⟩
  | cons event events ih =>
    obtain ⟨hverdict, hrest⟩ := hruns
    obtain ⟨w', hw, hsame⟩ := ih (h.recorded event) hrest
    exact ⟨w', ⟨(h.verdict event).trans hverdict, hw⟩, hsame⟩

/-! ### Two payload events in either order -/

/-- The checks of a payload event, its agreement with what is known apart. -/
def Passes (host : Host) (v : ProtocolValidator) : EventPayload → Prop
  | .nodeUpsert node => validateNode host.ids node = .ok ()
  | .edgeUpsert edge => v.checkEdge host edge = .ok ()
  | .dependencySite site => v.checkSite host site = .ok ()
  | .diagnostic diagnostic => v.checkDiagnostic host diagnostic = .ok ()
  | .fileCompleted path discoveredSites emittedSites skippedSites skipped reason =>
    v.checkFile host ⟨path, discoveredSites, emittedSites, skippedSites, skipped, reason⟩ = .ok ()
  | _ => True

/-- The record of a payload event agrees with what is known. -/
def Fits (v : ProtocolValidator) : EventPayload → Prop
  | .nodeUpsert node => Agrees GraphNode.beq v.nodes node.id node
  | .edgeUpsert edge => Agrees GraphEdge.beq v.edges edge.id edge
  | .dependencySite site => Agrees DependencySite.beq v.sites site.id site
  | .diagnostic diagnostic => Agrees Diagnostic.beq v.diagnostics diagnostic.id diagnostic
  | _ => True

variable {payload payload' : EventPayload}

theorem payloadVerdict_eq_ok (hcontent : payload.isContent = true) :
    v.payloadVerdict host payload = .ok () ↔ Passes host v payload ∧ Fits v payload := by
  cases payload with
  | nodeUpsert node => simp [payloadVerdict, Passes, Fits, agrees_eq_ok, Unique.exists_iff]
  | edgeUpsert edge => simp [payloadVerdict, Passes, Fits, agrees_eq_ok, Unique.exists_iff]
  | dependencySite site => simp [payloadVerdict, Passes, Fits, agrees_eq_ok, Unique.exists_iff]
  | diagnostic diagnostic => simp [payloadVerdict, Passes, Fits, agrees_eq_ok, Unique.exists_iff]
  | fileCompleted path discoveredSites emittedSites skippedSites skipped reason =>
    simp [payloadVerdict, Passes, Fits]
  | _ => cases hcontent

/-- What a payload event records is looked at by no check of another one. -/
theorem passes_noted (hcontent : payload.isContent = true) :
    Passes host (v.noted payload) payload' ↔ Passes host v payload' := by
  cases payload with
  | nodeUpsert _ | edgeUpsert _ | dependencySite _ | diagnostic _ | fileCompleted =>
    cases payload' <;> rfl
  | _ => cases hcontent

theorem checkState_noted (hcontent : payload.isContent = true) :
    (v.noted payload).checkState payload' = v.checkState payload' := by
  cases payload with
  | nodeUpsert _ | edgeUpsert _ | dependencySite _ | diagnostic _ | fileCompleted => rfl
  | _ => cases hcontent

theorem fits_swap (hcontent : payload.isContent = true) (htwins : ¬ payload.Twins payload')
    (h : Fits v payload) (h' : Fits (v.noted payload) payload') :
    Fits v payload' ∧ Fits (v.noted payload') payload := by
  cases payload with
  | nodeUpsert a =>
    cases payload' with
    | nodeUpsert b => exact agrees_swap htwins h h'
    | _ => exact ⟨h', h⟩
  | edgeUpsert a =>
    cases payload' with
    | edgeUpsert b => exact agrees_swap htwins h h'
    | _ => exact ⟨h', h⟩
  | dependencySite a =>
    cases payload' with
    | dependencySite b => exact agrees_swap htwins h h'
    | _ => exact ⟨h', h⟩
  | diagnostic a =>
    cases payload' with
    | diagnostic b => exact agrees_swap htwins h h'
    | _ => exact ⟨h', h⟩
  | fileCompleted path discoveredSites emittedSites skippedSites skipped reason =>
    cases payload' <;> exact ⟨h', trivial⟩
  | _ => cases hcontent

theorem noted_comm (hcontent : payload.isContent = true) (htwins : ¬ payload.Twins payload')
    (h' : Fits (v.noted payload) payload') :
    (v.noted payload).noted payload' = (v.noted payload').noted payload := by
  cases payload with
  | nodeUpsert a =>
    cases payload' with
    | nodeUpsert b => exact congrArg (fun nodes => { v with nodes }) (insertIfNew_comm htwins h')
    | _ => rfl
  | edgeUpsert a =>
    cases payload' with
    | edgeUpsert b => exact congrArg (fun edges => { v with edges }) (insertIfNew_comm htwins h')
    | _ => rfl
  | dependencySite a =>
    cases payload' with
    | dependencySite b =>
      exact congrArg (fun sites => { v with sites }) (insertIfNew_comm htwins h')
    | _ => rfl
  | diagnostic a =>
    cases payload' with
    | diagnostic b =>
      exact congrArg (fun diagnostics => { v with diagnostics }) (insertIfNew_comm htwins h')
    | _ => rfl
  | fileCompleted path discoveredSites emittedSites skippedSites skipped reason => rfl
  | _ => cases hcontent

theorem verdict_eq_ok {event : ProtocolEvent} (hcontent : event.payload.isContent = true) :
    v.verdict host event = .ok () ↔ v.commonVerdict event.common = .ok () ∧
      v.checkState event.payload = .ok () ∧ Passes host v event.payload ∧ Fits v event.payload := by
  simp only [verdict, bind_eq_ok, orReject_eq_ok, Unique.exists_iff,
    payloadVerdict_eq_ok hcontent]

/-- The routing fields that an event needs whatever came before it. -/
def Routable (common : CommonFields) : Prop :=
  common.protocolVersion = protocolVersion ∧ requireNonEmpty "scan_id" common.scanId = .ok () ∧
    requireNonEmpty "adapter" common.adapter = .ok () ∧
    requireNonEmpty "adapter_version" common.adapterVersion = .ok ()

/-- The identity that an event carries. -/
def identityOf (common : CommonFields) : StreamIdentity :=
  ⟨common.scanId, common.adapter, common.adapterVersion⟩

theorem checkIdentity_eq_ok {identity : StreamIdentity} {common : CommonFields} :
    checkIdentity identity common = .ok () ↔ identity = identityOf common := by
  refine ⟨identity_of_checkIdentity, ?_⟩
  rintro rfl
  simp [checkIdentity, identityOf]

theorem commonVerdict_eq_ok {common : CommonFields} :
    v.commonVerdict common = .ok () ↔ Routable common ∧
      (∀ previous ∈ v.lastSeq, previous < common.seq) ∧
      ∀ identity ∈ v.identity, identity = identityOf common := by
  simp only [commonVerdict, checkCommon, Routable, bind_eq_ok, Unique.exists_iff, check_eq_ok]
  cases v.identity with
  | none => cases v.lastSeq <;> simp [and_assoc]
  | some identity => cases v.lastSeq <;> simp [checkIdentity_eq_ok, and_assoc]

/-- What an event records, its routing apart. -/
theorem recorded_eq (event : ProtocolEvent) (v : ProtocolValidator) :
    v.recorded event = { v.noted event.payload with
      identity := some (identityOf event.common)
      lastSeq := some event.common.seq
      events := (v.recorded event).events } := by
  have hnoted : (v.routed event.common).noted event.payload = (v.noted event.payload).routed
      event.common := by
    cases event.payload <;> rfl
  rw [recorded, hnoted]
  exact retain_fields event _

theorem recorded_recorded (first second : ProtocolEvent) (v : ProtocolValidator) :
    (v.recorded first).recorded second = { (v.noted first.payload).noted second.payload with
      identity := some (identityOf second.common)
      lastSeq := some second.common.seq
      events := ((v.recorded first).recorded second).events } := by
  have hnoted : (v.recorded first).noted second.payload =
      { (v.noted first.payload).noted second.payload with
        identity := ((v.recorded first).noted second.payload).identity
        lastSeq := ((v.recorded first).noted second.payload).lastSeq
        events := ((v.recorded first).noted second.payload).events } := by
    rw [recorded_eq first]
    cases second.payload <;> rfl
  rw [recorded_eq second, hnoted]

/-- The verdict on a payload event right after another one. -/
theorem verdict_recorded {first second : ProtocolEvent}
    (hfirst : first.payload.isContent = true) (hsecond : second.payload.isContent = true) :
    (v.recorded first).verdict host second = .ok () ↔
      (Routable second.common ∧ first.common.seq < second.common.seq ∧
        identityOf first.common = identityOf second.common) ∧
      v.checkState second.payload = .ok () ∧ Passes host v second.payload ∧
        Fits (v.noted first.payload) second.payload := by
  have hallowed : (v.recorded first).checkState second.payload = v.checkState second.payload := by
    rw [recorded_eq]
    exact checkState_noted hfirst
  have hpasses : Passes host (v.recorded first) second.payload ↔ Passes host v second.payload := by
    rw [recorded_eq]
    refine Iff.trans ?_ (passes_noted hfirst)
    cases second.payload <;> rfl
  have hfits : Fits (v.recorded first) second.payload ↔
      Fits (v.noted first.payload) second.payload := by
    rw [recorded_eq]
    cases second.payload <;> rfl
  rw [verdict_eq_ok hsecond, commonVerdict_eq_ok, hallowed, hpasses, hfits, recorded_eq]
  simp only [Option.mem_some_iff, forall_eq']

/-- **Two payload events without twins are accepted in either order, and the validators after them
differ in the order of the events only.** -/
theorem events_swap {seq : Nat} {a b : ProtocolEvent} (ha : a.payload.isContent = true)
    (hb : b.payload.isContent = true) (htwins : ¬ a.payload.Twins b.payload)
    (hfirst : v.verdict host (withSeq seq a) = .ok ())
    (hsecond : (v.recorded (withSeq seq a)).verdict host (withSeq (seq + 1) b) = .ok ()) :
    v.verdict host (withSeq seq b) = .ok () ∧
      (v.recorded (withSeq seq b)).verdict host (withSeq (seq + 1) a) = .ok () ∧
      Same ((v.recorded (withSeq seq a)).recorded (withSeq (seq + 1) b))
        ((v.recorded (withSeq seq b)).recorded (withSeq (seq + 1) a)) := by
  rw [verdict_eq_ok (show (withSeq seq a).payload.isContent = true from ha), commonVerdict_eq_ok] at hfirst
  rw [verdict_recorded (show (withSeq seq a).payload.isContent = true from ha)
    (show (withSeq (seq + 1) b).payload.isContent = true from hb)] at hsecond
  obtain ⟨⟨hroute, hseq, hidentity⟩, hallowed, hpasses, hfits⟩ := hfirst
  obtain ⟨⟨hroute', -, hsame⟩, hallowed', hpasses', hfits'⟩ := hsecond
  obtain ⟨hfitsb, hfitsa⟩ := fits_swap ha htwins hfits hfits'
  rw [verdict_eq_ok (show (withSeq seq b).payload.isContent = true from hb), commonVerdict_eq_ok,
    verdict_recorded (show (withSeq seq b).payload.isContent = true from hb)
      (show (withSeq (seq + 1) a).payload.isContent = true from ha)]
  refine ⟨⟨⟨hroute', hseq, fun identity hidentity' => ?_⟩, hallowed', hpasses', hfitsb⟩,
    ⟨⟨hroute, Nat.lt_succ_self seq, hsame.symm⟩, hallowed, hpasses, hfitsa⟩, ?_, ?_⟩
  · exact (hidentity identity hidentity').trans hsame
  · rw [recorded_recorded (withSeq seq a), recorded_recorded (withSeq seq b)]
    have hcomm := noted_comm ha htwins hfits'
    have hroutes : identityOf (withSeq (seq + 1) a).common =
        identityOf (withSeq (seq + 1) b).common := hsame
    have hpayload (event : ProtocolEvent) (seq : Nat) : (withSeq seq event).payload =
        event.payload := rfl
    rw [hroutes, hpayload, hpayload, hpayload, hpayload, hcomm]
    rfl
  · simp only [events_recorded, retains_recorded, List.map_append, List.append_assoc]
    refine List.Perm.append_left _ ?_
    have hretains : v.retains =
        (fun payload => v.retainGraphEvents || !payload.isGraphEvent) ∘ ProtocolEvent.payload := rfl
    rw [hretains]
    simp only [← List.filter_map, ← List.filter_append, List.map_cons, List.map_nil]
    exact (List.Perm.swap _ _ _).filter _

/-- The rest of a run does not depend on the order of the payload before it. -/
theorem runs_perm {payload payload' : List ProtocolEvent} (hperm : payload.Perm payload')
    (hcontent : ∀ event ∈ payload, event.payload.isContent = true)
    (htwins : ∀ a ∈ payload, ∀ b ∈ payload, ¬ a.payload.Twins b.payload) {seq : Nat}
    (hruns : Runs host v (renumbered seq payload) v') :
    ∃ w', Runs host v (renumbered seq payload') w' ∧ Same v' w' := by
  induction hperm generalizing v v' seq with
  | nil => exact ⟨v', hruns, .refl v'⟩
  | cons event hperm ih =>
    obtain ⟨hverdict, hrest⟩ := hruns
    obtain ⟨w', hw, hsame⟩ := ih (fun a ha => hcontent a (List.mem_cons_of_mem _ ha))
      (fun a ha b hb => htwins a (List.mem_cons_of_mem _ ha) b (List.mem_cons_of_mem _ hb)) hrest
    exact ⟨w', ⟨hverdict, hw⟩, hsame⟩
  | swap a b events =>
    obtain ⟨hfirst, hsecond, hrest⟩ := hruns
    have hb := List.mem_cons_self (a := b) (l := a :: events)
    have ha := List.mem_cons_of_mem b (List.mem_cons_self (a := a) (l := events))
    obtain ⟨hfirst', hsecond', hsame⟩ := events_swap (hcontent b hb) (hcontent a ha)
      (htwins b hb a ha) hfirst hsecond
    obtain ⟨w', hw, hsame'⟩ := hsame.runs hrest
    exact ⟨w', ⟨hfirst', hsecond', hw⟩, hsame'⟩
  | trans hperm _ ih ih' =>
    obtain ⟨w, hw, hsame⟩ := ih hcontent htwins hruns
    obtain ⟨w', hw', hsame'⟩ := ih' (fun a ha => hcontent a (hperm.mem_iff.2 ha))
      (fun a ha b hb => htwins a (hperm.mem_iff.2 ha) b (hperm.mem_iff.2 hb)) hw
    exact ⟨w', hw', hsame.trans hsame'⟩

/-! ### The first of several records is kept -/

/-- The record of a payload event is the one in the maps. -/
def Holds (v : ProtocolValidator) : EventPayload → Prop
  | .nodeUpsert node => v.nodes[node.id]? = some node
  | .edgeUpsert edge => v.edges[edge.id]? = some edge
  | .dependencySite site => v.sites[site.id]? = some site
  | .diagnostic diagnostic => v.diagnostics[diagnostic.id]? = some diagnostic
  | _ => True

/-- No record is known. -/
def Blank (v : ProtocolValidator) : Prop :=
  v.nodes = ∅ ∧ v.edges = ∅ ∧ v.sites = ∅ ∧ v.diagnostics = ∅

theorem holds_noted (h : v.Holds payload) : (v.noted payload').Holds payload := by
  have hkept {V : Type} {m : ExtTreeMap String V} {id id' : String} {a b : V}
      (h : m[id]? = some a) : (m.insertIfNew id' b)[id]? = some a := by
    rw [getElem?_insertIfNew, if_neg, h]
    rintro ⟨rfl, habsent⟩
    rw [h] at habsent
    cases habsent
  cases payload with
  | nodeUpsert node =>
    cases payload' with
    | nodeUpsert other => exact hkept h
    | _ => exact h
  | edgeUpsert edge =>
    cases payload' with
    | edgeUpsert other => exact hkept h
    | _ => exact h
  | dependencySite site =>
    cases payload' with
    | dependencySite other => exact hkept h
    | _ => exact h
  | diagnostic diagnostic =>
    cases payload' with
    | diagnostic other => exact hkept h
    | _ => exact h
  | _ => trivial

theorem holds_runs {events : List ProtocolEvent} (hruns : Runs host v events v')
    (h : v.Holds payload) : v'.Holds payload := by
  induction events generalizing v with
  | nil => exact hruns ▸ h
  | cons event events ih =>
    refine ih hruns.2 ?_
    rw [recorded_eq]
    have hnoted : (v.noted event.payload).Holds payload := holds_noted h
    cases payload <;> exact hnoted

theorem holds_of_blank (hblank : Blank v) (event : ProtocolEvent) :
    (v.recorded event).Holds event.payload := by
  have hnew {V : Type} {m : ExtTreeMap String V} (hm : m = ∅) (id : String) (a : V) :
      (m.insertIfNew id a)[id]? = some a := by
    rw [hm, getElem?_insertIfNew, if_pos ⟨rfl, ExtTreeMap.getElem?_empty⟩]
  obtain ⟨hnodes, hedges, hsites, hdiagnostics⟩ := hblank
  rw [recorded_eq]
  cases event.payload with
  | nodeUpsert node => exact hnew hnodes _ _
  | edgeUpsert edge => exact hnew hedges _ _
  | dependencySite site => exact hnew hsites _ _
  | diagnostic diagnostic => exact hnew hdiagnostics _ _
  | _ => trivial

theorem blank_runs {events : List ProtocolEvent} (hblank : Blank v)
    (hcontent : ∀ event ∈ events, event.payload.isContent = false)
    (hruns : Runs host v events v') : Blank v' := by
  induction events generalizing v with
  | nil => exact hruns ▸ hblank
  | cons event events ih =>
    refine ih ?_ (fun e he => hcontent e (List.mem_cons_of_mem _ he)) hruns.2
    have hhead := hcontent event List.mem_cons_self
    rw [recorded_eq]
    revert hhead
    cases event.payload with
    | scanStarted _ _ _ | profileDeclared _ | profileCompleted _ _ | scanCompleted _ =>
      intro _
      exact hblank
    | _ => rintro ⟨⟩

/-- Twins are not both kept. -/
theorem not_twins_of_holds (h : v.Holds payload) (h' : v.Holds payload') :
    ¬ payload.Twins payload' := by
  have hsame {V : Type} {m : ExtTreeMap String V} {id id' : String} {a b : V}
      (ha : m[id]? = some a) (hb : m[id']? = some b) (heq : id = id') : a = b := by
    rw [heq, hb] at ha
    exact (Option.some.inj ha).symm
  cases payload with
  | nodeUpsert node =>
    cases payload' with
    | nodeUpsert other => exact fun htwins => htwins.2.2 (hsame h h' htwins.1)
    | _ => exact id
  | edgeUpsert edge =>
    cases payload' with
    | edgeUpsert other => exact fun htwins => htwins.2.2 (hsame h h' htwins.1)
    | _ => exact id
  | dependencySite site =>
    cases payload' with
    | dependencySite other => exact fun htwins => htwins.2.2 (hsame h h' htwins.1)
    | _ => exact id
  | diagnostic diagnostic =>
    cases payload' with
    | diagnostic other => exact fun htwins => htwins.2.2 (hsame h h' htwins.1)
    | _ => exact id
  | _ => exact id

/-! ### Streams in another order -/

/-- A stream under consecutive sequence numbers: what is declared, the payload, what is completed. -/
def streamOf (seq : Nat) (declarations payload completions : List ProtocolEvent) :
    List ProtocolEvent :=
  renumbered seq (declarations ++ payload ++ completions)

/-- No two records of the payload are twins once their conditions are normalized. -/
def TwinFree (F : FloatText) (payload : List ProtocolEvent) : Prop :=
  ∀ a ∈ payload, ∀ b ∈ payload,
    ¬ (normalizePayload F a.payload).Twins (normalizePayload F b.payload)

/-- The final maps of two validators agree. -/
def SameMaps (v w : ProtocolValidator) : Prop :=
  v.profiles = w.profiles ∧ v.nodes = w.nodes ∧ v.edges = w.edges ∧ v.sites = w.sites ∧
    v.diagnostics = w.diagnostics ∧ v.profileCoverage = w.profileCoverage

/-- The order of the payload decides neither whether the stream is accepted nor its final maps. -/
def OrderFree (host : Host) (v₀ : ProtocolValidator) (seq : Nat)
    (declarations payload completions : List ProtocolEvent) : Prop :=
  ∀ payload', payload.Perm payload' →
    ((accepted host v₀ (streamOf seq declarations payload completions)).isSome ↔
      (accepted host v₀ (streamOf seq declarations payload' completions)).isSome) ∧
    ∀ v v', accepted host v₀ (streamOf seq declarations payload completions) = some v →
      accepted host v₀ (streamOf seq declarations payload' completions) = some v' → SameMaps v v'

variable {v₀ : ProtocolValidator} {seq : Nat}
  {declarations payload payload' completions : List ProtocolEvent}

theorem map_renumbered (F : FloatText) (seq : Nat) (events : List ProtocolEvent) :
    (renumbered seq events).map (normalizeConditions F) =
      renumbered seq (events.map (normalizeConditions F)) := by
  induction events generalizing seq with
  | nil => rfl
  | cons event events ih =>
    rw [renumbered, List.map_cons, ih]
    rfl

/-- A stream is accepted if its three parts are. -/
theorem accepted_streamOf : accepted host v₀ (streamOf seq declarations payload completions) = some v ↔
    ∃ declared sent,
      Runs host v₀ (renumbered seq (declarations.map (normalizeConditions host.ids.floatText)))
        declared ∧
      Runs host declared (renumbered (seq + declarations.length)
        (payload.map (normalizeConditions host.ids.floatText))) sent ∧
      Runs host sent (renumbered (seq + (declarations.length + payload.length))
        (completions.map (normalizeConditions host.ids.floatText))) v ∧
      v.state = .completed := by
  rw [accepted_eq_some, streamOf, map_renumbered, List.map_append, List.map_append,
    renumbered_append, renumbered_append, runs_append]
  simp only [runs_append, List.length_append, List.length_map]
  constructor
  · rintro ⟨⟨sent, ⟨declared, hdeclared, hsent⟩, hrest⟩, hstate⟩
    exact ⟨declared, sent, hdeclared, hsent, hrest, hstate⟩
  · rintro ⟨declared, sent, hdeclared, hsent, hrest, hstate⟩
    exact ⟨⟨sent, ⟨declared, hdeclared, hsent⟩, hrest⟩, hstate⟩

theorem Same.sameMaps (h : Same v w) : SameMaps v w := by
  unfold SameMaps
  rw [h.fields]
  exact ⟨rfl, rfl, rfl, rfl, rfl, rfl⟩

theorem SameMaps.holds (h : SameMaps v w) {record : EventPayload} (hholds : w.Holds record) :
    v.Holds record := by
  obtain ⟨-, hnodes, hedges, hsites, hdiagnostics, -⟩ := h
  cases record with
  | nodeUpsert node => exact (congrArg (fun nodes => nodes[node.id]?) hnodes).trans hholds
  | edgeUpsert edge => exact (congrArg (fun edges => edges[edge.id]?) hedges).trans hholds
  | dependencySite site => exact (congrArg (fun sites => sites[site.id]?) hsites).trans hholds
  | diagnostic diagnostic =>
    exact (congrArg (fun diagnostics => diagnostics[diagnostic.id]?) hdiagnostics).trans hholds
  | _ => trivial

theorem mem_renumbered {event : ProtocolEvent} {events : List ProtocolEvent}
    (h : event ∈ renumbered seq events) : ∃ e ∈ events, event.payload = e.payload := by
  induction events generalizing seq with
  | nil => cases h
  | cons e events ih =>
    rcases List.mem_cons.1 h with rfl | hrest
    · exact ⟨e, List.mem_cons_self, rfl⟩
    · obtain ⟨e', he', heq⟩ := ih hrest
      exact ⟨e', List.mem_cons_of_mem e he', heq⟩

theorem isContent_normalizePayload (F : FloatText) (payload : EventPayload) :
    (normalizePayload F payload).isContent = payload.isContent := by
  cases payload <;> rfl

theorem accepted_perm (hcontent : ∀ event ∈ payload, event.payload.isContent = true)
    (htwins : TwinFree host.ids.floatText payload) (hperm : payload.Perm payload')
    (haccepted : accepted host v₀ (streamOf seq declarations payload completions) = some v) :
    ∃ v', accepted host v₀ (streamOf seq declarations payload' completions) = some v' ∧
      Same v v' := by
  obtain ⟨declared, sent, hdeclared, hsent, hrest, hstate⟩ := accepted_streamOf.1 haccepted
  have hkinds : ∀ event ∈ payload.map (normalizeConditions host.ids.floatText),
      event.payload.isContent = true := by
    intro event hevent
    obtain ⟨e, he, rfl⟩ := List.mem_map.1 hevent
    exact (isContent_normalizePayload _ _).trans (hcontent e he)
  have hfree : ∀ a ∈ payload.map (normalizeConditions host.ids.floatText),
      ∀ b ∈ payload.map (normalizeConditions host.ids.floatText),
        ¬ a.payload.Twins b.payload := by
    intro a ha b hb
    obtain ⟨a', ha', rfl⟩ := List.mem_map.1 ha
    obtain ⟨b', hb', rfl⟩ := List.mem_map.1 hb
    exact htwins a' ha' b' hb'
  obtain ⟨sent', hsent', hsame⟩ := runs_perm (hperm.map (normalizeConditions host.ids.floatText))
    hkinds hfree hsent
  obtain ⟨v', hrest', hsame'⟩ := hsame.runs hrest
  rw [hperm.length_eq] at hrest'
  refine ⟨v', accepted_streamOf.2 ⟨declared, sent', hdeclared, hsent', hrest', ?_⟩, hsame'⟩
  rw [hsame'.fields]
  exact hstate

theorem orderFree_of_twinFree (hcontent : ∀ event ∈ payload, event.payload.isContent = true)
    (htwins : TwinFree host.ids.floatText payload) :
    OrderFree host v₀ seq declarations payload completions := by
  intro payload' hperm
  have hcontent' : ∀ event ∈ payload', event.payload.isContent = true :=
    fun event hevent => hcontent event (hperm.mem_iff.2 hevent)
  have htwins' : TwinFree host.ids.floatText payload' :=
    fun a ha b hb => htwins a (hperm.mem_iff.2 ha) b (hperm.mem_iff.2 hb)
  refine ⟨⟨fun h => ?_, fun h => ?_⟩, fun v v' hv hv' => ?_⟩
  · obtain ⟨v, hv⟩ := Option.isSome_iff_exists.1 h
    obtain ⟨v', hv', -⟩ := accepted_perm hcontent htwins hperm hv
    exact Option.isSome_iff_exists.2 ⟨v', hv'⟩
  · obtain ⟨v', hv'⟩ := Option.isSome_iff_exists.1 h
    obtain ⟨v, hv, -⟩ := accepted_perm hcontent' htwins' hperm.symm hv'
    exact Option.isSome_iff_exists.2 ⟨v, hv⟩
  · obtain ⟨w, hw, hsame⟩ := accepted_perm hcontent htwins hperm hv
    obtain rfl := Option.some.inj (hv'.symm.trans hw)
    exact hsame.sameMaps

/-- A record that is sent first is in the final maps of every order. -/
theorem holds_of_orderFree (hblank : Blank v₀)
    (hdeclarations : ∀ event ∈ declarations, event.payload.isContent = false)
    (haccepted : accepted host v₀ (streamOf seq declarations payload completions) = some v)
    (hfree : OrderFree host v₀ seq declarations payload completions) {a : ProtocolEvent}
    (ha : a ∈ payload) : v.Holds (normalizePayload host.ids.floatText a.payload) := by
  obtain ⟨before, after, rfl⟩ := List.append_of_mem ha
  obtain ⟨hsome, hmaps⟩ := hfree (a :: (before ++ after)) List.perm_middle
  obtain ⟨v', hv'⟩ := Option.isSome_iff_exists.1
    (hsome.1 (Option.isSome_iff_exists.2 ⟨v, haccepted⟩))
  obtain ⟨declared, sent, hdeclared, hsent, hrest, -⟩ := accepted_streamOf.1 hv'
  have hkinds : ∀ event ∈ renumbered seq
      (declarations.map (normalizeConditions host.ids.floatText)), event.payload.isContent = false := by
    intro event hevent
    obtain ⟨_, hnormalized, heq⟩ := mem_renumbered hevent
    obtain ⟨declaration, hdeclaration, rfl⟩ := List.mem_map.1 hnormalized
    rw [heq]
    exact (isContent_normalizePayload _ _).trans (hdeclarations declaration hdeclaration)
  have hfirst := holds_of_blank (blank_runs hblank hkinds hdeclared)
    (withSeq (seq + declarations.length) (normalizeConditions host.ids.floatText a))
  exact (hmaps v v' haccepted hv').holds (holds_runs hrest (holds_runs hsent.2 hfirst))

theorem twinFree_of_orderFree {host : Host} (hblank : Blank v₀)
    (hdeclarations : ∀ event ∈ declarations, event.payload.isContent = false)
    {v : ProtocolValidator}
    (hv : accepted host v₀ (streamOf seq declarations payload completions) = some v)
    (hfree : OrderFree host v₀ seq declarations payload completions) :
    TwinFree host.ids.floatText payload := fun _ ha _ hb =>
  not_twins_of_holds (holds_of_orderFree hblank hdeclarations hv hfree ha)
    (holds_of_orderFree hblank hdeclarations hv hfree hb)

/-- **The order of the payload does not matter exactly where there are no twins**, or where the stream
is accepted in no order. -/
theorem payload_order (host : Host) {policy : ValidationPolicy} {v₀ : ProtocolValidator}
    (hstart : v₀ = withPolicy policy ∨ v₀ = (withPolicy policy).withoutGraphEventRetention)
    (seq : Nat) {declarations payload : List ProtocolEvent} (completions : List ProtocolEvent)
    (hdeclarations : ∀ event ∈ declarations, event.payload.isContent = false)
    (hcontent : ∀ event ∈ payload, event.payload.isContent = true) :
    OrderFree host v₀ seq declarations payload completions ↔
      TwinFree host.ids.floatText payload ∨ ∀ payload', payload.Perm payload' →
        accepted host v₀ (streamOf seq declarations payload' completions) = none := by
  constructor
  · refine fun hfree => or_iff_not_imp_left.2 fun htwins payload' hperm => ?_
    refine Option.eq_none_iff_forall_ne_some.2 fun v' hv' => htwins ?_
    have hblank : Blank v₀ := by
      rcases hstart with rfl | rfl <;> exact ⟨rfl, rfl, rfl, rfl⟩
    have hsome : (accepted host v₀ (streamOf seq declarations payload completions)).isSome :=
      (hfree payload' hperm).1.2 (by rw [hv']; rfl)
    obtain ⟨v, hv⟩ := Option.isSome_iff_exists.1 hsome
    exact twinFree_of_orderFree hblank hdeclarations hv hfree
  · rintro (htwins | hnone) payload' hperm
    · exact orderFree_of_twinFree hcontent htwins payload' hperm
    · rw [hnone payload (.refl _), hnone payload' hperm]
      exact ⟨Iff.rfl, fun v v' hv => by cases hv⟩

end ProtocolValidator

/-! ### A stream with twins -/

namespace ProtocolValidator

namespace TwinSample

/-- SHA-256 on the three texts that are hashed here, told apart by their lengths: the site under `0.0`
and under `-0.0`, and the edge. -/
def stableIds : StableIds where
  floatText := .plain
  sha256 text :=
    if text.length = 381 then ⟨[134, 55, 162, 222, 108, 138, 102, 39, 160, 79, 182, 4, 28, 192, 159, 180, 50, 198, 241, 188,
    39, 122, 20, 180, 162, 20, 44, 228, 237, 209, 123, 120], rfl⟩
    else if text.length = 382 then ⟨[26, 186, 25, 255, 239, 23, 23, 118, 240, 124, 224, 215, 139, 53, 174, 45, 3, 16, 208, 93,
    85, 165, 57, 137, 218, 189, 76, 105, 124, 154, 182, 157], rfl⟩
    else ⟨[254, 13, 162, 125, 47, 144, 100, 158, 205, 1, 154, 112, 205, 31, 124, 120, 137, 176, 210, 204,
    41, 234, 4, 110, 77, 206, 2, 86, 144, 61, 171, 47], rfl⟩

/-- A host on which no path can be resolved. -/
def host : Host where
  ids := stableIds
  fromStr _ := none
  malformed _ _ := ""
  canonicalize _ := none
  overflowChecks := true

def digest : String := String.ofList (List.replicate 64 '0')

def properties : Properties :=
  let entries : List (String × Value) :=
    [("build_run_id", .string "run"), ("profile_id", .string "p"),
      ("command_plan_digest", .string digest), ("toolchain_executable_digest", .string digest),
      ("environment_key_set_digest", .string digest), ("validated_output_digest", .string digest)]
  .ofList entries

def evidence : Evidence :=
  ⟨.build, "probe", "1", some "a", some 1, some 1, some 1, some 1, none, properties⟩

def siteId : String :=
  "site:sha256:8637a2de6c8a6627a04fb6041cc09fb432c6f1bc277a14b4a2142ce4edd17b78"

/-- The site under a condition that compares with a zero. -/
def site (zero : F64) : DependencySite where
  id := siteId
  source := "a"
  kind := "build"
  specifier := "b"
  resolutionStatus := .resolved
  targetIds := ["b"]
  profileId := "p"
  condition := .eq "key" (.number (.float zero))
  precision := .observed
  reason := none
  evidence := [evidence]

def edge : GraphEdge where
  id := "edge:sha256:fe0da27d2f90649ecd019a70cd1f7c7889b0d2cc29ea046e4dce0256903dab2f"
  source := "a"
  target := "b"
  kind := "build"
  siteId := some siteId
  phase := .build
  environment := none
  profileId := "p"
  condition := .all []
  resolutionStatus := .resolved
  precision := .observed
  generated := false
  evidence := [evidence]

def coverage : Coverage := ⟨1, 0, 0, 0, 1, 1, 0, 0, 0, 0, false, [], []⟩

def event (payload : EventPayload) : ProtocolEvent :=
  ⟨⟨protocolVersion, "scan", "worker", "1", 0⟩, payload⟩

def declarations : List ProtocolEvent :=
  [event (.scanStarted "/repo" false true),
    event (.profileDeclared ⟨"p", "build", none, none, none, [], ∅, none, ∅⟩)]

/-- The payload with the two records of the site in one order or the other. -/
def payload (first second : F64) : List ProtocolEvent :=
  [event (.dependencySite (site first)), event (.dependencySite (site second)),
    event (.nodeUpsert ⟨"a", "file", "a.txt", none, ∅⟩),
    event (.nodeUpsert ⟨"b", "file", "b.txt", none, ∅⟩), event (.edgeUpsert edge)]

def completions : List ProtocolEvent :=
  [event (.profileCompleted "p" coverage), event (.scanCompleted coverage)]

end TwinSample

open TwinSample in
theorem isSome_accepted_zero :
    (accepted host (withPolicy .safeScan)
      (streamOf 1 declarations (payload .zero .negZero) completions)).isSome = true := by
  decide +kernel

open TwinSample in
/-- The record with `0.0` must come first: the identity of the site is computed from the record that is
kept. -/
theorem accepted_zero_first :
    (payload .zero .negZero).Perm (payload .negZero .zero) ∧
      (accepted host (withPolicy .safeScan)
        (streamOf 1 declarations (payload .zero .negZero) completions)).isSome = true ∧
      (accepted host (withPolicy .safeScan)
        (streamOf 1 declarations (payload .negZero .zero) completions)).isSome = false := by
  refine ⟨List.Perm.swap _ _ _, isSome_accepted_zero, ?_⟩
  decide +kernel

open TwinSample in
theorem payload_order_zero :
    ¬ OrderFree host (withPolicy .safeScan) 1 declarations (payload .zero .negZero) completions := by
  intro hfree
  have hdeclared : ∀ event ∈ declarations, event.payload.isContent = false := by decide +kernel
  have hcontent : ∀ event ∈ payload .zero .negZero, event.payload.isContent = true := by
    decide +kernel
  obtain htwinFree | hnone :=
    (payload_order host (.inl rfl) 1 completions hdeclared hcontent).1 hfree
  swap
  · have hsome := isSome_accepted_zero
    rw [hnone _ (.refl _)] at hsome
    cases hsome
  have htwins := htwinFree
    (event (.dependencySite (site .zero))) List.mem_cons_self
    (event (.dependencySite (site .negZero))) (List.mem_cons_of_mem _ List.mem_cons_self)
  refine htwins ⟨rfl, by decide +kernel, fun hsame => ?_⟩
  have hcondition : (Condition.eq "key" (.number (.float .zero))) =
      .eq "key" (.number (.float .negZero)) := congrArg DependencySite.condition hsame
  cases hcondition

end ProtocolValidator

end Protocol
