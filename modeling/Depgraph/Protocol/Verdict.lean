import Depgraph.Protocol.Validator

/-!
# Verdicts of the stream validator

What `ProtocolValidator::push` decides, what an accepted event records and what a rejected one leaves
behind, as functions of the validator and the event. `outcome_push` says that these three are what the
method does.
-/

namespace Protocol

open Json Fallible Panics Mutable OrderedMap Std

namespace ProtocolValidator

section Verdict

variable (host : Host) (v : ProtocolValidator)

/-- `validate_common` decides. -/
def commonVerdict (common : CommonFields) : Except ProtocolError Unit := do
  v.checkCommon common
  match v.identity with
  | some identity => checkIdentity identity common
  | none => .ok ()

/-- A record that is already known agrees with its first occurrence. -/
def agrees {V : Type} (beq : V → V → Bool) (collection : ExtTreeMap String V) (id : String) (value : V)
    (entity : String) : Except ProtocolError Unit := do
  let _ ← insertUpsert beq collection id value entity
  return ()

/-- What the kind of an event decides. -/
def payloadVerdict : EventPayload → Except (Failure ProtocolError) Unit
  | .scanStarted root projectCodeExecuted safeMode =>
    orReject (v.checkStart root projectCodeExecuted safeMode)
  | .profileDeclared profile => do
    orReject (v.checkProfile profile)
    orReject (agrees Profile.beq v.profiles profile.id profile "profile")
  | .nodeUpsert node => do
    orReject (validateNode host.ids node)
    orReject (agrees GraphNode.beq v.nodes node.id node "node")
  | .edgeUpsert edge => do
    v.checkEdge host edge
    orReject (agrees GraphEdge.beq v.edges edge.id edge "edge")
  | .dependencySite site => do
    v.checkSite host site
    orReject (agrees DependencySite.beq v.sites site.id site "dependency_site")
  | .diagnostic diagnostic => do
    v.checkDiagnostic host diagnostic
    orReject (agrees Diagnostic.beq v.diagnostics diagnostic.id diagnostic "diagnostic")
  | .fileCompleted path discoveredSites emittedSites skippedSites skipped reason =>
    v.checkFile host ⟨path, discoveredSites, emittedSites, skippedSites, skipped, reason⟩
  | .profileCompleted profileId coverage => do
    orReject (v.requireDeclaredProfile profileId "profile_completed")
    orReject (check (profileId ∉ v.completedProfiles) (.duplicateProfileCompletion profileId))
    v.checkCompletion host profileId coverage
  | .scanCompleted coverage => v.checkScanCompleted host coverage

/-- What `push` decides on an event whose conditions are normalized. -/
def verdict (event : ProtocolEvent) : Except (Failure ProtocolError) Unit := do
  orReject (v.commonVerdict event.common)
  orReject (v.checkState event.payload)
  v.payloadVerdict host event.payload

end Verdict

/-! ### What events record -/

section Recorded

variable (v : ProtocolValidator)

/-- The routing fields of an event. -/
def routed (common : CommonFields) : ProtocolValidator :=
  { v with
    identity := some ⟨common.scanId, common.adapter, common.adapterVersion⟩
    lastSeq := some common.seq }

/-- What an accepted event writes, by its kind. The first of several records with one identifier is
the one that is kept. -/
def noted : EventPayload → ProtocolValidator
  | .scanStarted root projectCodeExecuted safeMode =>
    { v with root := some root, safeMode, projectCodeExecuted, state := .scanning }
  | .profileDeclared profile => { v with profiles := v.profiles.insertIfNew profile.id profile }
  | .nodeUpsert node => { v with nodes := v.nodes.insertIfNew node.id node }
  | .edgeUpsert edge => { v with edges := v.edges.insertIfNew edge.id edge }
  | .dependencySite site => { v with sites := v.sites.insertIfNew site.id site }
  | .diagnostic diagnostic =>
    { v with diagnostics := v.diagnostics.insertIfNew diagnostic.id diagnostic }
  | .fileCompleted .. => v
  | .profileCompleted profileId coverage =>
    { v with
      completedProfiles := v.completedProfiles.insert profileId
      profileCoverage := v.profileCoverage.insert profileId coverage
      payloadClosed := true }
  | .scanCompleted _ => { v with state := .completed }

/-- The validator after an accepted event. -/
def recorded (event : ProtocolEvent) : ProtocolValidator :=
  retain event ((v.routed event.common).noted event.payload)

/-- What the kind of a rejected event leaves behind: a declared profile counts as completed before its
coverage is looked at. -/
def marked : EventPayload → ProtocolValidator
  | .profileCompleted profileId _ =>
    if profileId ∈ v.profiles then
      { v with completedProfiles := v.completedProfiles.insert profileId }
    else v
  | _ => v

/-- What a rejected event leaves behind. -/
def afterRejected (event : ProtocolEvent) : ProtocolValidator :=
  match v.commonVerdict event.common with
  | .error _ => v
  | .ok () =>
    match v.checkState event.payload with
    | .error _ => v.routed event.common
    | .ok () => (v.routed event.common).marked event.payload

end Recorded

/-! ### What the method does -/

variable {v : ProtocolValidator}

theorem identity_of_checkIdentity {identity : StreamIdentity} {common : CommonFields}
    (h : checkIdentity identity common = .ok ()) :
    identity = ⟨common.scanId, common.adapter, common.adapterVersion⟩ := by
  simp only [checkIdentity, bind_eq_ok, check_eq_ok] at h
  obtain ⟨-, hscan, -, hadapter, hversion⟩ := h
  cases identity
  simp_all

/-- A method that writes `written` when `x` succeeds, and leaves `left` when it fails. -/
def Decides (m : Method Unit) (v : ProtocolValidator) (x : Except (Failure ProtocolError) Unit)
    (written left : ProtocolValidator) : Prop :=
  outcome m v = match x with
    | .ok () => (.ok (), written)
    | .error failure => (.error failure, left)

theorem decides_validateCommon (common : CommonFields) :
    Decides (validateCommon common) v (orReject (v.commonVerdict common)) (v.routed common) v := by
  unfold Decides validateCommon commonVerdict
  rw [outcome_bind_get]
  cases v.checkCommon common with
  | error error => rfl
  | ok u =>
    rw [orReject_ok, outcome_bind_attempt_ok, ok_bind]
    cases hidentity : v.identity with
    | none => rfl
    | some identity =>
      dsimp only
      cases hsame : checkIdentity identity common with
      | error error => rfl
      | ok u =>
        have hroute : v.identity = some ⟨common.scanId, common.adapter, common.adapterVersion⟩ :=
          hidentity.trans (congrArg some (identity_of_checkIdentity hsame))
        rw [orReject_ok, outcome_bind_attempt_ok, routed, ← hroute]
        rfl

/-- An upsert: the checks, the look at the record that is known, the record. -/
theorem decides_upsert {V : Type} {checks : Except (Failure ProtocolError) Unit} {beq : V → V → Bool}
    {collection : ExtTreeMap String V} {id : String} {value : V} {entity : String}
    (write : ExtTreeMap String V → ProtocolValidator → ProtocolValidator) :
    Decides (do
        attempt checks
        let collection ← attempt (orReject (insertUpsert beq collection id value entity))
        modify (write collection)) v
      (do checks; orReject (agrees beq collection id value entity))
      (write (collection.insertIfNew id value) v) v := by
  unfold Decides agrees insertUpsert
  cases checks with
  | error failure => rfl
  | ok u =>
    rw [outcome_bind_attempt_ok, ok_bind]
    cases hknown : collection[id]? with
    | none =>
      rw [insertIfNew_of_none hknown]
      rfl
    | some existing =>
      rw [insertIfNew_of_some hknown]
      dsimp only
      split_ifs <;> rfl

theorem decides_look {checks : Except (Failure ProtocolError) Unit}
    (write : ProtocolValidator → ProtocolValidator) :
    Decides (do attempt checks; modify write) v checks (write v) v := by
  cases checks <;> rfl

theorem decides_attempt {checks : Except (Failure ProtocolError) Unit} :
    Decides (attempt checks) v checks v v := by
  cases checks <;> rfl

theorem decides_apply (host : Host) (payload : EventPayload) :
    Decides (apply host payload) v (v.payloadVerdict host payload) (v.noted payload)
      (v.marked payload) := by
  cases payload with
  | scanStarted root projectCodeExecuted safeMode => exact decides_look _
  | profileDeclared profile => exact decides_upsert fun profiles v => { v with profiles }
  | nodeUpsert node => exact decides_upsert fun nodes v => { v with nodes }
  | edgeUpsert edge => exact decides_upsert fun edges v => { v with edges }
  | dependencySite site => exact decides_upsert fun sites v => { v with sites }
  | diagnostic diagnostic => exact decides_upsert fun diagnostics v => { v with diagnostics }
  | fileCompleted path discoveredSites emittedSites skippedSites skipped reason =>
    exact decides_attempt
  | scanCompleted coverage => exact decides_look _
  | profileCompleted profileId coverage =>
    unfold Decides apply payloadVerdict noted marked requireDeclaredProfile
    dsimp only
    rw [outcome_bind_get]
    by_cases hdeclared : profileId ∈ v.profiles
    · rw [check_of hdeclared, if_pos hdeclared, orReject_ok, outcome_bind_attempt_ok,
        outcome_bind_modify, ok_bind]
      by_cases hopen : profileId ∉ v.completedProfiles
      · rw [check_of hopen, orReject_ok, outcome_bind_attempt_ok, ok_bind]
        cases v.checkCompletion host profileId coverage <;> rfl
      · rw [check_of_not hopen]
        rfl
    · rw [check_of_not hdeclared, if_neg hdeclared]
      rfl

/-- **`push` decides by the verdict, records an accepted event, and leaves `afterRejected` of a rejected
one.** -/
theorem outcome_push (host : Host) (v : ProtocolValidator) (event : ProtocolEvent) :
    outcome (push host event) v =
      match v.verdict host (normalizeConditions host.ids.floatText event) with
      | .ok () => (.ok (), v.recorded (normalizeConditions host.ids.floatText event))
      | .error failure =>
        (.error failure, v.afterRejected (normalizeConditions host.ids.floatText event)) := by
  unfold push verdict recorded afterRejected
  generalize normalizeConditions host.ids.floatText event = event
  have hcommon := decides_validateCommon (v := v) event.common
  unfold Decides at hcommon
  dsimp only
  rw [outcome_bind, hcommon]
  cases v.commonVerdict event.common with
  | error error => rfl
  | ok u =>
    have happly := decides_apply (v := v.routed event.common) host event.payload
    have hverdict : (v.routed event.common).payloadVerdict host event.payload =
        v.payloadVerdict host event.payload := by
      cases event.payload <;> rfl
    unfold Decides at happly
    rw [hverdict] at happly
    have hallowed : (v.routed event.common).checkState event.payload = v.checkState event.payload := rfl
    rw [orReject_ok, ok_bind]
    dsimp only
    rw [outcome_bind_get, hallowed]
    cases v.checkState event.payload with
    | error error => rfl
    | ok u =>
      rw [orReject_ok, outcome_bind_attempt_ok, ok_bind, outcome_bind, happly]
      cases v.payloadVerdict host event.payload <;> rfl

/-! ### The validated events -/

/-- An event that is kept among the validated events. -/
def retains (v : ProtocolValidator) (event : ProtocolEvent) : Bool :=
  v.retainGraphEvents || !event.payload.isGraphEvent

theorem events_retain (event : ProtocolEvent) (v : ProtocolValidator) :
    (retain event v).events = v.events ++ [event].filter v.retains := by
  have hretains : v.retains event = true ↔
      v.retainGraphEvents = true ∨ event.payload.isGraphEvent = false := by
    simp [retains]
  unfold retain
  split_ifs with h
  · rw [List.filter_singleton, hretains.2 h]
    rfl
  · rw [List.filter_singleton, Bool.eq_false_iff.2 (mt hretains.1 h)]
    exact (List.append_nil _).symm

theorem events_recorded (event : ProtocolEvent) :
    (v.recorded event).events = v.events ++ [event].filter v.retains := by
  have hnoted : ((v.routed event.common).noted event.payload).events = v.events ∧
      ((v.routed event.common).noted event.payload).retains = v.retains := by
    cases event.payload <;> exact ⟨rfl, rfl⟩
  rw [recorded, events_retain, hnoted.1, hnoted.2]

theorem retains_recorded (event : ProtocolEvent) : (v.recorded event).retains = v.retains := by
  have hretain (w : ProtocolValidator) : (retain event w).retains = w.retains := by
    unfold retain
    split_ifs <;> rfl
  rw [recorded, hretain]
  cases event.payload <;> rfl

end ProtocolValidator

end Protocol
