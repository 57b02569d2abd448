import Depgraph.Protocol.DeltaFrame
import Depgraph.Protocol.DeltaPush
import Depgraph.Protocol.Verdict

/-!
# What rejected events leave behind

A validator that goes on after an error. What a rejected event can leave are the fields that later
events are ordered and identified by; the maps, the coverage, the state of the stream and the validated
events are those that the accepted events alone build.
-/

namespace Protocol

open Fallible Panics Mutable OrderedMap Std

namespace ProtocolValidator

variable {host : Host} {v v' : ProtocolValidator}

/-- The validator without the fields that a rejected event can change. -/
def unrouted (v : ProtocolValidator) : ProtocolValidator :=
  { v with identity := none, lastSeq := none, completedProfiles := ∅ }

theorem unrouted_afterRejected (event : ProtocolEvent) :
    (v.afterRejected event).unrouted = v.unrouted := by
  have hmarked (payload : EventPayload) (w : ProtocolValidator) :
      (w.marked payload).unrouted = w.unrouted := by
    unfold marked
    split
    · split_ifs <;> rfl
    · rfl
  unfold afterRejected
  split
  · rfl
  · split
    · rfl
    · exact hmarked _ _

theorem unrouted_retain (event : ProtocolEvent) (v : ProtocolValidator) :
    (retain event v).unrouted = retain event v.unrouted :=
  apply_ite unrouted _ _ _

/-- What an event records does not depend on those fields. -/
theorem unrouted_recorded (event : ProtocolEvent) :
    (v.unrouted.recorded event).unrouted = (v.recorded event).unrouted := by
  have hnoted : ((v.unrouted.routed event.common).noted event.payload).unrouted =
      ((v.routed event.common).noted event.payload).unrouted := by
    cases event.payload <;> rfl
  rw [recorded, unrouted_retain, hnoted, ← unrouted_retain, recorded]

/-- The validator that one accepted event makes of the fields that failures do not touch. -/
def built (host : Host) (v : ProtocolValidator) (event : ProtocolEvent) : ProtocolValidator :=
  (v.recorded (normalizeConditions host.ids.floatText event)).unrouted

theorem push_ok {event : ProtocolEvent} (h : outcome (push host event) v = (.ok (), v')) :
    v' = v.recorded (normalizeConditions host.ids.floatText event) := by
  rw [outcome_push] at h
  cases hverdict : v.verdict host (normalizeConditions host.ids.floatText event) with
  | ok u =>
    rw [hverdict] at h
    exact (Prod.mk.inj h).2.symm
  | error failure =>
    rw [hverdict] at h
    cases (Prod.mk.inj h).1

theorem push_error {event : ProtocolEvent} {failure : Failure ProtocolError}
    (h : outcome (push host event) v = (.error failure, v')) :
    v' = v.afterRejected (normalizeConditions host.ids.floatText event) := by
  rw [outcome_push] at h
  cases hverdict : v.verdict host (normalizeConditions host.ids.floatText event) with
  | ok u =>
    rw [hverdict] at h
    cases (Prod.mk.inj h).1
  | error failure =>
    rw [hverdict] at h
    exact (Prod.mk.inj h).2.symm

/-- The fields that failures do not touch are built by the accepted events alone. -/
theorem unrouted_afterAll (host : Host) (v : ProtocolValidator) (events : List ProtocolEvent) :
    (afterAll (push host) v events).unrouted =
      (succeeded (push host) v events).foldl (built host) v.unrouted := by
  refine view_afterAll (push host) unrouted ?_ ?_ v events
  · intro v event v' h
    rw [push_ok h, built, unrouted_recorded]
  · intro v event failure v' h
    rw [push_error h, unrouted_afterRejected]

/-- The validated events and which events are kept, after one more accepted event. -/
def kept (host : Host) (view : List ProtocolEvent × (ProtocolEvent → Bool)) (event : ProtocolEvent) :
    List ProtocolEvent × (ProtocolEvent → Bool) :=
  (view.1 ++ [normalizeConditions host.ids.floatText event].filter view.2, view.2)

theorem foldl_kept (host : Host) (retains : ProtocolEvent → Bool)
    (accepted events : List ProtocolEvent) :
    accepted.foldl (kept host) (events, retains) =
      (events ++ (accepted.map (normalizeConditions host.ids.floatText)).filter retains, retains) := by
  induction accepted generalizing events with
  | nil => exact Prod.ext (List.append_nil events).symm rfl
  | cons event accepted ih =>
    rw [List.foldl_cons, kept, ih, List.append_assoc, ← List.filter_append]
    rfl

/-- The validated events are the accepted ones, in their order. -/
theorem events_afterAll (host : Host) (v : ProtocolValidator) (events : List ProtocolEvent) :
    (afterAll (push host) v events).events = v.events ++
      ((succeeded (push host) v events).map (normalizeConditions host.ids.floatText)).filter
        v.retains := by
  have hview := view_afterAll (push host) (fun v => (v.events, v.retains)) (g := kept host) ?_ ?_
    v events
  · rw [foldl_kept] at hview
    exact congrArg Prod.fst hview
  · intro v event v' h
    rw [push_ok h, events_recorded, retains_recorded, kept]
  · intro v event failure v' h
    rw [push_error h]
    exact congrArg (fun v => (v.events, v.retains)) (unrouted_afterRejected (v := v) _)

end ProtocolValidator

namespace DeltaValidator

variable {S : StableIds} {v v' : DeltaValidator}

/-- The validator without the fields that a rejected event can change. -/
def unrouted (v : DeltaValidator) : DeltaValidator :=
  { v with identity := none, lastSeq := none, lastMutationKey := none, mutationIdentities := ∅ }

theorem unrouted_validateCommon {common : CommonFields} (h : v.validateCommon common = .ok v') :
    v'.unrouted = v.unrouted := by
  simp only [validateCommon_eq, bind_eq_ok] at h
  obtain ⟨-, -, -, -, hv⟩ := h
  rw [← Except.ok.inj hv]
  rfl

theorem unrouted_validateMutationOrder {m : DeltaMutation}
    (h : v.validateMutationOrder m = .ok v') : v'.unrouted = v.unrouted := by
  simp only [validateMutationOrder, bind_eq_ok] at h
  obtain ⟨-, -, -, -, hv⟩ := h
  rw [← Except.ok.inj hv]
  rfl

theorem unrouted_afterRejected (event : DeltaEvent) :
    (v.afterRejected event).unrouted = v.unrouted := by
  have hdispatch (w : DeltaValidator) : (w.afterDispatch event).unrouted = w.unrouted := by
    unfold afterDispatch
    split
    · split
      · rfl
      · exact unrouted_validateMutationOrder ‹_›
    · rfl
  unfold afterRejected
  split
  · rfl
  · rw [hdispatch]
    exact unrouted_validateCommon ‹_›

/-- What an event does does not depend on those fields. -/
theorem dispatch_unrouted {event : DeltaEvent} (h : v.dispatch S event = .ok v') :
    ∃ u, v.unrouted.dispatch S event = .ok u ∧ u.unrouted = v'.unrouted := by
  have hstart (started : DeltaStarted) :
      v.unrouted.start started = unrouted <$> v.start started := by
    simp only [start, map_bind, map_pure]
    rfl
  have hcomplete (started : DeltaStarted) (completed : DeltaCompleted) :
      v.unrouted.complete S started completed = unrouted <$> v.complete S started completed := by
    simp only [complete, map_bind, map_pure]
    rfl
  unfold dispatch at h ⊢
  have hsame : v.unrouted.state = v.state := rfl
  rw [hsame]
  cases hstate : v.state with
  | awaitingStart =>
    rw [hstate] at h
    cases event with
    | deltaStarted started =>
      dsimp only at h ⊢
      rw [hstart, h]
      exact ⟨_, rfl, rfl⟩
    | deltaCompleted completed => cases h
    | mutation common m => cases h
  | completed started completed =>
    rw [hstate] at h
    cases h
  | mutating started =>
    rw [hstate] at h
    cases event with
    | deltaStarted started => cases h
    | deltaCompleted completed =>
      dsimp only at h ⊢
      rw [hcomplete, h]
      exact ⟨_, rfl, rfl⟩
    | mutation common m =>
      simp only [bind_eq_ok] at h
      obtain ⟨ordered, horder, s, happly, hv⟩ := h
      have hordered := unrouted_validateMutationOrder horder
      have hkept : ordered.toDeltaState = v.toDeltaState :=
        congrArg (fun w => w.toDeltaState) hordered
      have hfresh : v.unrouted.validateMutationOrder m = .ok { v.unrouted with
          mutationIdentities := v.unrouted.mutationIdentities.insert m.mutationIdentity
          lastMutationKey := some m.mutationSortKey } := by
        have hfirst : ∀ previous ∈ v.unrouted.lastMutationKey,
            sortKeyLt previous m.mutationSortKey := by
          rintro previous ⟨⟩
        have hnew : m.mutationIdentity ∉ v.unrouted.mutationIdentities := ExtTreeSet.not_mem_empty
        unfold validateMutationOrder ensure
        rw [check_of hfirst, check_of hnew]
        rfl
      rw [hkept] at happly
      refine ⟨{ v.unrouted with
        mutationIdentities := v.unrouted.mutationIdentities.insert m.mutationIdentity
        lastMutationKey := some m.mutationSortKey
        toDeltaState := s }, ?_, ?_⟩
      · dsimp only
        rw [hfresh, ok_bind, show v.unrouted.toDeltaState = v.toDeltaState from rfl, happly]
        rfl
      · rw [← Except.ok.inj hv]
        exact (congrArg (withState s) hordered).symm

/-- The validator that one accepted event makes of the fields that failures do not touch. -/
def built (S : StableIds) (v : DeltaValidator) (event : DeltaEvent) : DeltaValidator :=
  match v.dispatch S (normalizeDeltaConditions S event) with
  | .ok v' =>
    unrouted { v' with events := v'.events ++ [normalizeDeltaConditions S event] }
  | .error _ => v

theorem pushInPlace_ok {event : DeltaEvent} (h : outcome (pushInPlace S event) v = (.ok (), v')) :
    v.push S event = .ok v' := by
  rw [outcome_pushInPlace] at h
  cases hpush : v.push S event with
  | ok w =>
    rw [hpush] at h
    rw [(Prod.mk.inj h).2]
  | error error =>
    rw [hpush] at h
    cases (Prod.mk.inj h).1

theorem pushInPlace_error {event : DeltaEvent} {error : ProtocolError}
    (h : outcome (pushInPlace S event) v = (.error error, v')) :
    v' = v.afterRejected (normalizeDeltaConditions S event) := by
  rw [outcome_pushInPlace] at h
  cases hpush : v.push S event with
  | ok w =>
    rw [hpush] at h
    cases (Prod.mk.inj h).1
  | error error =>
    rw [hpush] at h
    exact (Prod.mk.inj h).2.symm

theorem unrouted_push {event : DeltaEvent} (h : v.push S event = .ok v') :
    v'.unrouted = built S v.unrouted event := by
  simp only [push, bind_eq_ok] at h
  obtain ⟨routed, hcommon, dispatched, hdispatch, hv⟩ := h
  obtain ⟨u, hu, hsame⟩ := dispatch_unrouted hdispatch
  rw [unrouted_validateCommon hcommon] at hu
  unfold built
  rw [hu, ← Except.ok.inj hv]
  exact congrArg (fun w => { w with events := w.events ++ [normalizeDeltaConditions S event] })
    hsame.symm

theorem events_push {event : DeltaEvent} (h : v.push S event = .ok v') :
    v'.events = v.events ++ [normalizeDeltaConditions S event] :=
  (push_ok h).events_eq

/-- The fields that failures do not touch are built by the accepted events alone. -/
theorem unrouted_afterAll (S : StableIds) (v : DeltaValidator) (events : List DeltaEvent) :
    (afterAll (pushInPlace S) v events).unrouted =
      (succeeded (pushInPlace S) v events).foldl (built S) v.unrouted := by
  refine view_afterAll (pushInPlace S) unrouted ?_ ?_ v events
  · intro v event v' h
    exact unrouted_push (pushInPlace_ok h)
  · intro v event error v' h
    rw [pushInPlace_error h, unrouted_afterRejected]

/-- The validated events are the accepted ones, in their order. -/
theorem events_afterAll (S : StableIds) (v : DeltaValidator) (events : List DeltaEvent) :
    (afterAll (pushInPlace S) v events).events =
      v.events ++ (succeeded (pushInPlace S) v events).map (normalizeDeltaConditions S) := by
  have hfold (accepted kept : List DeltaEvent) :
      accepted.foldl (fun kept event => kept ++ [normalizeDeltaConditions S event]) kept =
        kept ++ accepted.map (normalizeDeltaConditions S) := by
    induction accepted generalizing kept with
    | nil => exact (List.append_nil kept).symm
    | cons event accepted ih =>
      rw [List.foldl_cons, ih, List.append_assoc]
      rfl
  rw [← hfold]
  refine view_afterAll (pushInPlace S) (fun v => v.events) ?_ ?_ v events
  · intro v event v' h
    exact events_push (pushInPlace_ok h)
  · intro v event error v' h
    rw [pushInPlace_error h]
    exact congrArg (fun w => w.events) (unrouted_afterRejected (v := v) _)

end DeltaValidator

/-- **An event that is rejected leaves at most its routing fields, the profile that it completes or the
order of its mutation behind.** Over every sequence of events the other fields are those that the
accepted events build, and the validated events are the accepted ones. -/
theorem rejected_leaves (host : Host) (S : StableIds) :
    (∀ v event failure v', outcome (ProtocolValidator.push host event) v = (.error failure, v') →
      v' = v.afterRejected (normalizeConditions host.ids.floatText event) ∧
        v'.unrouted = v.unrouted) ∧
    (∀ v events,
      (afterAll (ProtocolValidator.push host) v events).unrouted =
        (succeeded (ProtocolValidator.push host) v events).foldl (ProtocolValidator.built host)
          v.unrouted ∧
      (afterAll (ProtocolValidator.push host) v events).events = v.events ++
        ((succeeded (ProtocolValidator.push host) v events).map
          (normalizeConditions host.ids.floatText)).filter v.retains) ∧
    (∀ v event error v', outcome (DeltaValidator.pushInPlace S event) v = (.error error, v') →
      v' = v.afterRejected (normalizeDeltaConditions S event) ∧ v'.unrouted = v.unrouted) ∧
    ∀ v events,
      (afterAll (DeltaValidator.pushInPlace S) v events).unrouted =
        (succeeded (DeltaValidator.pushInPlace S) v events).foldl (DeltaValidator.built S)
          v.unrouted ∧
      (afterAll (DeltaValidator.pushInPlace S) v events).events = v.events ++
        (succeeded (DeltaValidator.pushInPlace S) v events).map (normalizeDeltaConditions S) := by
  refine ⟨fun v event failure v' h => ?_, fun v events => ?_, fun v event error v' h => ?_,
    fun v events => ?_⟩
  · rw [ProtocolValidator.push_error h]
    exact ⟨rfl, ProtocolValidator.unrouted_afterRejected _⟩
  · exact ⟨ProtocolValidator.unrouted_afterAll host v events,
      ProtocolValidator.events_afterAll host v events⟩
  · rw [DeltaValidator.pushInPlace_error h]
    exact ⟨rfl, DeltaValidator.unrouted_afterRejected _⟩
  · exact ⟨DeltaValidator.unrouted_afterAll S v events, DeltaValidator.events_afterAll S v events⟩

namespace Sample

/-- A host on which no path can be resolved. -/
def host : Host where
  ids := stableIds
  fromStr _ := none
  malformed _ _ := ""
  canonicalize _ := none
  overflowChecks := true

def scanStarted (root : String) : ProtocolEvent := ⟨common 1, .scanStarted root false true⟩

def deltaStarted : DeltaEvent :=
  .deltaStarted ⟨common 1, deltaContractVersion, deltaId, snapshotId, zeros, scope⟩

def deltaMutated : DeltaEvent := .mutation (common 1) (.nodeUpsert claimed)

/-- Whether the last event is accepted after the others. -/
def accepts (events : List ProtocolEvent) (event : ProtocolEvent) : Bool :=
  (outcome (ProtocolValidator.push host event)
    (afterAll (ProtocolValidator.push host) (.withPolicy .compatible) events)).1.isOk

def acceptsDelta (events : List DeltaEvent) (event : DeltaEvent) : Except ProtocolError Bool := do
  let v ← DeltaValidator.new stableIds base
  return (outcome (DeltaValidator.pushInPlace stableIds event)
    (afterAll (DeltaValidator.pushInPlace stableIds) v events)).1.isOk

end Sample

open Sample in
/-- A start without a root leaves its routing fields only. -/
theorem rejected_leaves_start : ∃ failure v,
    outcome (ProtocolValidator.push host (scanStarted "")) (.withPolicy .compatible) =
        (.error failure, v) ∧
      v = (ProtocolValidator.withPolicy .compatible).afterRejected
        (normalizeConditions host.ids.floatText (scanStarted "")) ∧
      v.unrouted = (ProtocolValidator.withPolicy .compatible).unrouted := by
  have hrejected : (outcome (ProtocolValidator.push host (scanStarted ""))
      (.withPolicy .compatible)).1.isOk = false := by decide +kernel
  cases h : outcome (ProtocolValidator.push host (scanStarted "")) (.withPolicy .compatible) with
  | mk result v =>
    rw [h] at hrejected
    cases result with
    | ok _ => cases hrejected
    | error failure =>
      exact ⟨failure, v, rfl, (rejected_leaves host stableIds).1 _ _ _ _ h⟩

open Sample in
/-- A start that is rejected takes the sequence number of the next one. -/
theorem rejected_start_leaves_seq :
    (accepts [] (scanStarted "") = false ∧ accepts [] (scanStarted "/repo") = true ∧
      accepts [scanStarted ""] (scanStarted "/repo") = false) ∧
    (acceptsDelta [] deltaMutated).toOption = some false ∧
      (acceptsDelta [] deltaStarted).toOption = some true ∧
      (acceptsDelta [deltaMutated] deltaStarted).toOption = some false := by
  refine ⟨⟨?_, ?_, ?_⟩, ?_, ?_, ?_⟩ <;> decide +kernel

end Protocol
