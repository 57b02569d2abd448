import Depgraph.Library.Mutable
import Depgraph.Protocol.DeltaValidator

/-!
# Pushing into the delta validator

`delta.rs`: `DeltaValidator::push` as a method that writes to its receiver, statement by statement.
`outcome_pushInPlace` relates it to `DeltaValidator.push`, which says what an accepted event does, and
says what a rejected event leaves behind.
-/

namespace Protocol

open Fallible Mutable OrderedMap Std

namespace DeltaValidator

/-- A method of the validator. -/
abbrev Method : Type := Mutating ProtocolError DeltaValidator Unit

/-- The identity that an event carries. -/
def identityOf (common : CommonFields) : DeltaStreamIdentity :=
  ⟨common.scanId, common.adapter, common.adapterVersion⟩

/-- The checks of `validate_common` before the identity of the stream. -/
def checkCommon (v : DeltaValidator) (common : CommonFields) : Except ProtocolError Unit := do
  check (common.protocolVersion = protocolVersion)
    (.unsupportedVersion protocolVersion common.protocolVersion)
  requireNonEmpty "scan_id" common.scanId
  requireNonEmpty "adapter" common.adapter
  requireNonEmpty "adapter_version" common.adapterVersion
  match v.lastSeq with
  | none =>
    ensure (common.seq = 1) s!"delta seq must start at 1, found {common.seq}"
  | some previous =>
    ensure (common.seq = previous + 1)
      s!"delta seq must be contiguous; previous={previous}, found={common.seq}"

/-- `validate_common`. -/
def validateCommonInPlace (common : CommonFields) : Method := do
  let self ← get
  attempt (self.checkCommon common)
  match self.identity with
  | some identity => attempt (ensure (identity = identityOf common)
      "delta routing metadata changed within the stream")
  | none => modify fun self => { self with identity := some (identityOf common) }
  modify fun self => { self with lastSeq := some common.seq }

/-- `validate_mutation_order`. -/
def validateMutationOrderInPlace (m : DeltaMutation) : Method := do
  let self ← get
  attempt (ensure (∀ previous ∈ self.lastMutationKey, sortKeyLt previous m.mutationSortKey)
    ("delta mutations are not in canonical order at " ++ m.eventName))
  modify fun self => { self with
    mutationIdentities := self.mutationIdentities.insert m.mutationIdentity }
  attempt (ensure (m.mutationIdentity ∉ self.mutationIdentities)
    ("delta mutates " ++ m.mutationIdentity ++ " more than once"))
  modify fun self => { self with lastMutationKey := some m.mutationSortKey }

/-- The validator with another state. -/
def withState (s : DeltaState) (v : DeltaValidator) : DeltaValidator := { v with toDeltaState := s }

/-- A delete: what is removed is looked at only after it has been removed. -/
def deleteInPlace {V : Type} (checks : Except ProtocolError Unit) (removed : Option V)
    (entity id : String) (removedFrom noted : DeltaState) : Method := do
  attempt checks
  modify (withState removedFrom)
  attempt (requirePresent removed entity id)
  modify (withState noted)

/-- The graph of a state replaced. -/
def replaceGraph (s : DeltaState) (graph : DeltaGraph) : DeltaState :=
  { s with graph }

/-- `apply_mutation`. -/
def applyMutationInPlace (scope : DeltaScope) (m : DeltaMutation) : Method := do
  let self ← get
  let s := self.toDeltaState
  match m with
  | .nodeDelete nodeId =>
    deleteInPlace (do
        validateStableId "node_delete.node_id" nodeId none
        requireScoped (s.closure.nodes.contains nodeId) "node" nodeId)
      s.graph.nodes[nodeId]? "node" nodeId
      (replaceGraph s { s.graph with nodes := s.graph.nodes.erase nodeId }) (s.eraseNode nodeId)
  | .siteDelete siteId =>
    deleteInPlace (do
        validateStableId "site_delete.site_id" siteId (some "site")
        requireScoped (s.closure.sites.contains siteId) "site" siteId)
      s.graph.sites[siteId]? "site" siteId
      (replaceGraph s { s.graph with sites := s.graph.sites.erase siteId }) (s.eraseSite siteId)
  | .edgeDelete edgeId =>
    deleteInPlace (do
        validateStableId "edge_delete.edge_id" edgeId (some "edge")
        requireScoped (s.closure.edges.contains edgeId) "edge" edgeId)
      s.graph.edges[edgeId]? "edge" edgeId
      (replaceGraph s { s.graph with edges := s.graph.edges.erase edgeId }) (s.eraseEdge edgeId)
  | .evidenceDelete key =>
    deleteInPlace (do
        validateEvidenceKey key
        requireScoped (evidenceIsScoped scope key s.graph.evidence[key]? s.closure) "evidence"
          (evidenceKeyString key))
      s.graph.evidence[key]? "evidence" (evidenceKeyString key)
      (replaceGraph s { s.graph with evidence := s.graph.evidence.erase key }) (s.eraseEvidence key)
  | .coverageDelete key =>
    deleteInPlace (do
        validateCoverageKey key
        requireScoped (coverageKeyIsScoped scope key) "coverage" (coverageKeyString key))
      s.graph.coverage[key]? "coverage" (coverageKeyString key)
      (replaceGraph s { s.graph with coverage := s.graph.coverage.erase key }) (s.eraseCoverage key)
  | .nodeUpsert _ | .siteUpsert _ | .edgeUpsert _ | .evidenceUpsert _ _ | .coverageUpsert _ =>
    let written ← attempt (s.applyMutation scope m)
    modify (withState written)

/-- A method whose result is a new validator, written at its end. -/
def writeBack (x : Except ProtocolError DeltaValidator) : Method := do
  let written ← attempt x
  set written

section

variable (S : StableIds)

/-- What an event does, by the state of the stream. -/
def dispatchInPlace (event : DeltaEvent) : Method := do
  let self ← get
  match self.state, event with
  | .mutating started, .mutation _ m =>
    validateMutationOrderInPlace m
    applyMutationInPlace started.scope m
  | _, _ => writeBack (self.dispatch S event)

/-- `push`. -/
def pushInPlace (event : DeltaEvent) : Method := do
  let event := normalizeDeltaConditions S event
  validateCommonInPlace event.common
  dispatchInPlace S event
  modify fun self => { self with events := self.events ++ [event] }

end

/-! ### What the parts do -/

/-- A method that writes what a function returns, and nothing when it fails. -/
def Writes (m : Method) (v : DeltaValidator) (x : Except ProtocolError DeltaValidator) : Prop :=
  outcome m v = match x with
    | .ok v' => (.ok (), v')
    | .error error => (.error error, v)

theorem writes_writeBack (v : DeltaValidator) (x : Except ProtocolError DeltaValidator) :
    Writes (writeBack x) v x := by
  cases x <;> rfl

variable {m : Method} {f : Unit → Method} {v v' : DeltaValidator} {error : ProtocolError}

theorem Writes.bind_ok (h : Writes m v (.ok v')) : outcome (m >>= f) v = outcome (f ()) v' := by
  rw [outcome_bind, show outcome m v = _ from h]

theorem Writes.bind_error (h : Writes m v (.error error)) :
    outcome (m >>= f) v = (.error error, v) := by
  rw [outcome_bind, show outcome m v = _ from h]

theorem validateCommon_eq (v : DeltaValidator) (common : CommonFields) :
    v.validateCommon common = (do
      v.checkCommon common
      ensure (∀ known ∈ v.identity, known = identityOf common)
        "delta routing metadata changed within the stream"
      return { v with identity := some (identityOf common), lastSeq := some common.seq }) := by
  unfold validateCommon checkCommon
  cases v.lastSeq <;> simp only [bind_assoc] <;> rfl

theorem writes_validateCommonInPlace (v : DeltaValidator) (common : CommonFields) :
    Writes (validateCommonInPlace common) v (v.validateCommon common) := by
  unfold Writes validateCommonInPlace
  rw [validateCommon_eq, outcome_bind_get]
  cases v.checkCommon common with
  | error error => rfl
  | ok u =>
    rw [outcome_bind_attempt_ok]
    cases hidentity : v.identity with
    | none => rfl
    | some identity =>
      have hsame (message : String) :
          ensure (∀ known ∈ some identity, known = identityOf common) message =
            ensure (identity = identityOf common) message := by
        simp only [ensure, check, Option.mem_some_iff, forall_eq']
      rw [hsame]
      by_cases heq : identity = identityOf common
      · have hpass (message : String) : ensure (identity = identityOf common) message = .ok () :=
          check_of heq _
        have hsome : some (identityOf common) = v.identity := by rw [hidentity, heq]
        simp only [hpass, hsome, outcome_bind_attempt_ok, ok_bind]
        rfl
      · have hfail (message : String) :
            ensure (identity = identityOf common) message = .error (.invariant message) :=
          check_of_not heq _
        simp only [hfail, outcome_bind_attempt_error, ok_bind, error_bind]

theorem writes_validateMutationOrderInPlace (v : DeltaValidator) (m : DeltaMutation) :
    Writes (validateMutationOrderInPlace m) v (v.validateMutationOrder m) := by
  unfold Writes validateMutationOrderInPlace validateMutationOrder ensure
  rw [outcome_bind_get]
  by_cases hordered : ∀ previous ∈ v.lastMutationKey, sortKeyLt previous m.mutationSortKey
  · rw [check_of hordered, outcome_bind_attempt_ok, outcome_bind_modify, ok_bind]
    by_cases hfresh : m.mutationIdentity ∉ v.mutationIdentities
    · rw [check_of hfresh]
      rfl
    · rw [check_of_not hfresh, insert_of_mem (not_not.1 hfresh)]
      rfl
  · rw [check_of_not hordered]
    rfl

/-- A delete whose checks pass removes the record, if there is one. -/
theorem writes_deleteInPlace {V : Type} {v : DeltaValidator} {checks : Except ProtocolError Unit}
    {removed : Option V} {entity id : String} {removedFrom noted : DeltaState}
    (habsent : removed = none → removedFrom = v.toDeltaState) :
    Writes (deleteInPlace checks removed entity id removedFrom noted) v (do
      checks
      requirePresent removed entity id
      return withState noted v) := by
  unfold Writes deleteInPlace
  cases checks with
  | error error => rfl
  | ok u =>
    rw [outcome_bind_attempt_ok, outcome_bind_modify, ok_bind]
    cases removed with
    | none =>
      rw [habsent rfl]
      rfl
    | some value => rfl

theorem writes_applyMutationInPlace (v : DeltaValidator) (scope : DeltaScope) (m : DeltaMutation) :
    Writes (applyMutationInPlace scope m) v
      ((v.toDeltaState.applyMutation scope m).map fun s => withState s v) := by
  have hupsert (x : Except ProtocolError DeltaState) :
      Writes (do let written ← attempt x; modify (withState written)) v
        (x.map fun s => withState s v) := by
    cases x <;> rfl
  have hdelete (stable inScope present : Except ProtocolError Unit) (noted : DeltaState) :
      (do (do stable; inScope); present; return withState noted v) =
        (do stable; inScope; present; return noted : Except ProtocolError DeltaState).map
          fun s => withState s v := by
    cases stable <;> cases inScope <;> cases present <;> rfl
  unfold Writes applyMutationInPlace
  rw [outcome_bind_get]
  cases m with
  | nodeUpsert node => exact hupsert _
  | siteUpsert site => exact hupsert _
  | edgeUpsert edge => exact hupsert _
  | evidenceUpsert key evidence => exact hupsert _
  | coverageUpsert coverage => exact hupsert _
  | nodeDelete nodeId =>
    rw [DeltaState.applyMutation, DeltaState.nodeDelete, ← hdelete]
    refine writes_deleteInPlace fun h => ?_
    rw [replaceGraph, erase_of_none h]
  | siteDelete siteId =>
    rw [DeltaState.applyMutation, DeltaState.siteDelete, ← hdelete]
    refine writes_deleteInPlace fun h => ?_
    rw [replaceGraph, erase_of_none h]
  | edgeDelete edgeId =>
    rw [DeltaState.applyMutation, DeltaState.edgeDelete, ← hdelete]
    refine writes_deleteInPlace fun h => ?_
    rw [replaceGraph, erase_of_none h]
  | evidenceDelete key =>
    rw [DeltaState.applyMutation, DeltaState.evidenceDelete, ← hdelete]
    refine writes_deleteInPlace fun h => ?_
    rw [replaceGraph, erase_of_none h]
  | coverageDelete key =>
    rw [DeltaState.applyMutation, DeltaState.coverageDelete, ← hdelete]
    refine writes_deleteInPlace fun h => ?_
    rw [replaceGraph, erase_of_none h]

/-- What an event that is not applied leaves behind: a mutation in order is noted before it is
applied. -/
def afterDispatch (v : DeltaValidator) (event : DeltaEvent) : DeltaValidator :=
  match v.state, event with
  | .mutating _, .mutation _ m =>
    match v.validateMutationOrder m with
    | .error _ => v
    | .ok ordered => ordered
  | _, _ => v

/-- What a rejected event leaves behind: the routing fields, once the common checks have passed. -/
def afterRejected (v : DeltaValidator) (event : DeltaEvent) : DeltaValidator :=
  match v.validateCommon event.common with
  | .error _ => v
  | .ok routed => routed.afterDispatch event

theorem outcome_dispatchInPlace (S : StableIds) (v : DeltaValidator) (event : DeltaEvent) :
    outcome (dispatchInPlace S event) v = match v.dispatch S event with
      | .ok v' => (.ok (), v')
      | .error error => (.error error, v.afterDispatch event) := by
  have hback (x : Except ProtocolError DeltaValidator) :
      outcome (writeBack x) v = match x with
        | .ok v' => (.ok (), v')
        | .error error => (.error error, v) := writes_writeBack v x
  unfold dispatchInPlace afterDispatch
  rw [outcome_bind_get]
  cases hstate : v.state with
  | awaitingStart => exact hback _
  | completed started completed => exact hback _
  | mutating started =>
    cases event with
    | deltaStarted started => exact hback _
    | deltaCompleted completed => exact hback _
    | mutation common m =>
      have hdispatch : v.dispatch S (.mutation common m) = (do
          let v ← v.validateMutationOrder m
          (v.toDeltaState.applyMutation started.scope m).map fun s => withState s v) := by
        unfold dispatch
        rw [hstate]
        rfl
      have horder := writes_validateMutationOrderInPlace v m
      rw [hdispatch]
      dsimp only
      cases hordered : v.validateMutationOrder m with
      | error error =>
        rw [hordered] at horder
        exact horder.bind_error
      | ok ordered =>
        rw [hordered] at horder
        rw [horder.bind_ok, show outcome _ ordered = _ from writes_applyMutationInPlace _ _ m]
        simp only [ok_bind]

/-- **The method writes what `push` returns; an event that is rejected leaves `afterRejected`.** -/
theorem outcome_pushInPlace (S : StableIds) (v : DeltaValidator) (event : DeltaEvent) :
    outcome (pushInPlace S event) v = match v.push S event with
      | .ok v' => (.ok (), v')
      | .error error => (.error error, v.afterRejected (normalizeDeltaConditions S event)) := by
  unfold pushInPlace push afterRejected
  generalize normalizeDeltaConditions S event = event
  have hrouting := writes_validateCommonInPlace v event.common
  rw [outcome_bind]
  cases hcommon : v.validateCommon event.common with
  | error error =>
    rw [hcommon] at hrouting
    rw [show outcome _ v = _ from hrouting]
    simp only [hcommon, error_bind]
  | ok routed =>
    rw [hcommon] at hrouting
    rw [show outcome _ v = _ from hrouting]
    dsimp only
    rw [outcome_bind, outcome_dispatchInPlace]
    cases hdispatch : routed.dispatch S event with
    | error error => simp only [hcommon, ok_bind, hdispatch, error_bind]
    | ok v' =>
      simp only [hcommon, ok_bind, hdispatch]
      rfl

end DeltaValidator

end Protocol
