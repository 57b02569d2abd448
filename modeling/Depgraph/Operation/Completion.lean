import Depgraph.Operation.Lease

/-!
# Cancelling and finishing operations

`cancel`, `cancel_before_launch`, `complete`, `fail`, `mark_cancelled`, `commit_completion_intent`
and `finish_completion_intent`.

* A cancellation moves an operation to `cancelling`; only an operation that nobody has claimed can
  be `cancelled` at once.
* A completion intent is the decision to complete, which `finish_completion_intent` carries out.

Each `.._ok` lemma says everything a successful call does.
-/

namespace Operation

open Json Protocol Fallible

variable {C : Codec}

inductive CancelOutcome where
  | requested
  | alreadyRequested
  | terminalNoOp
deriving DecidableEq

inductive CompletionDecision where
  | committed
  | cancellationWon
deriving DecidableEq

inductive FinishPayload where
  | completed (result : CanonicalJson)
  | failed (error : CanonicalJson)
  | cancelled

namespace FinishPayload

def status : FinishPayload → OperationStatus
  | .completed _ => .completed
  | .failed _ => .failed
  | .cancelled => .cancelled

/-- `into_columns`: the result and the error. -/
def intoColumns : FinishPayload → Option CanonicalJson × Option CanonicalJson
  | .completed result => (some result, none)
  | .failed error => (none, some error)
  | .cancelled => (none, none)

end FinishPayload

/-- The row of an operation that is to be cancelled. -/
def cancellingRow (nowMs : Int) (row : OperationRow) : OperationRow :=
  { row with status := .cancelling, updatedAtMs := nowMs }

/-- The row of an operation that was cancelled before its launch. -/
def cancelledRow (retentionAnchorMs retainUntilMs nowMs : Int) (row : OperationRow) :
    OperationRow :=
  { row with
    status := .cancelled, updatedAtMs := nowMs, terminalAtMs := some nowMs
    retainUntilMs := retainUntilMs, retentionAnchorMs := retentionAnchorMs }

/-- The handoff of an operation that was cancelled before its launch. -/
def cancelledHandoff (nowMs : Int) (row : HandoffRow) : HandoffRow :=
  { row with claimedAtMs := some (row.claimedAtMs.getD nowMs), completedAtMs := some nowMs }

/-- The row of an operation that a runner has finished. -/
def finishedRow (payload : FinishPayload) (completed retentionAnchorMs retainUntilMs nowMs : Int)
    (row : OperationRow) : OperationRow :=
  { row with
    status := payload.status, progressCompleted := completed
    resultJson := payload.intoColumns.1.map CanonicalJson.encoded
    errorJson := payload.intoColumns.2.map CanonicalJson.encoded
    leaseOwner := none, leaseTokenDigest := none, leaseExpiresAtMs := none
    updatedAtMs := nowMs, terminalAtMs := some nowMs
    retainUntilMs := retainUntilMs, retentionAnchorMs := retentionAnchorMs }

/-- The handoff of an operation that has ended. -/
def completedHandoff (completedAtMs : Int) (row : HandoffRow) : HandoffRow :=
  { row with completedAtMs := some completedAtMs }

/-- The row of an operation whose completion has been decided. -/
def decidedRow (nowMs : Int) (row : OperationRow) : OperationRow :=
  { row with updatedAtMs := nowMs }

/-- The row of an operation whose completion has been carried out. -/
def publishedRow (result : String) (decidedAtMs retentionAnchorMs retainUntilMs : Int)
    (row : OperationRow) : OperationRow :=
  { row with
    status := .completed, progressCompleted := row.progressTotal
    resultJson := some result, errorJson := none
    leaseOwner := none, leaseTokenDigest := none, leaseExpiresAtMs := none
    updatedAtMs := decidedAtMs, terminalAtMs := some decidedAtMs
    retentionAnchorMs := retentionAnchorMs, retainUntilMs := retainUntilMs }

namespace Journal

variable (J : Journal C) (t : Tables) (root : RootSeal)

/-- `cancel_if_with_clock`; `cancel` is the case in which the caller wants the change. -/
def cancel (repositoryId : LogicalRepositoryId) (id : OperationId)
    (currentCapabilities : CapabilitySet) (shouldCommit : Bool) (nowMs : Int) :
    Except JournalError (Tables × CancelOutcome) := do
  J.validateRequestedRepository repositoryId
  validateTransactionRoot root
  validateTimestamp nowMs
  let record ← loadActiveRecord C t repositoryId id nowMs
  check (J.enabledCapabilities.containsAll record.requiredCapabilities = true ∧
    currentCapabilities.containsAll record.requiredCapabilities = true) .capabilityDenied
  if completionIntentExists t id = true then commitAuthorized root t .terminalNoOp
  else if record.status.isTerminal = true then commitAuthorized root t .terminalNoOp
  else if record.status = .cancelling then commitAuthorized root t .alreadyRequested
  else do
    validateUpdateTime record nowMs
    validateBeforeDeadline record nowMs
    check (record.status.allowsTransitionTo .cancelling = true) .invalidTransition
    check (shouldCommit = true) .requestCancelled
    let (t, _) ← t.updateOperation id.str (fun _ => true) (cancellingRow nowMs)
    commitAuthorized root t .requested

/-- The part of `cancel_before_launch` for an operation that is still queued. Both writes are
private to the transaction: observers see only the terminal cancellation. -/
def cancelQueued (record : OperationRecord) (id : OperationId) (nowMs : Int) :
    Except JournalError (Tables × CancelOutcome) := do
  validateUpdateTime record nowMs
  validateBeforeDeadline record nowMs
  let handoff ← required t.handoffs[id.str]? .integrityFailure
  check (handoff.claimedAtMs = none ∧ record.lease = none) .integrityFailure
  let (t, cancelling) ← t.updateOperation id.str (·.status == .queued) (cancellingRow nowMs)
  check (cancelling = 1) .integrityFailure
  let (retentionAnchorMs, retainUntilMs) ← terminalRetention record nowMs
  let (t, updated) ← t.updateOperation id.str (·.status == .cancelling)
    (cancelledRow retentionAnchorMs retainUntilMs nowMs)
  check (updated = 1) .integrityFailure
  let (t, completed) ← t.updateHandoff id.str (·.completedAtMs.isNone) (cancelledHandoff nowMs)
  check (completed = 1) .integrityFailure
  let _ ← selectValidatedById C t id
  commitAuthorized root t .requested

/-- `cancel_before_launch_with_clock`. -/
def cancelBeforeLaunch (repositoryId : LogicalRepositoryId) (id : OperationId)
    (currentCapabilities : CapabilitySet) (nowMs : Int) :
    Except JournalError (Tables × CancelOutcome) := do
  J.validateRequestedRepository repositoryId
  validateTransactionRoot root
  validateTimestamp nowMs
  let record ← loadActiveRecord C t repositoryId id nowMs
  check (J.enabledCapabilities.containsAll record.requiredCapabilities = true ∧
    currentCapabilities.containsAll record.requiredCapabilities = true) .capabilityDenied
  if completionIntentExists t id = true ∨ record.status.isTerminal = true then
    commitAuthorized root t .terminalNoOp
  else if record.status = .queued then cancelQueued (C := C) t root record id nowMs
  else if record.status = .cancelling then commitAuthorized root t .alreadyRequested
  else do
    validateUpdateTime record nowMs
    validateBeforeDeadline record nowMs
    let (t, _) ← t.updateOperation id.str (fun _ => true) (cancellingRow nowMs)
    commitAuthorized root t .requested

def finish (repositoryId : LogicalRepositoryId) (id : OperationId) (leaseToken : List UInt8)
    (payload : FinishPayload) (nowMs : Int) : Except JournalError (Tables × OperationRecord) := do
  validateTimestamp nowMs
  J.validateRequestedRepository repositoryId
  let tokenDigest ← digestLeaseToken C leaseToken
  validateTransactionRoot root
  let record ← loadActiveRecord C t repositoryId id nowMs
  validateEnabledCapabilities record J.enabledCapabilities
  validateUpdateTime record nowMs
  validateBeforeDeadline record nowMs
  check (record.status ≠ .queued ∧ record.status.allowsTransitionTo payload.status = true)
    .invalidTransition
  validateActiveLease record nowMs tokenDigest
  let (retentionAnchorMs, retainUntilMs) ← terminalRetention record nowMs
  let completed ← u64ToI64
    (if payload.status = .completed then record.progress.totalUnits
      else record.progress.completedUnits)
  let (t, updated) ← t.updateOperation id.str (·.status == record.status)
    (finishedRow payload completed retentionAnchorMs retainUntilMs nowMs)
  check (updated = 1) .integrityFailure
  let (t, completedHandoffs) ← t.updateHandoff id.str
    (fun row => row.claimedAtMs.isSome && row.completedAtMs.isNone) (completedHandoff nowMs)
  check (completedHandoffs = 1) .integrityFailure
  let record ← selectValidatedById C t id
  commitAuthorized root t record

def complete (repositoryId : LogicalRepositoryId) (id : OperationId) (leaseToken : List UInt8)
    (result : CanonicalJson) (nowMs : Int) : Except JournalError (Tables × OperationRecord) :=
  J.finish t root repositoryId id leaseToken (.completed result) nowMs

def fail (repositoryId : LogicalRepositoryId) (id : OperationId) (leaseToken : List UInt8)
    (error : CanonicalJson) (nowMs : Int) : Except JournalError (Tables × OperationRecord) :=
  J.finish t root repositoryId id leaseToken (.failed error) nowMs

def markCancelled (repositoryId : LogicalRepositoryId) (id : OperationId)
    (leaseToken : List UInt8) (nowMs : Int) : Except JournalError (Tables × OperationRecord) :=
  J.finish t root repositoryId id leaseToken .cancelled nowMs

def commitCompletionIntent (repositoryId : LogicalRepositoryId) (id : OperationId)
    (leaseToken : List UInt8) (result : CanonicalJson) (nowMs : Int) :
    Except JournalError (Tables × CompletionDecision) := do
  validateTimestamp nowMs
  J.validateRequestedRepository repositoryId
  let tokenDigest ← digestLeaseToken C leaseToken
  validateTransactionRoot root
  let record ← loadActiveRecord C t repositoryId id nowMs
  validateEnabledCapabilities record J.enabledCapabilities
  validateUpdateTime record nowMs
  validateBeforeDeadline record nowMs
  validateActiveLease record nowMs tokenDigest
  if record.status = .cancelling then commitAuthorized root t .cancellationWon
  else do
    check (record.status = .running ∧ completionIntentExists t id = false) .invalidTransition
    let t ← t.insertIntent id.str ⟨result.encoded, C.digest result.encoded, nowMs⟩
    let (t, _) ← t.updateOperation id.str (fun _ => true) (decidedRow nowMs)
    commitAuthorized root t .committed

def finishCompletionIntent (repositoryId : LogicalRepositoryId) (id : OperationId)
    (nowMs : Int) : Except JournalError (Tables × OperationRecord) := do
  validateTimestamp nowMs
  J.validateRequestedRepository repositoryId
  validateTransactionRoot root
  let found ← selectCompletionIntent C t id
  let intent ← required found .invalidTransition
  let record ← loadCompletionIntentRecord C t repositoryId id nowMs
  validateCompletionIntent record intent nowMs
  let retentionAnchorMs := if record.executionDeadlineMs = unboundedScanDeadlineMs then nowMs
    else max record.retentionAnchorMs nowMs
  let retainUntilMs ← checkedAdd retentionAnchorMs terminalRetentionMs
  let (t, updated) ← t.updateOperation id.str
    (fun row => row.status == .running && row.updatedAtMs == intent.decidedAtMs)
    (publishedRow intent.result.encoded intent.decidedAtMs retentionAnchorMs retainUntilMs)
  check (updated = 1) .integrityFailure
  let (t, completed) ← t.updateHandoff id.str
    (fun row => row.claimedAtMs.isSome && row.completedAtMs.isNone)
    (completedHandoff intent.decidedAtMs)
  check (completed = 1) .integrityFailure
  let (t, deleted) := t.deleteIntent id.str
  check (deleted = 1) .integrityFailure
  let record ← selectValidatedById C t id
  commitAuthorized root t record

/-! ### What the methods do -/

variable {J t root} {repositoryId : LogicalRepositoryId} {id : OperationId}
  {leaseToken : List UInt8} {nowMs : Int} {t' : Tables} {record : OperationRecord}

theorem cancel_ok {currentCapabilities : CapabilitySet} {shouldCommit : Bool}
    {outcome : CancelOutcome}
    (h : J.cancel t root repositoryId id currentCapabilities shouldCommit nowMs =
      .ok (t', outcome)) :
    t' = t ∨ ∃ row handoff, Admitted J t root repositoryId id nowMs row handoff ∧
      t.intents[id.str]? = none ∧ (row.status = .queued ∨ row.status = .running) ∧
      t' = t.setOperation id.str (cancellingRow nowMs row) := by
  simp only [cancel, bind_eq_ok, validateTimestamp_eq_ok, exists_const,
    validateRequestedRepository_eq_ok, validateTransactionRoot_eq_ok, loadActiveRecord_eq_ok,
    check_eq_ok] at h
  obtain ⟨-, hbegin, -, _, ⟨row, handoff, s, -, rfl⟩, ⟨hcaps, -⟩, h⟩ := h
  split_ifs at h with hintent hterminal hcancelling
  · exact Or.inl (congrArg Prod.fst (commitAuthorized_eq_ok.1 h).2)
  · exact Or.inl (congrArg Prod.fst (commitAuthorized_eq_ok.1 h).2)
  · exact Or.inl (congrArg Prod.fst (commitAuthorized_eq_ok.1 h).2)
  · simp only [bind_eq_ok, validateUpdateTime, validateBeforeDeadline, check_eq_ok, exists_const,
      commitAuthorized_eq_ok] at h
    obtain ⟨-, hdeadline, hallows, -, ⟨t₁, _⟩, hop, hcommit, hr⟩ := h
    obtain ⟨-, ht₁⟩ := (Tables.updateOperation_eq_ok s.operation_eq rfl).1 hop
    obtain rfl : t₁ = _ := congrArg Prod.fst ht₁
    have hallows : row.status.allowsTransitionTo .cancelling = true := hallows
    refine Or.inr ⟨row, handoff, ⟨s, hcaps, hdeadline, hbegin, hcommit⟩, ?_, ?_,
      congrArg Prod.fst hr⟩
    · exact completionIntentExists_eq_false.1 (Bool.eq_false_iff.2 hintent)
    · cases hstatus : row.status <;> simp_all [OperationStatus.allowsTransitionTo]

/-- The row that `cancel_before_launch` leaves of a queued operation. -/
def withdrawnRow (nowMs : Int) (row : OperationRow) : OperationRow :=
  cancelledRow (terminalAnchor row nowMs) (terminalAnchor row nowMs + terminalRetentionMs) nowMs
    (cancellingRow nowMs row)

theorem cancelBeforeLaunch_ok {currentCapabilities : CapabilitySet} {outcome : CancelOutcome}
    (h : J.cancelBeforeLaunch t root repositoryId id currentCapabilities nowMs =
      .ok (t', outcome)) :
    t' = t ∨ ∃ row handoff, Admitted J t root repositoryId id nowMs row handoff ∧
      t.intents[id.str]? = none ∧
      ((row.status = .running ∧ t' = t.setOperation id.str (cancellingRow nowMs row)) ∨
        (row.status = .queued ∧
          t' = (t.setOperation id.str (withdrawnRow nowMs row)).setHandoff id.str
            (cancelledHandoff nowMs handoff) ∧
          Matched C id.str (withdrawnRow nowMs row) (cancelledHandoff nowMs handoff))) := by
  simp only [cancelBeforeLaunch, bind_eq_ok, validateTimestamp_eq_ok, exists_const,
    validateRequestedRepository_eq_ok, validateTransactionRoot_eq_ok, loadActiveRecord_eq_ok,
    check_eq_ok] at h
  obtain ⟨-, hbegin, -, _, ⟨row, handoff, s, -, rfl⟩, ⟨hcaps, -⟩, h⟩ := h
  split_ifs at h with hno hqueued hcancelling
  · exact Or.inl (congrArg Prod.fst (commitAuthorized_eq_ok.1 h).2)
  · have hintent : t.intents[id.str]? = none :=
      completionIntentExists_eq_false.1 (Bool.eq_false_iff.2 fun hi => hno (Or.inl hi))
    simp only [cancelQueued, bind_eq_ok, validateUpdateTime, validateBeforeDeadline, check_eq_ok,
      exists_const, required_eq_ok, commitAuthorized_eq_ok] at h
    obtain ⟨-, hdeadline, _, -, -, ⟨t₁, _⟩, hop₁, -, _, hretention, ⟨t₂, _⟩, hop₂, -,
      ⟨t₃, n⟩, hho, hn, _, hselect, hcommit, hr⟩ := h
    obtain ⟨-, rfl⟩ := (terminalRetention_eq_ok s.matched.rowValid).1 hretention
    obtain rfl : n = 1 := hn
    have hqueued : row.status = .queued := hqueued
    obtain ⟨-, ht₁⟩ := (Tables.updateOperation_eq_ok s.operation_eq (by simp [hqueued])).1 hop₁
    obtain rfl : t₁ = _ := congrArg Prod.fst ht₁
    obtain ⟨-, ht₂⟩ := (Tables.updateOperation_eq_ok Tables.operations_setOperation_self
      rfl).1 hop₂
    obtain rfl : t₂ = _ := congrArg Prod.fst ht₂
    obtain ⟨-, rfl⟩ := Tables.updateHandoff_one (by exact s.handoff_eq) hho
    obtain rfl : t' = _ := congrArg Prod.fst hr
    obtain ⟨m, -⟩ := matched_of_select _ hselect Tables.operations_setOperation_self
      Tables.handoffs_setHandoff_self
    rw [Tables.setOperation_setOperation]
    exact Or.inr ⟨row, handoff, ⟨s, hcaps, hdeadline, hbegin, hcommit⟩, hintent,
      Or.inr ⟨hqueued, rfl, m⟩⟩
  · exact Or.inl (congrArg Prod.fst (commitAuthorized_eq_ok.1 h).2)
  · simp only [bind_eq_ok, validateUpdateTime, validateBeforeDeadline, check_eq_ok, exists_const,
      commitAuthorized_eq_ok] at h
    obtain ⟨-, hdeadline, ⟨t₁, _⟩, hop, hcommit, hr⟩ := h
    obtain ⟨-, ht₁⟩ := (Tables.updateOperation_eq_ok s.operation_eq rfl).1 hop
    obtain rfl : t₁ = _ := congrArg Prod.fst ht₁
    have hintent : t.intents[id.str]? = none :=
      completionIntentExists_eq_false.1 (Bool.eq_false_iff.2 fun hi => hno (Or.inl hi))
    have hactive : ¬ row.status.isTerminal = true := fun hi => hno (Or.inr hi)
    have hqueued : ¬ row.status = .queued := hqueued
    have hcancelling : ¬ row.status = .cancelling := hcancelling
    refine Or.inr ⟨row, handoff, ⟨s, hcaps, hdeadline, hbegin, hcommit⟩, hintent,
      Or.inl ⟨?_, congrArg Prod.fst hr⟩⟩
    cases hstatus : row.status <;> simp_all [OperationStatus.isTerminal]

/-- The progress of an operation that a runner has finished. -/
def finishedUnits (payload : FinishPayload) (row : OperationRow) : Int :=
  if payload.status = .completed then row.progressTotal else row.progressCompleted

/-- The row that `finish` leaves. -/
def endedRow (payload : FinishPayload) (nowMs : Int) (row : OperationRow) : OperationRow :=
  finishedRow payload (finishedUnits payload row) (terminalAnchor row nowMs)
    (terminalAnchor row nowMs + terminalRetentionMs) nowMs row

theorem finish_ok {payload : FinishPayload}
    (h : J.finish t root repositoryId id leaseToken payload nowMs = .ok (t', record)) :
    ∃ row handoff, Admitted J t root repositoryId id nowMs row handoff ∧
      HoldsToken C row leaseToken nowMs ∧ row.status ≠ .queued ∧
      row.status.allowsTransitionTo payload.status = true ∧
      t' = (t.setOperation id.str (endedRow payload nowMs row)).setHandoff id.str
        (completedHandoff nowMs handoff) ∧
      Matched C id.str (endedRow payload nowMs row) (completedHandoff nowMs handoff) := by
  simp only [finish, bind_eq_ok, validateTimestamp_eq_ok, exists_const,
    validateRequestedRepository_eq_ok, digestLeaseToken_eq_ok, validateTransactionRoot_eq_ok,
    loadActiveRecord_eq_ok, validateEnabledCapabilities, validateUpdateTime,
    validateBeforeDeadline, validateActiveLease_eq_ok, check_eq_ok, u64ToI64_eq_ok,
    commitAuthorized_eq_ok] at h
  obtain ⟨-, -, _, ⟨-, rfl⟩, hbegin, _, ⟨row, handoff, s, -, rfl⟩, hcaps, -, hdeadline,
    ⟨hqueued, hallows⟩, htoken, _, hretention, _, ⟨-, rfl⟩, ⟨t₁, _⟩, hop, -, ⟨t₂, n⟩, hho, hn, _,
    hselect, hcommit, hr⟩ := h
  obtain ⟨-, rfl⟩ := (terminalRetention_eq_ok s.matched.rowValid).1 hretention
  obtain ⟨-, ht₁⟩ := (Tables.updateOperation_eq_ok s.operation_eq
    (beq_self_eq_true row.status)).1 hop
  obtain rfl : t₁ = _ := congrArg Prod.fst ht₁
  obtain rfl : n = 1 := hn
  obtain ⟨-, rfl⟩ := Tables.updateHandoff_one (by exact s.handoff_eq) hho
  obtain rfl : t' = _ := congrArg Prod.fst hr
  have hunits : (((if payload.status = .completed then s.record.progress.totalUnits
      else s.record.progress.completedUnits) : Nat) : Int) = finishedUnits payload row := by
    have hnonneg := s.matched.rowValid.progress_nonneg
    have htotal_pos := s.matched.rowValid.total_pos
    unfold finishedUnits
    split_ifs
    · show ((row.progressTotal.toNat : Nat) : Int) = row.progressTotal
      omega
    · show ((row.progressCompleted.toNat : Nat) : Int) = row.progressCompleted
      omega
  rw [hunits] at hselect ⊢
  obtain ⟨m, -⟩ := matched_of_select _ hselect Tables.operations_setOperation_self
    Tables.handoffs_setHandoff_self
  exact ⟨row, handoff, ⟨s, hcaps, hdeadline, hbegin, hcommit⟩, htoken, hqueued, hallows, rfl, m⟩

/-- The tables after a decision to complete. -/
def decidedTables (t : Tables) (id : String) (intent : IntentRow) (row : OperationRow) : Tables :=
  { t with intents := t.intents.insert id intent }.setOperation id (decidedRow intent.decidedAtMs row)

theorem commitCompletionIntent_ok {result : CanonicalJson} {decision : CompletionDecision}
    (h : J.commitCompletionIntent t root repositoryId id leaseToken result nowMs =
      .ok (t', decision)) :
    ∃ row handoff, Admitted J t root repositoryId id nowMs row handoff ∧
      HoldsToken C row leaseToken nowMs ∧
      ((decision = .cancellationWon ∧ t' = t) ∨
        (decision = .committed ∧ row.status = .running ∧ t.intents[id.str]? = none ∧
          t' = decidedTables t id.str ⟨result.encoded, C.digest result.encoded, nowMs⟩ row)) := by
  simp only [commitCompletionIntent, bind_eq_ok, validateTimestamp_eq_ok, exists_const,
    validateRequestedRepository_eq_ok, digestLeaseToken_eq_ok, validateTransactionRoot_eq_ok,
    loadActiveRecord_eq_ok, validateEnabledCapabilities, validateUpdateTime,
    validateBeforeDeadline, validateActiveLease_eq_ok, check_eq_ok] at h
  obtain ⟨-, -, _, ⟨-, rfl⟩, hbegin, _, ⟨row, handoff, s, -, rfl⟩, hcaps, -, hdeadline, htoken,
    h⟩ := h
  split_ifs at h with hcancelling
  · obtain ⟨hcommit, hr⟩ := commitAuthorized_eq_ok.1 h
    obtain ⟨rfl, rfl⟩ := Prod.mk.inj hr
    exact ⟨row, handoff, ⟨s, hcaps, hdeadline, hbegin, hcommit⟩, htoken, Or.inl ⟨rfl, rfl⟩⟩
  · simp only [Tables.insertIntent, bind_eq_ok, check_eq_ok, exists_const, pure, Except.pure,
      Except.ok.injEq, commitAuthorized_eq_ok] at h
    obtain ⟨⟨hrunning, -⟩, _, ⟨⟨-, hnone, -⟩, rfl⟩, ⟨t₁, _⟩, hop, hcommit, hr⟩ := h
    obtain ⟨-, ht₁⟩ := (Tables.updateOperation_eq_ok (by exact s.operation_eq) rfl).1 hop
    obtain rfl : t₁ = _ := congrArg Prod.fst ht₁
    obtain ⟨rfl, rfl⟩ := Prod.mk.inj hr
    exact ⟨row, handoff, ⟨s, hcaps, hdeadline, hbegin, hcommit⟩, htoken,
      Or.inr ⟨rfl, hrunning, hnone, rfl⟩⟩

/-! ### Carrying out a completion -/

/-- What `select_completion_intent` and `validate_completion_intent` require of an intent. -/
structure Decided (C : Codec) (row : OperationRow) (intent : IntentRow) (nowMs : Int) : Prop where
  digest : C.digest intent.resultJson = intent.resultDigest
  reads : PayloadReads C intent.resultJson
  running : row.status = .running
  updated : intent.decidedAtMs = row.updatedAtMs
  before_deadline : intent.decidedAtMs < row.executionDeadlineMs
  decided_le : intent.decidedAtMs ≤ nowMs
  leased : ∃ lease, leaseOf row = some lease ∧ intent.decidedAtMs < lease.expiresAtMs

/-- The intent that is selected. -/
def intentOf (id : OperationId) (row : OperationRow) (intent : IntentRow) : CompletionIntent :=
  ⟨id, row.kind, ⟨row.inputJson, row.inputDigest⟩, ⟨intent.resultJson⟩, intent.decidedAtMs⟩

theorem selectCompletionIntent_eq_ok {intent : IntentRow} {row : OperationRow}
    {handoff : HandoffRow} {found : Option CompletionIntent}
    (s : Stored C t repositoryId id nowMs row handoff) (hintent : t.intents[id.str]? = some intent) :
    selectCompletionIntent C t id = .ok found ↔
      C.digest intent.resultJson = intent.resultDigest ∧ PayloadReads C intent.resultJson ∧
        found = some (intentOf id row intent) := by
  simp only [selectCompletionIntent, hintent, s.operation_eq, s.handoff_eq, bind_eq_ok,
    CanonicalInput.fromDatabase_eq_ok, required_eq_ok, check_eq_ok, exists_const,
    CanonicalJson.fromDatabase_eq_ok, pure, Except.pure, Except.ok.injEq]
  constructor
  · rintro ⟨_, ⟨-, rfl⟩, _, -, _, ⟨-, rfl⟩, -, hdigest, _, ⟨hreads, rfl⟩, rfl⟩
    exact ⟨hdigest, hreads, rfl⟩
  · rintro ⟨hdigest, hreads, rfl⟩
    have m := s.matched
    refine ⟨_, ⟨m.rowValid.input, rfl⟩, handoff, rfl, _, ⟨m.handoffValid.payload, rfl⟩,
      ⟨m.kind, ?_⟩, hdigest, _, ⟨hreads, rfl⟩, rfl⟩
    rw [m.payload, m.digest]

theorem validateCompletionIntent_eq_ok {intent : IntentRow} {row : OperationRow}
    {handoff : HandoffRow} {u : Unit} (s : Stored C t repositoryId id nowMs row handoff)
    (hdigest : C.digest intent.resultJson = intent.resultDigest)
    (hreads : PayloadReads C intent.resultJson) :
    validateCompletionIntent s.record (intentOf id row intent) nowMs = .ok u ↔
      Decided C row intent nowMs := by
  simp only [validateCompletionIntent, bind_eq_ok, orElse_eq_ok, validateTimestamp_eq_ok,
    exists_const, check_eq_ok]
  constructor
  · rintro ⟨-, -, -, -, hrunning, hupdated, hdeadline, hnow, hlease⟩
    exact ⟨hdigest, hreads, hrunning, hupdated, hdeadline, hnow, hlease⟩
  · intro d
    have hcreated := s.matched.rowValid.created_nonneg
    have hle := s.matched.rowValid.created_le
    have hupdated := d.updated
    exact ⟨(by show 0 ≤ intent.decidedAtMs; omega), rfl, rfl, rfl, d.running, d.updated,
      d.before_deadline, d.decided_le, d.leased⟩

/-- The tables after a decision has been carried out. -/
def publishedTables (t : Tables) (id : String) (nowMs : Int) (row : OperationRow)
    (handoff : HandoffRow) (intent : IntentRow) : Tables :=
  let t := (t.setOperation id (publishedRow intent.resultJson intent.decidedAtMs
    (terminalAnchor row nowMs) (terminalAnchor row nowMs + terminalRetentionMs) row)).setHandoff id
      (completedHandoff intent.decidedAtMs handoff)
  { t with intents := t.intents.erase id }

theorem finishCompletionIntent_ok
    (h : J.finishCompletionIntent t root repositoryId id nowMs = .ok (t', record)) :
    ∃ row handoff intent, Stored C t repositoryId id nowMs row handoff ∧
      t.intents[id.str]? = some intent ∧ Decided C row intent nowMs ∧
      t' = publishedTables t id.str nowMs row handoff intent ∧
      Matched C id.str (publishedRow intent.resultJson intent.decidedAtMs
        (terminalAnchor row nowMs) (terminalAnchor row nowMs + terminalRetentionMs) row)
        (completedHandoff intent.decidedAtMs handoff) := by
  simp only [finishCompletionIntent, bind_eq_ok, validateTimestamp_eq_ok, exists_const,
    validateRequestedRepository_eq_ok, validateTransactionRoot_eq_ok, required_eq_ok,
    loadCompletionIntentRecord_eq_ok, check_eq_ok, checkedAdd_eq_ok, commitAuthorized_eq_ok] at h
  obtain ⟨-, -, -, _, hfound, decision, rfl, _, ⟨row, handoff, s, rfl⟩, _, hvalid, _,
    ⟨-, rfl⟩, ⟨t₁, _⟩, hop, -, ⟨t₂, n⟩, hho, hn, -, _, hselect, -, hr⟩ := h
  obtain ⟨intent, hintent⟩ : ∃ intent, t.intents[id.str]? = some intent := by
    cases hi : t.intents[id.str]? with
    | none => simp [selectCompletionIntent, hi] at hfound
    | some intent => exact ⟨intent, rfl⟩
  obtain ⟨hdigest, hreads, hdecision⟩ := (selectCompletionIntent_eq_ok s hintent).1 hfound
  obtain rfl := Option.some.inj hdecision
  have d := (validateCompletionIntent_eq_ok s hdigest hreads).1 hvalid
  obtain ⟨-, ht₁⟩ := (Tables.updateOperation_eq_ok s.operation_eq
    (by simp [intentOf, d.running, d.updated])).1 hop
  obtain rfl : t₁ = _ := congrArg Prod.fst ht₁
  obtain rfl : n = 1 := hn
  obtain ⟨-, rfl⟩ := Tables.updateHandoff_one (by exact s.handoff_eq) hho
  obtain rfl : t' = _ := congrArg Prod.fst hr
  obtain ⟨m, -⟩ := matched_of_select _ hselect Tables.operations_setOperation_self
    Tables.handoffs_setHandoff_self
  exact ⟨row, handoff, intent, s, hintent, d, rfl, m⟩

/-- **A decided operation still matches its handoff when the decision has been carried out.** -/
theorem Decided.published {row : OperationRow} {handoff : HandoffRow} {intent : IntentRow}
    (d : Decided C row intent nowMs) (m : Matched C id.str row handoff)
    (hretention : nowMs + terminalRetentionMs ≤ i64Max)
    (hunbounded : row.executionDeadlineMs = unboundedScanDeadlineMs →
      nowMs ≠ row.executionDeadlineMs) :
    Matched C id.str (publishedRow intent.resultJson intent.decidedAtMs
      (terminalAnchor row nowMs) (terminalAnchor row nowMs + terminalRetentionMs) row)
      (completedHandoff intent.decidedAtMs handoff) := by
  have v := m.rowValid
  have hupdated := d.updated
  have hcreated := v.created_le
  have hle := d.decided_le
  have hdeadline := d.before_deadline
  have hclaimed := m.claimed_le
  obtain ⟨hanchor, hbounded, hdistinct, hretained⟩ :
      nowMs ≤ terminalAnchor row nowMs ∧
      (row.executionDeadlineMs ≠ unboundedScanDeadlineMs →
        row.executionDeadlineMs ≤ terminalAnchor row nowMs) ∧
      (row.executionDeadlineMs = unboundedScanDeadlineMs →
        terminalAnchor row nowMs ≠ row.executionDeadlineMs) ∧
      terminalAnchor row nowMs + terminalRetentionMs ≤ i64Max := by
    have hge := v.anchor_ge
    have hanchor_retention := v.anchor_retention
    unfold terminalAnchor
    split_ifs with h
    · exact ⟨le_rfl, fun hne => absurd h hne, hunbounded, hretention⟩
    · exact ⟨le_max_right _ _, fun hne => (hge hne).trans (le_max_left _ _),
        fun heq => absurd heq h, by omega⟩
  have hrowValid : RowValid C id.str (publishedRow intent.resultJson intent.decidedAtMs
      (terminalAnchor row nowMs) (terminalAnchor row nowMs + terminalRetentionMs) row) :=
    { v with
      progress_nonneg := v.total_pos.le
      progress_le := le_rfl
      anchor_retention := hretained
      created_le := by
        show row.createdAtMs ≤ intent.decidedAtMs
        omega
      updated_le := hdeadline.le
      anchor_ge := hbounded
      anchor_active := fun _ h => by cases h
      anchor_terminal := fun h _ => hdistinct h
      retain_eq := rfl
      lease := Or.inl ⟨rfl, rfl, rfl⟩
      queued_lease := fun _ => rfl
      result := fun text h => by
        obtain rfl := Option.some.inj h
        exact d.reads
      error := fun _ h => by cases h
      payloads := rfl
      terminal := fun terminalAtMs h => by
        obtain rfl := Option.some.inj h
        exact ⟨hupdated ▸ hcreated, hdeadline.le, rfl, hle.trans hanchor⟩
      late_anchor := fun _ => ⟨Or.inr rfl, rfl⟩ }
  have hhandoffValid : HandoffValid C id.str (completedHandoff intent.decidedAtMs handoff) :=
    { m.handoffValid with
      completed_ge := fun completedAtMs h => by
        obtain rfl := Option.some.inj h
        have henqueued := m.enqueued
        refine ⟨by show handoff.enqueuedAtMs ≤ _; omega, fun claimedAtMs hc => ?_⟩
        have := hclaimed claimedAtMs hc
        omega }
  exact
    { m with
      rowValid := hrowValid
      handoffValid := hhandoffValid
      claimed_le := fun claimedAtMs hc => by
        have := hclaimed claimedAtMs hc
        show claimedAtMs ≤ intent.decidedAtMs
        omega
      completed := rfl
      queued := fun h => by cases h
      running := fun h => by cases h
      leased := fun h => absurd rfl h
      finished := fun _ => m.running d.running
      failed := fun h => by cases h }

/-- **Carrying out a decision succeeds.** -/
theorem finishCompletionIntent_of_decided {row : OperationRow} {handoff : HandoffRow}
    {intent : IntentRow} (s : Stored C t repositoryId id nowMs row handoff)
    (hintent : t.intents[id.str]? = some intent) (d : Decided C row intent nowMs)
    (hrepository : repositoryId = J.repositoryId)
    (hretention : nowMs + terminalRetentionMs ≤ i64Max)
    (hunbounded : row.executionDeadlineMs = unboundedScanDeadlineMs →
      nowMs ≠ row.executionDeadlineMs) :
    ∃ record, J.finishCompletionIntent t .intact repositoryId id nowMs =
        .ok (publishedTables t id.str nowMs row handoff intent, record) ∧
      record.status = .completed ∧ record.result = some ⟨intent.resultJson⟩ := by
  have m := s.matched
  have m' := d.published m hretention hunbounded
  refine ⟨recordOf m'.rowValid, ?_, rfl, rfl⟩
  have hnow : 0 ≤ nowMs := by
    have := m.rowValid.created_nonneg
    have := m.rowValid.created_le
    have := s.updated_le
    omega
  simp only [finishCompletionIntent, bind_eq_ok, validateTimestamp_eq_ok, exists_const,
    validateRequestedRepository_eq_ok, validateTransactionRoot_eq_ok, required_eq_ok,
    loadCompletionIntentRecord_eq_ok, check_eq_ok, checkedAdd_eq_ok, commitAuthorized_eq_ok]
  refine ⟨hnow, hrepository, rfl, _, (selectCompletionIntent_eq_ok s hintent).2
    ⟨d.digest, d.reads, rfl⟩, _, rfl, _, ⟨row, handoff, s, rfl⟩,
    (), (validateCompletionIntent_eq_ok s d.digest d.reads).2 d, _,
    ⟨m'.rowValid.anchor_retention, rfl⟩, _, (Tables.updateOperation_eq_ok s.operation_eq
      (by simp [intentOf, d.running, d.updated])).2 ⟨⟨?_, ?_, m'.rowValid.allowed⟩, rfl⟩, rfl, _,
    (Tables.updateHandoff_eq_ok (by exact s.handoff_eq) ?_).2
      ⟨m'.handoffValid.allowed, rfl⟩, rfl, ?_, _, selectValidatedById_eq_ok.2
      ⟨_, Tables.operations_setOperation_self, _, Tables.handoffs_setHandoff_self, m', rfl⟩, rfl,
    rfl⟩
  · rw [d.running]; rfl
  · rw [d.running]; exact fun _ => rfl
  · have hclaimed := m.running d.running
    have hcompleted : handoff.completedAtMs = none := by
      have := m.rowValid.payloads
      rw [d.running] at this
      rw [m.completed]
      simp_all [payloadsAgree]
    rw [hcompleted, Option.isSome_iff_ne_none.2 hclaimed]
    rfl
  · simp [Tables.deleteIntent, hintent]

end Journal

end Operation
