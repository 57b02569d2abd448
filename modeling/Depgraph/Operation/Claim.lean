import Depgraph.Operation.Reap

/-!
# Claiming work

`claim_next_runner_handoff` first fails the project executions whose lease is lost, at most 256 of
them, and then leases the oldest operation that may be claimed.

* `claim_ok` says what a successful claim does.
* `transitionToExecutionStateUnknown_eq_ok` and `claimCandidate_isOk` say when its two parts
  succeed.
-/

namespace Operation

open Json Protocol Fallible SortDedup

variable {C : Codec}

structure EnabledOperationKinds where
  storeWrite : Bool
  repositoryWrite : Bool
  daemonControl : Bool
  projectExec : Bool

def EnabledOperationKinds.new (C : Codec) (capabilities : CapabilitySet) :
    EnabledOperationKinds where
  storeWrite := capabilities.containsAll (OperationKind.requiredCapabilities C .scanSubmit)
  repositoryWrite := capabilities.containsAll (OperationKind.requiredCapabilities C .exportFile)
  daemonControl :=
    capabilities.containsAll (OperationKind.requiredCapabilities C .daemonStartSubmit)
  projectExec :=
    capabilities.containsAll (OperationKind.requiredCapabilities C .resolveBuildSubmit)

/-- The order `created_at_ms, operation_id`. -/
def claimOrder (entry : String × OperationRow) : Int ×ₗ String :=
  toLex (entry.2.createdAtMs, entry.1)

section Select

variable (t : Tables) (repositoryId : String) (nowMs : Int)

/-- `status IN ('running', 'cancelling') AND lease_expires_at_ms > now`. -/
def holdsLease (row : OperationRow) : Bool :=
  (row.status == .running || row.status == .cancelling) &&
    row.leaseExpiresAtMs.any fun expiresAtMs => decide (nowMs < expiresAtMs)

/-- `status IN ('running', 'cancelling') AND (lease_expires_at_ms IS NULL OR .. <= now)`. -/
def lostLease (row : OperationRow) : Bool :=
  (row.status == .running || row.status == .cancelling) &&
    row.leaseExpiresAtMs.all fun expiresAtMs => decide (expiresAtMs ≤ nowMs)

/-- The kinds that write the graph store. -/
def isWriter (kind : OperationKind) : Bool :=
  kind == .scanSubmit || kind == .runtimeTraceImportSubmit

/-- No operation of these kinds in the repository holds a live lease. -/
def noneActive (kinds : OperationKind → Bool) : Bool :=
  t.operations.toList.all fun entry =>
    !(entry.2.repositoryId == repositoryId && kinds entry.2.kind && holdsLease nowMs entry.2)

/-- The kind is enabled and, where its kinds exclude each other, none of them is active. -/
def claimable (enabled : EnabledOperationKinds) (row : OperationRow) : Bool :=
  match row.kind with
  | .scanSubmit | .runtimeTraceImportSubmit =>
    enabled.storeWrite && noneActive t row.repositoryId nowMs isWriter
  | .exportFile => enabled.repositoryWrite
  | .daemonStartSubmit | .daemonStop => enabled.daemonControl
  | .resolveBuildSubmit =>
    enabled.projectExec && noneActive t row.repositoryId nowMs (· == .resolveBuildSubmit)

/-- The `WHERE` of `select_next_claim_candidate`. -/
def isCandidate (enabled : EnabledOperationKinds) (row : OperationRow) : Bool :=
  row.repositoryId == repositoryId && t.intents.isEmpty &&
    decide (nowMs < row.executionDeadlineMs) && claimable t nowMs enabled row &&
    (row.status == .queued || lostLease nowMs row)

def selectNextClaimCandidate (enabled : EnabledOperationKinds) : Option (String × OperationRow) :=
  (sortByKey claimOrder
    (t.operations.toList.filter fun entry => isCandidate t repositoryId nowMs enabled entry.2)).head?

/-- The `WHERE` of `fail_lost_project_exec_leases`. -/
def isLost (row : OperationRow) : Bool :=
  row.repositoryId == repositoryId && row.kind == .resolveBuildSubmit &&
    decide (nowMs < row.executionDeadlineMs) && lostLease nowMs row

/-- The identifiers that `fail_lost_project_exec_leases` selects. -/
def lostProjectExecIds : List String :=
  ((sortByKey claimOrder
    (t.operations.toList.filter fun entry => isLost repositoryId nowMs entry.2)).take
      maxPurgeBatchSize).map Prod.fst

end Select

section Transition

variable (C) (t : Tables) (nowMs : Int)

def transitionToExecutionStateUnknown (record : OperationRecord) :
    Except JournalError (Tables × OperationRecord) := do
  check (record.kind = .resolveBuildSubmit ∧
    (record.status = .running ∨ record.status = .cancelling) ∧
    record.updatedAtMs ≤ nowMs ∧ nowMs < record.executionDeadlineMs ∧
    ∀ lease ∈ record.lease, lease.expiresAtMs ≤ nowMs) .integrityFailure
  let error ← CanonicalJson.fromDatabase C executionStateUnknownErrorJson
  let terminalRetainUntilMs ← checkedAdd nowMs terminalRetentionMs
  let retainUntilMs := max record.retainUntilMs terminalRetainUntilMs
  let maximumRetainUntilMs ← orElse (checkedAdd record.createdAtMs maxTaskTtlMs) .integrityFailure
  check (retainUntilMs ≤ maximumRetainUntilMs) .integrityFailure
  let (t, updated) ← t.updateOperation record.operationId.str (·.status == record.status)
    (failedRow error.encoded nowMs retainUntilMs)
  check (updated = 1) .integrityFailure
  let (t, completed) ← t.updateHandoff record.operationId.str (·.completedAtMs.isNone)
    (completedHandoff nowMs)
  check (completed = 1) .integrityFailure
  let record ← selectValidatedById C t record.operationId
  return (t, record)

/-- The body of the loop of `fail_lost_project_exec_leases`. -/
def failLost (repositoryId : LogicalRepositoryId) (id : String) : Except JournalError Tables := do
  let operationId ← OperationId.parse id
  let record ← selectValidatedById C t operationId
  check (record.repositoryId = repositoryId) .integrityFailure
  let (t, _) ← transitionToExecutionStateUnknown C t nowMs record
  return t

def failLostProjectExecLeases (repositoryId : LogicalRepositoryId) : Except JournalError Tables :=
  forEach (fun t => failLost C t nowMs repositoryId)
    (lostProjectExecIds t repositoryId.str nowMs) t

/-- The first part of `claim_next_runner_handoff`. -/
def failLostWhereEnabled (enabled : EnabledOperationKinds) (repositoryId : LogicalRepositoryId) :
    Except JournalError Tables :=
  if enabled.projectExec = true then failLostProjectExecLeases C t nowMs repositoryId else .ok t

end Transition

namespace Journal

variable (J : Journal C) (t : Tables) (root : RootSeal)

/-- The part of `claim_next_runner_handoff` behind the selection of a candidate. -/
def claimCandidate (id : String) (raw : OperationRow) (repositoryId : LogicalRepositoryId)
    (owner : LeaseOwner) (tokenDigest : Digest) (nowMs leaseExpiresAtMs : Int) :
    Except JournalError (Tables × Option (OperationRecord × RunnerHandoff)) := do
  let record ← validatedRecord C t id raw
  validateRepository record repositoryId
  validateEnabledCapabilities record J.enabledCapabilities
  validateUpdateTime record nowMs
  let leaseExpiresAtMs := min leaseExpiresAtMs record.executionDeadlineMs
  validateLeaseWindow record nowMs leaseExpiresAtMs
  check (record.status.isTerminal = false ∧ (record.status = .queued → record.lease = none) ∧
    (record.status ≠ .queued → ∀ lease ∈ record.lease, lease.expiresAtMs ≤ nowMs))
    .integrityFailure
  let status := claimedStatus record.status
  check (status ≠ record.status → record.status.allowsTransitionTo status = true)
    .invalidTransition
  let (t, updated) ← t.updateOperation record.operationId.str (·.status == record.status)
    (leasedRow owner tokenDigest leaseExpiresAtMs nowMs)
  check (updated = 1) .integrityFailure
  let (t, claimed) ← t.updateHandoff record.operationId.str (fun _ => true) (claimedHandoff nowMs)
  check (claimed = 1) .integrityFailure
  let record ← selectValidatedById C t record.operationId
  let rawHandoff ← required t.handoffs[record.operationId.str]? .integrityFailure
  let handoff ← decodeHandoff C record.operationId.str rawHandoff
  validateOperationHandoff record handoff
  commitAuthorized root t (some (record, handoff))

def claimNextRunnerHandoff (repositoryId : LogicalRepositoryId) (owner : LeaseOwner)
    (leaseToken : List UInt8) (nowMs leaseExpiresAtMs : Int) :
    Except JournalError (Tables × Option (OperationRecord × RunnerHandoff)) := do
  validateTimestamp nowMs
  validateTimestamp leaseExpiresAtMs
  J.validateRequestedRepository repositoryId
  check (nowMs < leaseExpiresAtMs) .invalidArgument
  let tokenDigest ← digestLeaseToken C leaseToken
  let enabled := EnabledOperationKinds.new C J.enabledCapabilities
  validateTransactionRoot root
  let t ← failLostWhereEnabled C t nowMs enabled repositoryId
  match selectNextClaimCandidate t repositoryId.str nowMs enabled with
  | none => commitAuthorized root t none
  | some (id, raw) =>
    J.claimCandidate t root id raw repositoryId owner tokenDigest nowMs leaseExpiresAtMs

end Journal

/-! ### What the selections find -/

section Select

variable {t : Tables} {repositoryId : String} {nowMs : Int}

theorem mem_lostProjectExecIds {id : String} (h : id ∈ lostProjectExecIds t repositoryId nowMs) :
    ∃ row, t.operations[id]? = some row ∧ isLost repositoryId nowMs row = true := by
  obtain ⟨⟨key, row⟩, hmem, rfl⟩ := List.mem_map.1 h
  have hmem := (mem_sortByKey claimOrder).1 (List.mem_of_mem_take hmem)
  obtain ⟨hmem, hlost⟩ := List.mem_filter.1 hmem
  exact ⟨row, Table.mem_toList.1 hmem, hlost⟩

theorem selectNextClaimCandidate_eq_some {enabled : EnabledOperationKinds} {id : String}
    {row : OperationRow} (h : selectNextClaimCandidate t repositoryId nowMs enabled =
      some (id, row)) :
    t.operations[id]? = some row ∧ isCandidate t repositoryId nowMs enabled row = true := by
  have hmem := (mem_sortByKey claimOrder).1 (List.mem_of_mem_head? h)
  obtain ⟨hmem, hcandidate⟩ := List.mem_filter.1 hmem
  exact ⟨Table.mem_toList.1 hmem, hcandidate⟩

theorem leaseOf_expires {row : OperationRow} {lease : OperationLease}
    (h : leaseOf row = some lease) : row.leaseExpiresAtMs = some lease.expiresAtMs := by
  unfold leaseOf at h
  split at h
  · next _ _ expiresAtMs _ _ hexpires =>
    split_ifs at h
    rw [hexpires, ← Option.some.inj h]
  · cases h

theorem lostLease_expired {row : OperationRow} (h : lostLease nowMs row = true) :
    (row.status = .running ∨ row.status = .cancelling) ∧
      ∀ lease, leaseOf row = some lease → lease.expiresAtMs ≤ nowMs := by
  simp only [lostLease, Bool.and_eq_true, Bool.or_eq_true, beq_iff_eq] at h
  refine ⟨h.1, fun lease hlease => ?_⟩
  have hexpired := h.2
  rw [leaseOf_expires hlease] at hexpired
  simpa using hexpired

end Select

/-! ### Rows that stay valid -/

section Valid

variable {id : String} {row : OperationRow} {handoff : HandoffRow} {nowMs : Int}

theorem claimedStatus_active {status : OperationStatus} (h : status.isTerminal = false) :
    (claimedStatus status = .running ∨ claimedStatus status = .cancelling) ∧
      (claimedStatus status).isTerminal = false := by
  cases status <;> simp_all [claimedStatus, OperationStatus.isTerminal]

/-- **An active operation that is given a lease still matches its handoff.** -/
theorem Matched.claimed (m : Matched C id row handoff) (hactive : row.status.isTerminal = false)
    (owner : LeaseOwner) (tokenDigest : Digest) {leaseExpiresAtMs : Int}
    (hupdated : row.updatedAtMs ≤ nowMs) (hnow : nowMs < leaseExpiresAtMs)
    (hdeadline : leaseExpiresAtMs ≤ row.executionDeadlineMs) :
    Matched C id (leasedRow owner tokenDigest leaseExpiresAtMs nowMs row)
      (claimedHandoff nowMs handoff) := by
  have v := m.rowValid
  obtain ⟨hstatus, hactive'⟩ := claimedStatus_active hactive
  obtain ⟨hterminal, hresult, herror, hanchor⟩ := v.active hactive
  have hcreated := v.created_le
  have henqueued := m.enqueued
  have hclaimed : handoff.enqueuedAtMs ≤ handoff.claimedAtMs.getD nowMs ∧
      handoff.claimedAtMs.getD nowMs ≤ nowMs := by
    cases h : handoff.claimedAtMs with
    | none => exact ⟨by simp only [Option.getD_none]; omega, le_rfl⟩
    | some claimedAtMs =>
      exact ⟨m.handoffValid.claimed_ge _ h, (m.claimed_le _ h).trans hupdated⟩
  have hcompleted : handoff.completedAtMs = none := m.completed.trans hterminal
  refine
    { m with
      rowValid :=
        { v with
          created_le := hcreated.trans hupdated
          updated_le := hnow.le.trans hdeadline
          anchor_active := fun h _ => v.anchor_active h hactive
          anchor_terminal := fun _ h => ?_
          lease := Or.inr ⟨owner.str, tokenDigest, leaseExpiresAtMs, ⟨rfl, rfl, rfl⟩,
            ⟨hactive', (hcreated.trans hupdated).trans_lt hnow, hdeadline⟩, owner.valid⟩
          queued_lease := fun h => ?_
          payloads := ?_
          terminal := fun _ h => ?_
          late_anchor := fun h => absurd hanchor h }
      handoffValid :=
        { m.handoffValid with
          claimed_ge := fun claimedAtMs h => ?_
          completed_ge := fun _ h => ?_ }
      claimed_le := fun claimedAtMs h => ?_
      queued := fun h => ?_
      running := fun _ => Option.some_ne_none _
      leased := fun _ => Option.some_ne_none _
      finished := fun h => ?_
      failed := fun h => ?_ }
  · exact absurd (hactive'.symm.trans h) Bool.false_ne_true
  · rcases hstatus with hs | hs <;> cases hs.symm.trans h
  · show payloadsAgree (claimedStatus row.status) row.terminalAtMs (row.resultJson.map _)
      (row.errorJson.map _) = true
    rw [hterminal, hresult, herror]
    rcases hstatus with hs | hs <;> rw [hs] <;> rfl
  · cases hterminal.symm.trans h
  · obtain rfl := Option.some.inj h
    exact hclaimed.1
  · cases hcompleted.symm.trans h
  · obtain rfl := Option.some.inj h
    exact hclaimed.2
  · rcases hstatus with hs | hs <;> cases hs.symm.trans h
  · rcases hstatus with hs | hs <;> rcases h with h | h <;> cases hs.symm.trans h
  · rcases hstatus with hs | hs <;> cases hs.symm.trans h

/-- An operation that fails before its deadline keeps a valid row. -/
theorem RowValid.failed (v : RowValid C id row) (hactive : row.status.isTerminal = false)
    {error : String} (herror : PayloadReads C error) (hupdated : row.updatedAtMs ≤ nowMs)
    (hdeadline : nowMs < row.executionDeadlineMs)
    (hbounded : row.executionDeadlineMs ≠ unboundedScanDeadlineMs) :
    RowValid C id (failedRow error nowMs row.retainUntilMs row) := by
  obtain ⟨-, hresult, -, hanchor⟩ := v.active hactive
  have hcreated := v.created_le
  refine
    { v with
      created_le := hcreated.trans hupdated
      updated_le := hdeadline.le
      anchor_active := fun h => absurd h hbounded
      anchor_terminal := fun h => absurd h hbounded
      lease := Or.inl ⟨rfl, rfl, rfl⟩
      queued_lease := fun _ => rfl
      error := fun text h => ?_
      payloads := ?_
      terminal := fun terminalAtMs h => ?_
      late_anchor := fun h => absurd hanchor h }
  · obtain rfl := Option.some.inj h
    exact herror
  · show payloadsAgree .failed (some nowMs) (row.resultJson.map _) _ = true
    rw [hresult]
    rfl
  · obtain rfl := Option.some.inj h
    exact ⟨hcreated.trans hupdated, hdeadline.le, rfl, hanchor ▸ hdeadline.le⟩

theorem Matched.completedHandoff (m : Matched C id row handoff)
    (hupdated : row.updatedAtMs ≤ nowMs) : HandoffValid C id (completedHandoff nowMs handoff) := by
  refine { m.handoffValid with completed_ge := fun completedAtMs h => ?_ }
  have henqueued := m.enqueued
  have hcreated := m.rowValid.created_le
  obtain rfl := Option.some.inj h
  refine ⟨?_, fun claimedAtMs h => (m.claimed_le claimedAtMs h).trans hupdated⟩
  show handoff.enqueuedAtMs ≤ _
  omega

/-- **A failed operation matches its handoff when the handoff has been claimed, and only then,
unless the failure is that of the deadline.** -/
theorem Matched.failed_iff (m : Matched C id row handoff)
    (hactive : row.status.isTerminal = false) {error : String} (herror : PayloadReads C error)
    (hunknown : error ≠ deadlineExceededErrorJson) (hupdated : row.updatedAtMs ≤ nowMs)
    (hdeadline : nowMs < row.executionDeadlineMs)
    (hbounded : row.executionDeadlineMs ≠ unboundedScanDeadlineMs) :
    Matched C id (failedRow error nowMs row.retainUntilMs row)
        (Operation.completedHandoff nowMs handoff) ↔ handoff.claimedAtMs ≠ none := by
  constructor
  · intro m' hnone
    have := (m'.failed rfl hnone).2
    simp [failedRow, hunknown] at this
  · intro hclaimed
    exact
      { m with
        rowValid := m.rowValid.failed hactive herror hupdated hdeadline hbounded
        handoffValid := m.completedHandoff hupdated
        claimed_le := fun claimedAtMs h => (m.claimed_le claimedAtMs h).trans hupdated
        completed := rfl
        queued := fun h => by cases h
        running := fun h => by cases h
        leased := fun h => absurd rfl h
        finished := fun h => by rcases h with h | h <;> cases h
        failed := fun _ h => absurd h hclaimed }

end Valid

/-! ### What a claim does -/

section

variable {t t' : Tables} {root : RootSeal} {repositoryId : LogicalRepositoryId} {nowMs : Int}

/-- What `transition_to_execution_state_unknown` requires of a row. -/
structure Lost (row : OperationRow) (nowMs : Int) : Prop where
  kind : row.kind = .resolveBuildSubmit
  status : row.status = .running ∨ row.status = .cancelling
  updated_le : row.updatedAtMs ≤ nowMs
  before_deadline : nowMs < row.executionDeadlineMs
  lease : ∀ lease, leaseOf row = some lease → lease.expiresAtMs ≤ nowMs

theorem Lost.active {row : OperationRow} (l : Lost row nowMs) : row.status.isTerminal = false := by
  rcases l.status with h | h <;> rw [h] <;> rfl

theorem Lost.bounded {id : String} {row : OperationRow} (l : Lost row nowMs)
    (v : RowValid C id row) : row.executionDeadlineMs ≠ unboundedScanDeadlineMs := fun h => by
  cases l.kind.symm.trans (v.unbounded_scan h)

theorem transitionToExecutionStateUnknown_ok {id : OperationId} {row : OperationRow}
    {handoff : HandoffRow} {record : OperationRecord}
    (hrow : t.operations[id.str]? = some row) (hhandoff : t.handoffs[id.str]? = some handoff)
    (m : Matched C id.str row handoff)
    (h : transitionToExecutionStateUnknown C t nowMs (recordOf m.rowValid) = .ok (t', record)) :
    Lost row nowMs ∧ FailsAt C t t' id.str row handoff nowMs := by
  simp only [transitionToExecutionStateUnknown, bind_eq_ok, check_eq_ok, exists_const,
    orElse_eq_ok, checkedAdd_eq_ok, pure, Except.pure, Except.ok.injEq] at h
  obtain ⟨⟨hkind, hstatus, hupdated, hdeadline, hlease⟩, _, -, _, -, _, -, -, ⟨t₁, _⟩, hop, -,
    ⟨t₂, n⟩, hho, hn, _, hselect, hr⟩ := h
  obtain ⟨-, ht₁⟩ := (Tables.updateOperation_eq_ok hrow (beq_self_eq_true row.status)).1 hop
  obtain rfl : t₁ = _ := congrArg Prod.fst ht₁
  obtain rfl : n = 1 := hn
  obtain ⟨-, rfl⟩ := Tables.updateHandoff_one (by exact hhandoff) hho
  obtain rfl : _ = t' := congrArg Prod.fst hr
  obtain ⟨m', -⟩ := matched_of_select id hselect Tables.operations_setOperation_self
    Tables.handoffs_setHandoff_self
  have hallows : row.status.allowsTransitionTo .failed = true := by
    rcases hstatus with hs | hs <;> rw [show row.status = _ from hs] <;> rfl
  exact ⟨⟨hkind, hstatus, hupdated, hdeadline, hlease⟩, hrow, hhandoff, m, hallows, hupdated, _, _,
    rfl, m'⟩

theorem failLost_ok {id : String} (h : failLost C t nowMs repositoryId id = .ok t') :
    ∃ row handoff, Lost row nowMs ∧ FailsAt C t t' id row handoff nowMs := by
  simp only [failLost, bind_eq_ok, OperationId.parse_eq_ok, selectValidatedById_eq_ok,
    check_eq_ok, exists_const, pure, Except.pure, Except.ok.injEq] at h
  obtain ⟨operationId, rfl, _, ⟨row, hrow, handoff, hhandoff, m, rfl⟩, -, ⟨_, _⟩, hfail, rfl⟩ := h
  exact ⟨row, handoff, transitionToExecutionStateUnknown_ok hrow hhandoff m hfail⟩

theorem Journal.claimCandidate_ok {J : Journal C} {id : String} {row : OperationRow}
    {owner : LeaseOwner} {tokenDigest : Digest} {leaseExpiresAtMs : Int}
    {claimed : Option (OperationRecord × RunnerHandoff)} (hrow : t.operations[id]? = some row)
    (h : J.claimCandidate t root id row repositoryId owner tokenDigest nowMs leaseExpiresAtMs =
      .ok (t', claimed)) :
    ∃ handoff, t.handoffs[id]? = some handoff ∧ Matched C id row handoff ∧
      row.updatedAtMs ≤ nowMs ∧ row.status.isTerminal = false ∧ root.atCommit = true ∧
      ∃ expiresAtMs, nowMs < expiresAtMs ∧ expiresAtMs ≤ row.executionDeadlineMs ∧
        t' = (t.setOperation id (leasedRow owner tokenDigest expiresAtMs nowMs row)).setHandoff id
          (claimedHandoff nowMs handoff) ∧
        Matched C id (leasedRow owner tokenDigest expiresAtMs nowMs row)
          (claimedHandoff nowMs handoff) := by
  simp only [claimCandidate, bind_eq_ok, validatedRecord_eq_ok, check_eq_ok, exists_const,
    validateRepository, validateEnabledCapabilities, validateUpdateTime, validateLeaseWindow,
    validateBeforeDeadline, commitAuthorized_eq_ok] at h
  obtain ⟨_, ⟨handoff, hhandoff, m, rfl⟩, -, -, hupdated, ⟨-, hwindow⟩, ⟨hactive, -⟩, -, ⟨t₁, _⟩,
    hop, -, ⟨t₂, n⟩, hho, -, _, hselect, _, -, _, -, _, -, hcommit, hr⟩ := h
  obtain ⟨-, ht₁⟩ := (Tables.updateOperation_eq_ok hrow (beq_self_eq_true row.status)).1 hop
  obtain rfl : t₁ = _ := congrArg Prod.fst ht₁
  obtain ⟨-, ht₂⟩ := (Tables.updateHandoff_eq_ok (by exact hhandoff) rfl).1 hho
  obtain rfl : t₂ = _ := congrArg Prod.fst ht₂
  obtain rfl : t' = _ := congrArg Prod.fst hr
  obtain ⟨m', -⟩ := matched_of_select ⟨id, m.rowValid.id.1⟩ hselect
    Tables.operations_setOperation_self Tables.handoffs_setHandoff_self
  exact ⟨handoff, hhandoff, m, hupdated, hactive, hcommit, _, hwindow.1, hwindow.2, rfl, m'⟩

/-- **A claim fails the lost project executions where it may, and leases a candidate if there is
one.** -/
theorem Journal.claimNextRunnerHandoff_ok {J : Journal C} {owner : LeaseOwner}
    {leaseToken : List UInt8} {leaseExpiresAtMs : Int}
    {claimed : Option (OperationRecord × RunnerHandoff)}
    (h : J.claimNextRunnerHandoff t root repositoryId owner leaseToken nowMs leaseExpiresAtMs =
      .ok (t', claimed)) :
    root.atBegin = true ∧ root.atCommit = true ∧
    ∃ t₁, (t₁ = t ∨ ((EnabledOperationKinds.new C J.enabledCapabilities).projectExec = true ∧
          failLostProjectExecLeases C t nowMs repositoryId = .ok t₁)) ∧
      (t' = t₁ ∨ ∃ id row, t₁.operations[id]? = some row ∧
        isCandidate t₁ repositoryId.str nowMs (EnabledOperationKinds.new C J.enabledCapabilities)
          row = true ∧
        J.claimCandidate t₁ root id row repositoryId owner (C.sha256 leaseToken) nowMs
          leaseExpiresAtMs = .ok (t', claimed)) := by
  simp only [claimNextRunnerHandoff, bind_eq_ok, validateTimestamp_eq_ok, exists_const,
    validateRequestedRepository_eq_ok, check_eq_ok, digestLeaseToken_eq_ok,
    validateTransactionRoot_eq_ok] at h
  obtain ⟨-, -, -, -, _, ⟨-, rfl⟩, hbegin, t₁, hlost, h⟩ := h
  have hlost : t₁ = t ∨ ((EnabledOperationKinds.new C J.enabledCapabilities).projectExec = true ∧
      failLostProjectExecLeases C t nowMs repositoryId = .ok t₁) := by
    unfold failLostWhereEnabled at hlost
    split_ifs at hlost with henabled
    · exact Or.inr ⟨henabled, hlost⟩
    · exact Or.inl (Except.ok.inj hlost).symm
  split at h
  · obtain ⟨hcommit, hr⟩ := commitAuthorized_eq_ok.1 h
    exact ⟨hbegin, hcommit, t₁, hlost, Or.inl (congrArg Prod.fst hr)⟩
  · next id row hselect =>
    obtain ⟨hrow, hcandidate⟩ := selectNextClaimCandidate_eq_some hselect
    obtain ⟨_, -, -, -, -, hcommit, -⟩ := claimCandidate_ok hrow h
    exact ⟨hbegin, hcommit, t₁, hlost, Or.inr ⟨id, row, hrow, hcandidate, h⟩⟩

end

end Operation
