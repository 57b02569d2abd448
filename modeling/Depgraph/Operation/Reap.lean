import Depgraph.Operation.Completion
import Mathlib.Data.Prod.Lex
import Mathlib.Algebra.Order.Ring.Int

/-!
# Deadlines, tombstones and purging

`fail_deadline` and `purge`. A purge handles three batches of at most 256 rows: active operations
behind their deadline fail, terminal operations behind their retention are replaced by tombstones,
and elapsed tombstones go. Every row is validated before it is touched.
-/

namespace Operation

open Json Protocol Fallible SortDedup

variable {C : Codec}

/-- The row of an operation that has failed without its runner. -/
def failedRow (error : String) (terminalAtMs retainUntilMs : Int) (row : OperationRow) :
    OperationRow :=
  { row with
    status := .failed, errorJson := some error
    leaseOwner := none, leaseTokenDigest := none, leaseExpiresAtMs := none
    updatedAtMs := terminalAtMs, terminalAtMs := some terminalAtMs
    retainUntilMs := retainUntilMs }

section Transition

variable (C) (t : Tables)

def transitionToDeadlineFailure (record : OperationRecord) (error : CanonicalJson) :
    Except JournalError (Tables × OperationRecord) := do
  check (record.status.allowsTransitionTo .failed = true ∧
    record.updatedAtMs ≤ record.executionDeadlineMs) .integrityFailure
  let terminalAtMs := record.executionDeadlineMs
  let terminalRetainUntilMs ←
    orElse (checkedAdd terminalAtMs terminalRetentionMs) .integrityFailure
  let maximumRetainUntilMs ← orElse (checkedAdd record.createdAtMs maxTaskTtlMs) .integrityFailure
  let retainUntilMs := max record.retainUntilMs terminalRetainUntilMs
  check (retainUntilMs ≤ maximumRetainUntilMs) .integrityFailure
  let (t, updated) ← t.updateOperation record.operationId.str (·.status == record.status)
    (failedRow error.encoded terminalAtMs retainUntilMs)
  check (updated = 1) .integrityFailure
  let (t, completed) ← t.updateHandoff record.operationId.str (·.completedAtMs.isNone)
    (completedHandoff terminalAtMs)
  check (completed = 1) .integrityFailure
  let record ← selectValidatedById C t record.operationId
  return (t, record)

/-- The body of the first loop of `purge_with_runner_guard`. -/
def reapOperation (repositoryId : LogicalRepositoryId) (error : CanonicalJson) (nowMs : Int)
    (id : String) : Except JournalError Tables := do
  let operationId ← OperationId.parse id
  let record ← selectValidatedById C t operationId
  check (record.repositoryId = repositoryId ∧ record.status.isTerminal = false ∧
    record.executionDeadlineMs ≤ nowMs) .integrityFailure
  let (t, _) ← transitionToDeadlineFailure C t record error
  return t

/-- The row that a purge inserts into `operation_tombstones`. -/
def tombstoneOf (record : OperationRecord) (requiredCapabilitiesJson : String)
    (tombstoneUntilMs : Int) : TombstoneRow where
  repositoryId := record.repositoryId.str
  kind := record.kind
  requiredCapabilitiesJson := requiredCapabilitiesJson
  requiredCapabilitiesDigest := record.requiredCapabilities.digest
  inputDigest := record.inputDigest
  idempotencyKeyDigest := record.idempotencyKeyDigest
  expiredAtMs := record.retainUntilMs
  tombstoneUntilMs := tombstoneUntilMs

/-- The body of the second loop, with the number of tombstones it creates. -/
def purgeOperation (repositoryId : LogicalRepositoryId) (nowMs : Int) (id : String) :
    Except JournalError (Tables × Nat) := do
  let operationId ← OperationId.parse id
  let record ← selectValidatedById C t operationId
  check (record.repositoryId = repositoryId ∧ record.status.isTerminal = true ∧
    record.retainUntilMs ≤ nowMs) .integrityFailure
  let tombstoneUntilMs ←
    orElse (checkedAdd record.retainUntilMs tombstoneRetentionMs) .integrityFailure
  let (t, deleted) := t.deleteOperation record.operationId.str (·.status.isTerminal)
  check (deleted = 1) .integrityFailure
  if nowMs < tombstoneUntilMs then do
    let json ← record.requiredCapabilities.canonicalJson C
    let t ← t.insertTombstone record.operationId.str (tombstoneOf record json tombstoneUntilMs)
    return (t, 1)
  else return (t, 0)

/-- The body of the third loop. -/
def purgeTombstone (repositoryId : LogicalRepositoryId) (nowMs : Int) (id : String) :
    Except JournalError Tables := do
  let operationId ← OperationId.parse id
  let tombstone ← required t.tombstones[operationId.str]? .integrityFailure
  validateTombstone C operationId.str tombstone
  check (tombstone.repositoryId = repositoryId.str ∧ tombstone.tombstoneUntilMs ≤ nowMs)
    .integrityFailure
  let (t, deleted) := t.deleteTombstone operationId.str
  check (deleted = 1) .integrityFailure
  return t

end Transition

/-- A loop over a batch of identifiers. -/
def forEach (body : Tables → String → Except JournalError Tables) :
    List String → Tables → Except JournalError Tables
  | [], t => .ok t
  | id :: rest, t => do
    let t ← body t id
    forEach body rest t

/-- The second loop of a purge, with the number of tombstones it creates. -/
def purgeOperations (C : Codec) (repositoryId : LogicalRepositoryId) (nowMs : Int) :
    List String → Tables → Except JournalError (Tables × Nat)
  | [], t => .ok (t, 0)
  | id :: rest, t => do
    let (t, created) ← purgeOperation C t repositoryId nowMs id
    let (t, more) ← purgeOperations C repositoryId nowMs rest t
    return (t, created + more)

section Batch

variable (t : Tables) (nowMs : Int)

/-- The identifiers of the first rows in an order, at most a batch. -/
def batch {α : Type} (order : α → Int) (table : Table α) (condition : String × α → Bool) :
    List String :=
  ((sortByKey (fun entry : String × α => toLex (order entry.2, entry.1))
    (table.toList.filter condition)).take maxPurgeBatchSize).map Prod.fst

/-- The `WHERE` of the first loop. -/
def deadlineExpired (entry : String × OperationRow) : Bool :=
  !entry.2.status.isTerminal && !entry.2.kind.requiresRunnerCleanup &&
    decide (entry.2.executionDeadlineMs ≤ nowMs) && t.intents[entry.1]?.isNone

/-- The `WHERE` of the second loop. -/
def retentionExpired (entry : String × OperationRow) : Bool :=
  entry.2.status.isTerminal && decide (entry.2.retainUntilMs ≤ nowMs)

/-- The `WHERE` of the third loop. -/
def tombstoneExpired (entry : String × TombstoneRow) : Bool :=
  decide (entry.2.tombstoneUntilMs ≤ nowMs)

def deadlineExpiredIds : List String :=
  batch (·.executionDeadlineMs) t.operations (deadlineExpired t nowMs)

def retentionExpiredIds : List String :=
  batch (·.retainUntilMs) t.operations (retentionExpired nowMs)

def tombstoneExpiredIds : List String :=
  batch (·.tombstoneUntilMs) t.tombstones (tombstoneExpired nowMs)

def moreWork : Bool :=
  t.operations.toList.any (deadlineExpired t nowMs) ||
    t.operations.toList.any (retentionExpired nowMs) ||
    t.tombstones.toList.any (tombstoneExpired nowMs)

end Batch

structure PurgeReport where
  reapedOperations : Nat
  purgedOperations : Nat
  createdTombstones : Nat
  purgedTombstones : Nat
  moreWork : Bool
deriving DecidableEq

namespace Journal

variable (J : Journal C) (t : Tables) (root : RootSeal)

/-- `fail_deadline_inner`; `fail_deadline` is the case without a completed runner cleanup. -/
def failDeadline (repositoryId : LogicalRepositoryId) (id : OperationId)
    (runnerCleanupCompleted : Bool) (nowMs : Int) :
    Except JournalError (Tables × OperationRecord) := do
  validateTimestamp nowMs
  J.validateRequestedRepository repositoryId
  validateTransactionRoot root
  let record ← loadRecordForDeadlineFailure C t repositoryId id nowMs
  validateEnabledCapabilities record J.enabledCapabilities
  check (record.kind.requiresRunnerCleanup = true → runnerCleanupCompleted = true)
    .invalidTransition
  check (completionIntentExists t id = false) .invalidTransition
  check (record.executionDeadlineMs ≤ nowMs) .invalidArgument
  check (record.status.allowsTransitionTo .failed = true) .invalidTransition
  let error ← CanonicalJson.fromDatabase C deadlineExceededErrorJson
  let (t, record) ← transitionToDeadlineFailure C t record error
  commitAuthorized root t record

/-- `purge`; without the runner purge guard nothing happens. -/
def purge (guardAcquired : Bool) (nowMs : Int) : Except JournalError (Tables × PurgeReport) := do
  validateTimestamp nowMs
  if guardAcquired = true then do
    let deadlineError ← CanonicalJson.fromDatabase C deadlineExceededErrorJson
    validateTransactionRoot root
    let deadlineExpiredIds := deadlineExpiredIds t nowMs
    let t ← forEach (fun t => reapOperation C t J.repositoryId deadlineError nowMs)
      deadlineExpiredIds t
    let retentionExpiredIds := retentionExpiredIds t nowMs
    let (t, createdTombstones) ← purgeOperations C J.repositoryId nowMs retentionExpiredIds t
    let tombstoneExpiredIds := tombstoneExpiredIds t nowMs
    let t ← forEach (fun t => purgeTombstone C t J.repositoryId nowMs) tombstoneExpiredIds t
    commitAuthorized root t {
      reapedOperations := deadlineExpiredIds.length
      purgedOperations := retentionExpiredIds.length
      createdTombstones
      purgedTombstones := tombstoneExpiredIds.length
      moreWork := moreWork t nowMs }
  else return (t, ⟨0, 0, 0, 0, true⟩)

end Journal

/-! ### What the methods do -/

variable {t t' : Tables} {root : RootSeal} {repositoryId : LogicalRepositoryId} {nowMs : Int}

variable (C) in
/-- The operation fails without its runner, at a time that becomes its end. -/
structure FailsAt (t t' : Tables) (id : String) (row : OperationRow) (handoff : HandoffRow)
    (terminalAtMs : Int) : Prop where
  operation_eq : t.operations[id]? = some row
  handoff_eq : t.handoffs[id]? = some handoff
  matched : Matched C id row handoff
  allows : row.status.allowsTransitionTo .failed = true
  updated_le : row.updatedAtMs ≤ terminalAtMs
  fails : ∃ error retainUntilMs,
    t' = (t.setOperation id (failedRow error terminalAtMs retainUntilMs row)).setHandoff id
      (completedHandoff terminalAtMs handoff) ∧
    Matched C id (failedRow error terminalAtMs retainUntilMs row)
      (completedHandoff terminalAtMs handoff)

theorem transitionToDeadlineFailure_ok {id : OperationId} {row : OperationRow}
    {handoff : HandoffRow} {error : CanonicalJson} {record : OperationRecord}
    (hrow : t.operations[id.str]? = some row) (hhandoff : t.handoffs[id.str]? = some handoff)
    (m : Matched C id.str row handoff)
    (h : transitionToDeadlineFailure C t (recordOf m.rowValid) error = .ok (t', record)) :
    FailsAt C t t' id.str row handoff row.executionDeadlineMs := by
  simp only [transitionToDeadlineFailure, bind_eq_ok, check_eq_ok, exists_const, orElse_eq_ok,
    checkedAdd_eq_ok, pure, Except.pure, Except.ok.injEq] at h
  obtain ⟨⟨hallows, hupdated⟩, _, -, _, -, -, ⟨t₁, _⟩, hop, -, ⟨t₂, n⟩, hho, hn, _, hselect,
    hr⟩ := h
  obtain ⟨-, ht₁⟩ := (Tables.updateOperation_eq_ok hrow (beq_self_eq_true row.status)).1 hop
  obtain rfl : t₁ = _ := congrArg Prod.fst ht₁
  obtain rfl : n = 1 := hn
  obtain ⟨-, rfl⟩ := Tables.updateHandoff_one (by exact hhandoff) hho
  obtain rfl : _ = t' := congrArg Prod.fst hr
  obtain ⟨m', -⟩ := matched_of_select id hselect Tables.operations_setOperation_self
    Tables.handoffs_setHandoff_self
  exact ⟨hrow, hhandoff, m, hallows, hupdated, _, _, rfl, m'⟩

theorem Journal.failDeadline_ok {J : Journal C} {id : OperationId}
    {runnerCleanupCompleted : Bool} {record : OperationRecord}
    (h : J.failDeadline t root repositoryId id runnerCleanupCompleted nowMs = .ok (t', record)) :
    t.intents[id.str]? = none ∧ ∃ row handoff, row.executionDeadlineMs ≤ nowMs ∧
      FailsAt C t t' id.str row handoff row.executionDeadlineMs := by
  simp only [failDeadline, bind_eq_ok, check_eq_ok, exists_const, validateTransactionRoot_eq_ok,
    validateTimestamp_eq_ok, validateRequestedRepository_eq_ok,
    loadRecordForDeadlineFailure_eq_ok, validateEnabledCapabilities, commitAuthorized_eq_ok] at h
  obtain ⟨-, -, -, _, ⟨row, handoff, s, rfl⟩, -, -, hintent, hdeadline, -, _, -, ⟨_, _⟩, hfail, -,
    hr⟩ := h
  obtain rfl : t' = _ := congrArg Prod.fst hr
  refine ⟨completionIntentExists_eq_false.1 hintent, row, handoff, hdeadline, ?_⟩
  exact transitionToDeadlineFailure_ok s.operation_eq s.handoff_eq s.matched hfail

theorem reapOperation_ok {error : CanonicalJson} {id : String}
    (h : reapOperation C t repositoryId error nowMs id = .ok t') :
    ∃ row handoff, row.executionDeadlineMs ≤ nowMs ∧
      FailsAt C t t' id row handoff row.executionDeadlineMs := by
  simp only [reapOperation, bind_eq_ok, OperationId.parse_eq_ok, selectValidatedById_eq_ok,
    check_eq_ok, exists_const, pure, Except.pure, Except.ok.injEq] at h
  obtain ⟨operationId, rfl, _, ⟨row, hrow, handoff, hhandoff, m, rfl⟩, ⟨-, -, hdeadline⟩, ⟨_, _⟩,
    hfail, rfl⟩ := h
  exact ⟨row, handoff, hdeadline, transitionToDeadlineFailure_ok hrow hhandoff m hfail⟩

/-- What a tombstone keeps of an operation that was retained until a time. -/
structure Buries (C : Codec) (id : String) (row : OperationRow) (tombstone : TombstoneRow) :
    Prop where
  scope : tombstone.scope = row.scope
  input : tombstone.inputDigest = row.inputDigest
  capabilities : tombstone.requiredCapabilitiesDigest = (row.kind.requiredCapabilities C).digest
  expired : tombstone.expiredAtMs = row.retainUntilMs
  until_eq : tombstone.tombstoneUntilMs = row.retainUntilMs + tombstoneRetentionMs
  valid : validateTombstone C id tombstone = .ok ()

/-- An operation that has ended is retained from a time that is not negative. -/
theorem RowValid.retain_nonneg {id : String} {row : OperationRow} (v : RowValid C id row)
    (hterminal : row.status.isTerminal = true) : 0 ≤ row.retainUntilMs := by
  have hcreated := v.created_nonneg
  have hlt := v.created_lt
  rw [v.retain_eq]
  have hanchor : 0 ≤ row.retentionAnchorMs := by
    by_cases hunbounded : row.executionDeadlineMs = unboundedScanDeadlineMs
    · obtain ⟨terminalAtMs, hat⟩ : ∃ terminalAtMs, row.terminalAtMs = some terminalAtMs := by
        have hpayloads := v.payloads
        refine Option.isSome_iff_exists.1 ?_
        cases hstatus : row.status <;> simp_all [payloadsAgree, OperationStatus.isTerminal]
      obtain ⟨hge, -, -, hle⟩ := v.terminal terminalAtMs hat
      omega
    · have := v.anchor_ge hunbounded
      omega
  have hretention : 0 ≤ terminalRetentionMs := by decide
  omega

/-- The tombstone of an operation passes its own check. -/
theorem RowValid.buries {id : String} {row : OperationRow} (v : RowValid C id row)
    (hterminal : row.status.isTerminal = true)
    (hbound : row.retainUntilMs + tombstoneRetentionMs ≤ i64Max) {json : String}
    (hjson : (row.kind.requiredCapabilities C).canonicalJson C = .ok json) :
    Buries C id row (tombstoneOf (recordOf v) json (row.retainUntilMs + tombstoneRetentionMs)) := by
  refine ⟨rfl, rfl, rfl, rfl, rfl, ?_⟩
  have hcapabilities : CapabilitySet.fromDatabase C json
      (row.kind.requiredCapabilities C).digest = .ok (row.kind.requiredCapabilities C) := by
    have hrow := v.capabilities
    have hsame := v.capabilities
    simp only [CapabilitySet.fromDatabase, bind_eq_ok, check_eq_ok, exists_const, required_eq_ok,
      orElse_eq_ok, pure, Except.pure, Except.ok.injEq] at hsame
    obtain ⟨-, _, -, _, hcanonical, ⟨-, htext, hdigest⟩, hset⟩ := hsame
    rw [hset] at hcanonical hdigest
    obtain rfl := Except.ok.inj (hjson.symm.trans hcanonical)
    rw [htext, hdigest]
    exact hrow
  simp only [validateTombstone, bind_eq_ok, OperationId.parse_eq_ok, validateOperationId_eq_ok,
    exists_const, LogicalRepositoryId.parse_eq_ok, check_eq_ok, orElse_eq_ok,
    validateTimestamp_eq_ok, checkedAdd_eq_ok]
  exact ⟨⟨id, v.id.1⟩, rfl, v.id, ⟨row.repositoryId, v.repository⟩, rfl, _, hcapabilities, rfl,
    v.retain_nonneg hterminal, _, ⟨hbound, rfl⟩, rfl⟩

/-- **A purge removes an operation that has ended and whose retention has passed.** Its identifier
and scope stay reserved by a tombstone as long as the tombstone's time is not over. -/
theorem purgeOperation_ok {id : String} {created : Nat}
    (h : purgeOperation C t repositoryId nowMs id = .ok (t', created)) :
    ∃ row, t.operations[id]? = some row ∧ row.status.isTerminal = true ∧
      row.retainUntilMs ≤ nowMs ∧
      ((row.retainUntilMs + tombstoneRetentionMs ≤ nowMs ∧ t' = t.removeOperation id) ∨
        ∃ tombstone : TombstoneRow, Buries C id row tombstone ∧
          nowMs < row.retainUntilMs + tombstoneRetentionMs ∧
          (t.removeOperation id).insertTombstone id tombstone = .ok t') := by
  simp only [purgeOperation, bind_eq_ok, OperationId.parse_eq_ok, selectValidatedById_eq_ok,
    check_eq_ok, exists_const, orElse_eq_ok, checkedAdd_eq_ok] at h
  obtain ⟨operationId, rfl, _, ⟨row, hrow, handoff, -, m, rfl⟩, ⟨-, hterminal, helapsed⟩, _,
    ⟨hbound, rfl⟩, -, h⟩ := h
  have hterminal : row.status.isTerminal = true := hterminal
  have hdelete : t.deleteOperation operationId.str (·.status.isTerminal) =
      (t.removeOperation operationId.str, 1) := by
    simp [Tables.deleteOperation, hrow, hterminal]
  refine ⟨row, hrow, hterminal, helapsed, ?_⟩
  split_ifs at h with hreserved
  · simp only [bind_eq_ok, pure, Except.pure, Except.ok.injEq] at h
    obtain ⟨json, hjson, t₁, hinsert, hr⟩ := h
    obtain rfl : t₁ = t' := congrArg Prod.fst hr
    rw [show (recordOf m.rowValid).operationId.str = operationId.str from rfl, hdelete] at hinsert
    exact Or.inr ⟨_, m.rowValid.buries hterminal hbound hjson, hreserved, hinsert⟩
  · obtain rfl : _ = t' := congrArg Prod.fst (Except.ok.inj h)
    rw [show (recordOf m.rowValid).operationId.str = operationId.str from rfl, hdelete]
    exact Or.inl ⟨not_lt.1 hreserved, rfl⟩

theorem purgeTombstone_ok {id : String} (h : purgeTombstone C t repositoryId nowMs id = .ok t') :
    ∃ tombstone, t.tombstones[id]? = some tombstone ∧ tombstone.tombstoneUntilMs ≤ nowMs ∧
      t' = (t.deleteTombstone id).1 := by
  simp only [purgeTombstone, bind_eq_ok, OperationId.parse_eq_ok, required_eq_ok, check_eq_ok,
    exists_const, pure, Except.pure, Except.ok.injEq] at h
  obtain ⟨operationId, rfl, tombstone, hfound, _, -, ⟨-, helapsed⟩, -, rfl⟩ := h
  exact ⟨tombstone, hfound, helapsed, rfl⟩

end Operation
