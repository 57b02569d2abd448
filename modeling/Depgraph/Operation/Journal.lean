import Depgraph.Operation.Schema
import Mathlib.Data.Int.Order.Basic

/-!
# Reading the journal

What the methods of `OperationJournal` share: the checks they make on the repository root, on
records, leases and times, and the ways in which they load a record.

A method is a function from the tables before its transaction to the tables after it. A method that
fails leaves the tables as they are, because its transaction is rolled back. It gets as arguments
its time and what the checks of the repository root find (`RootSeal`).

`Loaded` is what a successful `load_active_record` says about the tables.
-/

namespace Operation

open Json Protocol Fallible

variable {C : Codec}

/-- What a journal is opened with. -/
structure Journal (C : Codec) where
  repositoryId : LogicalRepositoryId
  enabledCapabilities : CapabilitySet
  bindingDigest : Digest

def Journal.validateRequestedRepository (J : Journal C) (repositoryId : LogicalRepositoryId) :
    Except JournalError Unit :=
  check (repositoryId = J.repositoryId) .repositoryMismatch

/-- What the checks of the repository root find. -/
structure RootSeal where
  /-- `validate_transaction_root`, when the transaction begins -/
  atBegin : Bool
  /-- `validate_live_root`, next to the commit -/
  atCommit : Bool

/-- A root that is in place all the time. -/
def RootSeal.intact : RootSeal := ⟨true, true⟩

def validateTransactionRoot (root : RootSeal) : Except JournalError Unit :=
  check (root.atBegin = true) .repositoryMismatch

def commitAuthorized {α : Type} (root : RootSeal) (t : Tables) (outcome : α) :
    Except JournalError (Tables × α) := do
  check (root.atCommit = true) .repositoryMismatch
  return (t, outcome)

def u64ToI64 (value : Nat) : Except JournalError Int :=
  if (value : Int) ≤ i64Max then .ok value else .error .invalidArgument

/-! ### Checks on records -/

section Checks

variable (record : OperationRecord) (nowMs : Int)

def validateRecordNotFromFuture : Except JournalError Unit :=
  check (record.updatedAtMs ≤ nowMs ∧ ∀ terminalAtMs ∈ record.terminalAtMs, terminalAtMs ≤ nowMs)
    .integrityFailure

def validateUpdateTime : Except JournalError Unit :=
  check (record.updatedAtMs ≤ nowMs) .invalidArgument

def validateBeforeDeadline : Except JournalError Unit :=
  check (nowMs < record.executionDeadlineMs) .deadlineExceeded

def validateLeaseWindow (expiresAtMs : Int) : Except JournalError Unit := do
  validateBeforeDeadline record nowMs
  check (nowMs < expiresAtMs ∧ expiresAtMs ≤ record.executionDeadlineMs) .invalidArgument

def validateLeaseToken (suppliedDigest : Digest) : Except JournalError Unit := do
  let lease ← required record.lease .leaseMismatch
  check (lease.tokenDigest = suppliedDigest) .leaseMismatch

def validateActiveLease (suppliedDigest : Digest) : Except JournalError Unit := do
  validateLeaseToken record suppliedDigest
  check (∃ lease ∈ record.lease, nowMs < lease.expiresAtMs) .leaseExpired

def validateEnabledCapabilities (enabled : CapabilitySet) : Except JournalError Unit :=
  check (enabled.containsAll record.requiredCapabilities = true) .capabilityDenied

def validateRepository (repositoryId : LogicalRepositoryId) : Except JournalError Unit :=
  check (record.repositoryId = repositoryId) .repositoryMismatch

/-- `terminal_retention`: the retention anchor and the end of retention. -/
def terminalRetention : Except JournalError (Int × Int) := do
  let anchor := if record.executionDeadlineMs = unboundedScanDeadlineMs then nowMs
    else max record.retentionAnchorMs nowMs
  let retainUntilMs ← checkedAdd anchor terminalRetentionMs
  return (anchor, retainUntilMs)

end Checks

/-! ### Reading records -/

section Read

variable (C : Codec) (t : Tables)

def validatedRecord (id : String) (raw : OperationRow) : Except JournalError OperationRecord := do
  let rawHandoff ← required t.handoffs[id]? .integrityFailure
  let record ← decodeOperation C id raw
  let handoff ← decodeHandoff C id rawHandoff
  validateOperationHandoff record handoff
  return record

def selectValidatedById (id : OperationId) : Except JournalError OperationRecord := do
  let raw ← required t.operations[id.str]? .integrityFailure
  validatedRecord C t id.str raw

def loadActiveRecord (repositoryId : LogicalRepositoryId) (id : OperationId) (nowMs : Int) :
    Except JournalError OperationRecord := do
  let raw ← required t.operations[id.str]? .notFound
  let record ← validatedRecord C t id.str raw
  validateRecordNotFromFuture record nowMs
  check (record.repositoryId = repositoryId) .integrityFailure
  check (nowMs < record.retainUntilMs) .expired
  return record

def loadCompletionIntentRecord (repositoryId : LogicalRepositoryId) (id : OperationId)
    (nowMs : Int) : Except JournalError OperationRecord := do
  let raw ← required t.operations[id.str]? .notFound
  let record ← validatedRecord C t id.str raw
  validateRecordNotFromFuture record nowMs
  check (record.repositoryId = repositoryId) .integrityFailure
  return record

def validateTombstone (id : String) (tombstone : TombstoneRow) : Except JournalError Unit := do
  let operationId ← OperationId.parse id
  validateOperationId operationId
  let _ ← LogicalRepositoryId.parse tombstone.repositoryId
  let requiredCapabilities ← CapabilitySet.fromDatabase C tombstone.requiredCapabilitiesJson
    tombstone.requiredCapabilitiesDigest
  check (requiredCapabilities = tombstone.kind.requiredCapabilities C) .integrityFailure
  orElse (validateTimestamp tombstone.expiredAtMs) .integrityFailure
  let tombstoneUntilMs ←
    orElse (checkedAdd tombstone.expiredAtMs tombstoneRetentionMs) .integrityFailure
  check (tombstone.tombstoneUntilMs = tombstoneUntilMs) .integrityFailure

def loadRecordForDeadlineFailure (repositoryId : LogicalRepositoryId) (id : OperationId)
    (nowMs : Int) : Except JournalError OperationRecord :=
  match t.operations[id.str]? with
  | some raw => do
    let record ← validatedRecord C t id.str raw
    validateRecordNotFromFuture record nowMs
    check (record.repositoryId = repositoryId) .integrityFailure
    return record
  | none => do
    match t.tombstones[id.str]? with
    | some tombstone => do
      validateTombstone C id.str tombstone
      check (tombstone.repositoryId = repositoryId.str) .integrityFailure
      check (tombstone.tombstoneUntilMs ≤ nowMs) .expired
    | none => pure ()
    .error .notFound

structure CompletionIntent where
  operationId : OperationId
  kind : OperationKind
  normalizedInput : CanonicalInput
  result : CanonicalJson
  decidedAtMs : Int

/-- `select_completion_intent`: the intent joined with its operation and its handoff. A missing
handoff gives a null column that cannot be read. -/
def selectCompletionIntent (id : OperationId) : Except JournalError (Option CompletionIntent) :=
  match t.intents[id.str]?, t.operations[id.str]? with
  | some intent, some operation => do
    let normalizedInput ← CanonicalInput.fromDatabase C operation.inputJson operation.inputDigest
    let handoff ← required t.handoffs[id.str]? .integrityFailure
    let handoffInput ← CanonicalInput.fromDatabase C handoff.payloadJson handoff.payloadDigest
    check (handoff.operationKind = operation.kind ∧ handoffInput = normalizedInput)
      .integrityFailure
    check (C.digest intent.resultJson = intent.resultDigest) .integrityFailure
    let result ← CanonicalJson.fromDatabase C intent.resultJson
    return some ⟨id, operation.kind, normalizedInput, result, intent.decidedAtMs⟩
  | _, _ => .ok none

def completionIntentExists (id : OperationId) : Bool := t.intents[id.str]?.isSome

end Read

def validateCompletionIntent (record : OperationRecord) (intent : CompletionIntent) (nowMs : Int) :
    Except JournalError Unit := do
  orElse (validateTimestamp intent.decidedAtMs) .integrityFailure
  check (intent.operationId = record.operationId ∧ intent.kind = record.kind ∧
    intent.normalizedInput = record.normalizedInput ∧ record.status = .running ∧
    intent.decidedAtMs = record.updatedAtMs ∧
    intent.decidedAtMs < record.executionDeadlineMs ∧ intent.decidedAtMs ≤ nowMs ∧
    ∃ lease ∈ record.lease, intent.decidedAtMs < lease.expiresAtMs) .integrityFailure

/-! ### What the checks find -/

@[simp] theorem validateTransactionRoot_eq_ok {root : RootSeal} {u : Unit} :
    validateTransactionRoot root = .ok u ↔ root.atBegin = true := by
  simp [validateTransactionRoot]

@[simp] theorem commitAuthorized_eq_ok {α : Type} {root : RootSeal} {t : Tables} {outcome : α}
    {r : Tables × α} :
    commitAuthorized root t outcome = .ok r ↔ root.atCommit = true ∧ r = (t, outcome) := by
  simp only [commitAuthorized, bind_eq_ok, check_eq_ok, exists_const, pure, Except.pure,
    Except.ok.injEq]
  exact and_congr_right fun _ => eq_comm

@[simp] theorem u64ToI64_eq_ok {value : Nat} {n : Int} :
    u64ToI64 value = .ok n ↔ (value : Int) ≤ i64Max ∧ n = value := by
  unfold u64ToI64
  split_ifs with h <;> simp [h, eq_comm]

@[simp] theorem Journal.validateRequestedRepository_eq_ok {J : Journal C}
    {repositoryId : LogicalRepositoryId} {u : Unit} :
    J.validateRequestedRepository repositoryId = .ok u ↔ repositoryId = J.repositoryId := by
  simp [validateRequestedRepository]

theorem digestLeaseToken_eq_ok {token : List UInt8} {digest : Digest} :
    digestLeaseToken C token = .ok digest ↔
      (token ≠ [] ∧ token.length ≤ maxLeaseTokenBytes) ∧ digest = C.sha256 token := by
  simp only [digestLeaseToken, validateSecretInput, bind_eq_ok, check_eq_ok, exists_const, pure,
    Except.pure, Except.ok.injEq]
  exact and_congr_right fun _ => eq_comm

theorem validateActiveLease_eq_ok {record : OperationRecord} {nowMs : Int} {digest : Digest}
    {u : Unit} : validateActiveLease record nowMs digest = .ok u ↔
      ∃ lease, record.lease = some lease ∧ lease.tokenDigest = digest ∧
        nowMs < lease.expiresAtMs := by
  cases h : record.lease <;>
    simp [validateActiveLease, validateLeaseToken, required, h]

theorem validateLeaseToken_eq_ok {record : OperationRecord} {digest : Digest} {u : Unit} :
    validateLeaseToken record digest = .ok u ↔
      ∃ lease, record.lease = some lease ∧ lease.tokenDigest = digest := by
  cases h : record.lease <;> simp [validateLeaseToken, required, h]

/-- The retention anchor of an operation that ends now. -/
def terminalAnchor (row : OperationRow) (nowMs : Int) : Int :=
  if row.executionDeadlineMs = unboundedScanDeadlineMs then nowMs
  else max row.retentionAnchorMs nowMs

theorem terminalRetention_eq_ok {id : String} {row : OperationRow} (v : RowValid C id row)
    {nowMs : Int} {r : Int × Int} : terminalRetention (recordOf v) nowMs = .ok r ↔
      terminalAnchor row nowMs + terminalRetentionMs ≤ i64Max ∧
        r = (terminalAnchor row nowMs, terminalAnchor row nowMs + terminalRetentionMs) := by
  simp only [terminalRetention, recordOf, bind_eq_ok, checkedAdd_eq_ok, pure, Except.pure,
    Except.ok.injEq, terminalAnchor]
  constructor
  · rintro ⟨_, ⟨h, rfl⟩, rfl⟩
    exact ⟨h, rfl⟩
  · rintro ⟨h, rfl⟩
    exact ⟨_, ⟨h, rfl⟩, rfl⟩

/-! ### What is read -/

theorem validatedRecord_eq_ok {t : Tables} {id : String} {row : OperationRow}
    {record : OperationRecord} : validatedRecord C t id row = .ok record ↔
      ∃ handoff, t.handoffs[id]? = some handoff ∧
        ∃ m : Matched C id row handoff, record = recordOf m.rowValid := by
  simp only [validatedRecord, bind_eq_ok, required_eq_ok, decodeOperation_eq_ok,
    decodeHandoff_eq_ok, pure, Except.pure, Except.ok.injEq]
  constructor
  · rintro ⟨handoff, hh, _, ⟨v, rfl⟩, _, ⟨w, rfl⟩, _, hm, rfl⟩
    exact ⟨handoff, hh, (validateOperationHandoff_eq_ok v w).1 hm, rfl⟩
  · rintro ⟨handoff, hh, m, rfl⟩
    exact ⟨handoff, hh, _, ⟨m.rowValid, rfl⟩, _, ⟨m.handoffValid, rfl⟩, (),
      (validateOperationHandoff_eq_ok _ _).2 m, rfl⟩

theorem selectValidatedById_eq_ok {t : Tables} {id : OperationId} {record : OperationRecord} :
    selectValidatedById C t id = .ok record ↔
      ∃ row, t.operations[id.str]? = some row ∧ ∃ handoff, t.handoffs[id.str]? = some handoff ∧
        ∃ m : Matched C id.str row handoff, record = recordOf m.rowValid := by
  simp only [selectValidatedById, bind_eq_ok, required_eq_ok, validatedRecord_eq_ok]

theorem completionIntentExists_eq_false {t : Tables} {id : OperationId} :
    completionIntentExists t id = false ↔ t.intents[id.str]? = none :=
  Option.isSome_eq_false_iff.trans Option.isNone_iff_eq_none

/-- Reading a record back checks the row and the handoff that are there. -/
theorem matched_of_select {t : Tables} (id : OperationId) {record : OperationRecord}
    {row : OperationRow} {handoff : HandoffRow} (h : selectValidatedById C t id = .ok record)
    (hrow : t.operations[id.str]? = some row) (hhandoff : t.handoffs[id.str]? = some handoff) :
    ∃ m : Matched C id.str row handoff, record = recordOf m.rowValid := by
  obtain ⟨_, hrow', _, hhandoff', m, rfl⟩ := selectValidatedById_eq_ok.1 h
  obtain rfl := Option.some.inj (hrow.symm.trans hrow')
  obtain rfl := Option.some.inj (hhandoff.symm.trans hhandoff')
  exact ⟨m, rfl⟩

variable (C) in
/-- The tables hold an operation of the repository and its handoff, not written in the future. -/
structure Stored (t : Tables) (repositoryId : LogicalRepositoryId) (id : OperationId) (nowMs : Int)
    (row : OperationRow) (handoff : HandoffRow) : Prop where
  operation_eq : t.operations[id.str]? = some row
  handoff_eq : t.handoffs[id.str]? = some handoff
  matched : Matched C id.str row handoff
  repository : row.repositoryId = repositoryId.str
  updated_le : row.updatedAtMs ≤ nowMs
  terminal_le : ∀ terminalAtMs ∈ row.terminalAtMs, terminalAtMs ≤ nowMs

/-- The record that is stored. -/
def Stored.record {t : Tables} {repositoryId : LogicalRepositoryId} {id : OperationId}
    {nowMs : Int} {row : OperationRow} {handoff : HandoffRow}
    (s : Stored C t repositoryId id nowMs row handoff) : OperationRecord :=
  recordOf s.matched.rowValid

theorem loadCompletionIntentRecord_eq_ok {t : Tables} {repositoryId : LogicalRepositoryId}
    {id : OperationId} {nowMs : Int} {record : OperationRecord} :
    loadCompletionIntentRecord C t repositoryId id nowMs = .ok record ↔
      ∃ row handoff, ∃ s : Stored C t repositoryId id nowMs row handoff, record = s.record := by
  simp only [loadCompletionIntentRecord, bind_eq_ok, required_eq_ok, validatedRecord_eq_ok,
    validateRecordNotFromFuture, check_eq_ok, exists_const, pure, Except.pure, Except.ok.injEq]
  constructor
  · rintro ⟨row, hrow, _, ⟨handoff, hhandoff, m, rfl⟩, ⟨hupdated, hterminal⟩, hrep, rfl⟩
    exact ⟨row, handoff, ⟨hrow, hhandoff, m, congrArg LogicalRepositoryId.str hrep, hupdated,
      hterminal⟩, rfl⟩
  · rintro ⟨row, handoff, s, rfl⟩
    exact ⟨row, s.operation_eq, _, ⟨handoff, s.handoff_eq, s.matched, rfl⟩,
      ⟨s.updated_le, s.terminal_le⟩, LogicalRepositoryId.ext s.repository, rfl⟩

theorem loadActiveRecord_eq {t : Tables} {repositoryId : LogicalRepositoryId} {id : OperationId}
    {nowMs : Int} : loadActiveRecord C t repositoryId id nowMs = (do
      let record ← loadCompletionIntentRecord C t repositoryId id nowMs
      check (nowMs < record.retainUntilMs) .expired
      return record) := by
  simp [loadActiveRecord, loadCompletionIntentRecord]

theorem loadActiveRecord_eq_ok {t : Tables} {repositoryId : LogicalRepositoryId}
    {id : OperationId} {nowMs : Int} {record : OperationRecord} :
    loadActiveRecord C t repositoryId id nowMs = .ok record ↔
      ∃ row handoff, ∃ s : Stored C t repositoryId id nowMs row handoff,
        nowMs < row.retainUntilMs ∧ record = s.record := by
  simp only [loadActiveRecord_eq, bind_eq_ok, loadCompletionIntentRecord_eq_ok, check_eq_ok,
    exists_const, pure, Except.pure, Except.ok.injEq]
  constructor
  · rintro ⟨_, ⟨row, handoff, s, rfl⟩, hretain, rfl⟩
    exact ⟨row, handoff, s, hretain, rfl⟩
  · rintro ⟨row, handoff, s, hretain, rfl⟩
    exact ⟨_, ⟨row, handoff, s, rfl⟩, hretain, rfl⟩

theorem loadRecordForDeadlineFailure_eq_ok {t : Tables} {repositoryId : LogicalRepositoryId}
    {id : OperationId} {nowMs : Int} {record : OperationRecord} :
    loadRecordForDeadlineFailure C t repositoryId id nowMs = .ok record ↔
      ∃ row handoff, ∃ s : Stored C t repositoryId id nowMs row handoff, record = s.record := by
  rw [← loadCompletionIntentRecord_eq_ok]
  unfold loadRecordForDeadlineFailure loadCompletionIntentRecord
  cases h : t.operations[id.str]? with
  | some row => simp [required]
  | none =>
    simp only [required, error_bind, reduceCtorEq, iff_false]
    cases t.tombstones[id.str]? <;> simp

end Operation
