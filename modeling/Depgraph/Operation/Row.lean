import Depgraph.Operation.Types

/-!
# Rows of the journal and their decoding

A row is what a table stores under an operation identifier. Columns with a closed set of values
(`kind`, `status`, 32-byte digests) have it as their type; the others are strings and integers.

* `decodeOperation` and `decodeHandoff` check a row and read it as a record, and
  `validateOperationHandoff` compares the two; `validatedRecord` is their sequence.
* `RowValid` and `Matched` say what the checks require. `validatedRecord_eq_ok` is the inversion
  lemma that the operations of the journal are analysed with.
-/

namespace Operation

open Protocol Fallible

/-- A row of `operations`. -/
structure OperationRow where
  repositoryId : String
  kind : OperationKind
  requiredCapabilitiesJson : String
  requiredCapabilitiesDigest : Digest
  inputJson : String
  inputDigest : Digest
  idempotencyKeyDigest : Digest
  status : OperationStatus
  progressCompleted : Int
  progressTotal : Int
  leaseOwner : Option String
  leaseTokenDigest : Option Digest
  leaseExpiresAtMs : Option Int
  executionDeadlineMs : Int
  resultJson : Option String
  errorJson : Option String
  createdAtMs : Int
  updatedAtMs : Int
  terminalAtMs : Option Int
  retentionAnchorMs : Int
  retainUntilMs : Int
deriving DecidableEq

/-- A row of `runner_handoffs`. -/
structure HandoffRow where
  operationKind : OperationKind
  payloadJson : String
  payloadDigest : Digest
  enqueuedAtMs : Int
  claimedAtMs : Option Int
  completedAtMs : Option Int
deriving DecidableEq

/-- A row of `operation_completion_intents`. -/
structure IntentRow where
  resultJson : String
  resultDigest : Digest
  decidedAtMs : Int
deriving DecidableEq

/-- A row of `operation_tombstones`. -/
structure TombstoneRow where
  repositoryId : String
  kind : OperationKind
  requiredCapabilitiesJson : String
  requiredCapabilitiesDigest : Digest
  inputDigest : Digest
  idempotencyKeyDigest : Digest
  expiredAtMs : Int
  tombstoneUntilMs : Int
deriving DecidableEq

variable (C : Codec)

/-! ### Decoding -/

/-- The lease columns of `decode_operation`. -/
def decodeLease (raw : OperationRow) : Except JournalError (Option OperationLease) :=
  match raw.leaseOwner, raw.leaseTokenDigest, raw.leaseExpiresAtMs with
  | none, none, none => .ok none
  | some owner, some tokenDigest, some expiresAtMs => do
    check (raw.status.isTerminal = false ∧ raw.createdAtMs < expiresAtMs ∧
      expiresAtMs ≤ raw.executionDeadlineMs) .integrityFailure
    let owner ← orElse (LeaseOwner.parse owner) .integrityFailure
    return some ⟨owner, tokenDigest, expiresAtMs⟩
  | _, _, _ => .error .integrityFailure

/-- A payload column of `decode_operation`. -/
def decodePayload (encoded : Option String) : Except JournalError (Option CanonicalJson) :=
  match encoded with
  | none => .ok none
  | some encoded => do
    let payload ← CanonicalJson.fromDatabase C encoded
    return some payload

/-- The payload columns a status requires. -/
def payloadsAgree (status : OperationStatus) (terminalAtMs : Option Int)
    (result error : Option CanonicalJson) : Bool :=
  match status with
  | .queued | .running | .cancelling => terminalAtMs.isNone && result.isNone && error.isNone
  | .completed => result.isSome && error.isNone && terminalAtMs.isSome
  | .failed => result.isNone && error.isSome && terminalAtMs.isSome
  | .cancelled => result.isNone && error.isNone && terminalAtMs.isSome

def decodeOperation (id : String) (raw : OperationRow) : Except JournalError OperationRecord := do
  let operationId ← OperationId.parse id
  validateOperationId operationId
  let repositoryId ← LogicalRepositoryId.parse raw.repositoryId
  let requiredCapabilities ←
    CapabilitySet.fromDatabase C raw.requiredCapabilitiesJson raw.requiredCapabilitiesDigest
  check (requiredCapabilities = raw.kind.requiredCapabilities C) .integrityFailure
  let normalizedInput ← CanonicalInput.fromDatabase C raw.inputJson raw.inputDigest
  let unbounded := raw.executionDeadlineMs = unboundedScanDeadlineMs
  check (unbounded → raw.kind = .scanSubmit) .integrityFailure
  check (0 ≤ raw.progressCompleted ∧ 0 ≤ raw.progressTotal) .integrityFailure
  let progress ← orElse
    (OperationProgress.new raw.progressCompleted.toNat raw.progressTotal.toNat) .integrityFailure
  orElse (validateTimestamp raw.createdAtMs) .integrityFailure
  let maximumSubmittedRetainUntilMs ←
    orElse (checkedAdd raw.createdAtMs maxTaskTtlMs) .integrityFailure
  let submittedRetainUntilMs ←
    orElse (checkedAdd raw.executionDeadlineMs terminalRetentionMs) .integrityFailure
  let anchoredRetainUntilMs ←
    orElse (checkedAdd raw.retentionAnchorMs terminalRetentionMs) .integrityFailure
  check (raw.createdAtMs ≤ raw.updatedAtMs ∧
    raw.updatedAtMs ≤ raw.executionDeadlineMs ∧
    raw.createdAtMs < raw.executionDeadlineMs ∧
    (¬ unbounded → submittedRetainUntilMs ≤ maximumSubmittedRetainUntilMs) ∧
    (¬ unbounded → raw.executionDeadlineMs ≤ raw.retentionAnchorMs) ∧
    (unbounded → raw.status.isTerminal = false →
      raw.retentionAnchorMs = raw.executionDeadlineMs) ∧
    (unbounded → raw.status.isTerminal = true →
      raw.retentionAnchorMs ≠ raw.executionDeadlineMs) ∧
    raw.retainUntilMs = anchoredRetainUntilMs) .integrityFailure
  let lease ← decodeLease raw
  check (raw.status = .queued → lease = none) .integrityFailure
  let result ← decodePayload C raw.resultJson
  let error ← decodePayload C raw.errorJson
  check (payloadsAgree raw.status raw.terminalAtMs result error = true) .integrityFailure
  check (∀ terminalAtMs ∈ raw.terminalAtMs, raw.createdAtMs ≤ terminalAtMs ∧
    terminalAtMs ≤ raw.executionDeadlineMs ∧ terminalAtMs = raw.updatedAtMs ∧
    terminalAtMs ≤ raw.retentionAnchorMs) .integrityFailure
  -- only completion decisions can be recovered after their submitted retention window
  check (raw.retentionAnchorMs ≠ raw.executionDeadlineMs →
    (unbounded ∨ raw.status = .completed) ∧ raw.terminalAtMs.isSome = true) .integrityFailure
  return {
    operationId, repositoryId, kind := raw.kind, requiredCapabilities, normalizedInput,
    inputDigest := normalizedInput.digest, idempotencyKeyDigest := raw.idempotencyKeyDigest,
    status := raw.status, progress, lease, executionDeadlineMs := raw.executionDeadlineMs,
    result, error, createdAtMs := raw.createdAtMs, updatedAtMs := raw.updatedAtMs,
    terminalAtMs := raw.terminalAtMs, retentionAnchorMs := raw.retentionAnchorMs,
    retainUntilMs := raw.retainUntilMs }

def decodeHandoff (id : String) (raw : HandoffRow) : Except JournalError RunnerHandoff := do
  let operationId ← OperationId.parse id
  validateOperationId operationId
  let payload ← CanonicalInput.fromDatabase C raw.payloadJson raw.payloadDigest
  orElse (validateTimestamp raw.enqueuedAtMs) .integrityFailure
  check ((∀ claimedAtMs ∈ raw.claimedAtMs, raw.enqueuedAtMs ≤ claimedAtMs) ∧
    ∀ completedAtMs ∈ raw.completedAtMs, raw.enqueuedAtMs ≤ completedAtMs ∧
      ∀ claimedAtMs ∈ raw.claimedAtMs, claimedAtMs ≤ completedAtMs) .integrityFailure
  return {
    operationId, operationKind := raw.operationKind, payload, payloadDigest := payload.digest,
    enqueuedAtMs := raw.enqueuedAtMs, claimedAtMs := raw.claimedAtMs,
    completedAtMs := raw.completedAtMs }

def validateOperationHandoff (operation : OperationRecord) (handoff : RunnerHandoff) :
    Except JournalError Unit :=
  check (handoff.operationId = operation.operationId ∧
    handoff.operationKind = operation.kind ∧
    handoff.payload = operation.normalizedInput ∧
    handoff.payloadDigest = operation.inputDigest ∧
    handoff.enqueuedAtMs = operation.createdAtMs ∧
    (∀ claimedAtMs ∈ handoff.claimedAtMs, claimedAtMs ≤ operation.updatedAtMs) ∧
    handoff.completedAtMs = operation.terminalAtMs ∧
    (operation.status = .queued → handoff.claimedAtMs = none) ∧
    (operation.status = .running → handoff.claimedAtMs ≠ none) ∧
    (operation.lease ≠ none → handoff.claimedAtMs ≠ none) ∧
    (operation.status = .completed ∨ operation.status = .cancelled →
      handoff.claimedAtMs ≠ none) ∧
    (operation.status = .failed → handoff.claimedAtMs = none →
      operation.terminalAtMs = some operation.executionDeadlineMs ∧
      operation.error = some ⟨deadlineExceededErrorJson⟩)) .integrityFailure

/-! ### What the checks require -/

/-- A text that is stored as an input with a digest. -/
structure InputReads (encoded : String) (digest : Digest) : Prop where
  size : encoded.utf8ByteSize ≤ maxOperationInputBytes
  canonical : C.isCanonical encoded = true
  digest_eq : C.digest encoded = digest

/-- A text that is stored as a result or an error. -/
structure PayloadReads (encoded : String) : Prop where
  size : encoded.utf8ByteSize ≤ maxTerminalPayloadBytes
  canonical : C.isCanonical encoded = true

/-- The identifiers that the journal makes itself. -/
def JournalId (id : String) : Prop :=
  validOperationId id = true ∧
    ∃ digits, operationIdDigits id = some digits ∧ digits.length = 32 ∧ digits.all isLowerHex = true

/-- The lease that the lease columns stand for. -/
def leaseOf (raw : OperationRow) : Option OperationLease :=
  match raw.leaseOwner, raw.leaseTokenDigest, raw.leaseExpiresAtMs with
  | some owner, some tokenDigest, some expiresAtMs =>
    if h : validLeaseOwner owner = true then some ⟨⟨owner, h⟩, tokenDigest, expiresAtMs⟩ else none
  | _, _, _ => none

/-- The lease columns are all empty, or hold a lease within the life of the operation. -/
def LeaseValid (raw : OperationRow) : Prop :=
  (raw.leaseOwner = none ∧ raw.leaseTokenDigest = none ∧ raw.leaseExpiresAtMs = none) ∨
  ∃ owner tokenDigest expiresAtMs,
    (raw.leaseOwner = some owner ∧ raw.leaseTokenDigest = some tokenDigest ∧
      raw.leaseExpiresAtMs = some expiresAtMs) ∧
    (raw.status.isTerminal = false ∧ raw.createdAtMs < expiresAtMs ∧
      expiresAtMs ≤ raw.executionDeadlineMs) ∧
    validLeaseOwner owner = true

/-- What `decode_operation` requires of a row. -/
structure RowValid (id : String) (raw : OperationRow) : Prop where
  id : JournalId id
  repository : validLogicalRepositoryId raw.repositoryId = true
  capabilities : CapabilitySet.fromDatabase C raw.requiredCapabilitiesJson
    raw.requiredCapabilitiesDigest = .ok (raw.kind.requiredCapabilities C)
  input : InputReads C raw.inputJson raw.inputDigest
  unbounded_scan : raw.executionDeadlineMs = unboundedScanDeadlineMs → raw.kind = .scanSubmit
  progress_nonneg : 0 ≤ raw.progressCompleted
  progress_le : raw.progressCompleted ≤ raw.progressTotal
  total_pos : 0 < raw.progressTotal
  total_le : raw.progressTotal ≤ maxProgressUnits
  created_nonneg : 0 ≤ raw.createdAtMs
  created_ttl : raw.createdAtMs + maxTaskTtlMs ≤ i64Max
  deadline_retention : raw.executionDeadlineMs + terminalRetentionMs ≤ i64Max
  anchor_retention : raw.retentionAnchorMs + terminalRetentionMs ≤ i64Max
  created_le : raw.createdAtMs ≤ raw.updatedAtMs
  updated_le : raw.updatedAtMs ≤ raw.executionDeadlineMs
  created_lt : raw.createdAtMs < raw.executionDeadlineMs
  ttl : raw.executionDeadlineMs ≠ unboundedScanDeadlineMs →
    raw.executionDeadlineMs + terminalRetentionMs ≤ raw.createdAtMs + maxTaskTtlMs
  anchor_ge : raw.executionDeadlineMs ≠ unboundedScanDeadlineMs →
    raw.executionDeadlineMs ≤ raw.retentionAnchorMs
  anchor_active : raw.executionDeadlineMs = unboundedScanDeadlineMs →
    raw.status.isTerminal = false → raw.retentionAnchorMs = raw.executionDeadlineMs
  anchor_terminal : raw.executionDeadlineMs = unboundedScanDeadlineMs →
    raw.status.isTerminal = true → raw.retentionAnchorMs ≠ raw.executionDeadlineMs
  retain_eq : raw.retainUntilMs = raw.retentionAnchorMs + terminalRetentionMs
  lease : LeaseValid raw
  queued_lease : raw.status = .queued → leaseOf raw = none
  result : ∀ encoded ∈ raw.resultJson, PayloadReads C encoded
  error : ∀ encoded ∈ raw.errorJson, PayloadReads C encoded
  payloads : payloadsAgree raw.status raw.terminalAtMs (raw.resultJson.map CanonicalJson.mk)
    (raw.errorJson.map CanonicalJson.mk) = true
  terminal : ∀ terminalAtMs ∈ raw.terminalAtMs, raw.createdAtMs ≤ terminalAtMs ∧
    terminalAtMs ≤ raw.executionDeadlineMs ∧ terminalAtMs = raw.updatedAtMs ∧
    terminalAtMs ≤ raw.retentionAnchorMs
  late_anchor : raw.retentionAnchorMs ≠ raw.executionDeadlineMs →
    (raw.executionDeadlineMs = unboundedScanDeadlineMs ∨ raw.status = .completed) ∧
      raw.terminalAtMs.isSome = true

variable {C}

/-- The record of a valid row. -/
def recordOf {id : String} {raw : OperationRow} (v : RowValid C id raw) : OperationRecord where
  operationId := ⟨id, v.id.1⟩
  repositoryId := ⟨raw.repositoryId, v.repository⟩
  kind := raw.kind
  requiredCapabilities := raw.kind.requiredCapabilities C
  normalizedInput := ⟨raw.inputJson, raw.inputDigest⟩
  inputDigest := raw.inputDigest
  idempotencyKeyDigest := raw.idempotencyKeyDigest
  status := raw.status
  progress := ⟨raw.progressCompleted.toNat, raw.progressTotal.toNat,
    by have := v.total_pos; omega, by have := v.total_le; omega,
    by have := v.progress_le; omega⟩
  lease := leaseOf raw
  executionDeadlineMs := raw.executionDeadlineMs
  result := raw.resultJson.map CanonicalJson.mk
  error := raw.errorJson.map CanonicalJson.mk
  createdAtMs := raw.createdAtMs
  updatedAtMs := raw.updatedAtMs
  terminalAtMs := raw.terminalAtMs
  retentionAnchorMs := raw.retentionAnchorMs
  retainUntilMs := raw.retainUntilMs

theorem OperationId.parse_eq_ok {value : String} {id : OperationId} :
    OperationId.parse value = .ok id ↔ id.str = value := by
  unfold parse
  split_ifs with h
  · cases id; simp [eq_comm]
  · simp only [false_iff]
    rintro rfl
    exact h id.valid

theorem OperationId.parse_str (id : OperationId) : OperationId.parse id.str = .ok id :=
  parse_eq_ok.2 rfl

theorem LogicalRepositoryId.parse_eq_ok {value : String} {id : LogicalRepositoryId} :
    LogicalRepositoryId.parse value = .ok id ↔ id.str = value := by
  unfold parse
  split_ifs with h
  · cases id; simp [eq_comm]
  · simp only [false_iff]
    rintro rfl
    exact h id.valid

theorem LeaseOwner.parse_eq_ok {value : String} {owner : LeaseOwner} :
    LeaseOwner.parse value = .ok owner ↔ owner.str = value := by
  unfold parse
  split_ifs with h
  · cases owner; simp [eq_comm]
  · simp only [false_iff]
    rintro rfl
    exact h owner.valid

theorem validateOperationId_eq_ok {id : OperationId} {u : Unit} :
    validateOperationId id = .ok u ↔ JournalId id.str := by
  unfold validateOperationId JournalId
  cases h : operationIdDigits id.str with
  | none => simp
  | some digits => simp [id.valid]

theorem validateTimestamp_eq_ok {timestampMs : Int} {u : Unit} :
    validateTimestamp timestampMs = .ok u ↔ 0 ≤ timestampMs := by
  simp [validateTimestamp]

theorem CanonicalInput.fromDatabase_eq_ok {encoded : String} {digest : Digest}
    {input : CanonicalInput} : CanonicalInput.fromDatabase C encoded digest = .ok input ↔
      InputReads C encoded digest ∧ input = ⟨encoded, digest⟩ := by
  simp only [fromDatabase, bind_eq_ok, check_eq_ok, exists_const, pure, Except.pure,
    Except.ok.injEq]
  constructor
  · rintro ⟨hsize, hcanonical, hdigest, rfl⟩
    exact ⟨⟨hsize, hcanonical, hdigest⟩, by rw [hdigest]⟩
  · rintro ⟨⟨hsize, hcanonical, hdigest⟩, rfl⟩
    exact ⟨hsize, hcanonical, hdigest, by rw [hdigest]⟩

theorem CanonicalJson.fromDatabase_eq_ok {encoded : String} {payload : CanonicalJson} :
    CanonicalJson.fromDatabase C encoded = .ok payload ↔
      PayloadReads C encoded ∧ payload = ⟨encoded⟩ := by
  simp only [fromDatabase, bind_eq_ok, check_eq_ok, exists_const, pure, Except.pure,
    Except.ok.injEq]
  constructor
  · rintro ⟨hsize, hcanonical, rfl⟩
    exact ⟨⟨hsize, hcanonical⟩, rfl⟩
  · rintro ⟨⟨hsize, hcanonical⟩, rfl⟩
    exact ⟨hsize, hcanonical, rfl⟩

theorem decodePayload_eq_ok {encoded : Option String} {payload : Option CanonicalJson} :
    decodePayload C encoded = .ok payload ↔
      (∀ text ∈ encoded, PayloadReads C text) ∧ payload = encoded.map CanonicalJson.mk := by
  cases encoded with
  | none => simp [decodePayload, eq_comm]
  | some text =>
    simp only [decodePayload, bind_eq_ok, CanonicalJson.fromDatabase_eq_ok, pure, Except.pure,
      Except.ok.injEq, Option.mem_def, Option.some.injEq, forall_eq', Option.map_some]
    constructor
    · rintro ⟨_, ⟨h, rfl⟩, rfl⟩
      exact ⟨h, rfl⟩
    · rintro ⟨h, rfl⟩
      exact ⟨_, ⟨h, rfl⟩, rfl⟩

theorem decodeLease_eq_ok {raw : OperationRow} {lease : Option OperationLease} :
    decodeLease raw = .ok lease ↔ LeaseValid raw ∧ lease = leaseOf raw := by
  unfold decodeLease LeaseValid leaseOf
  rcases raw.leaseOwner with _ | owner <;> rcases raw.leaseTokenDigest with _ | tokenDigest <;>
    rcases raw.leaseExpiresAtMs with _ | expiresAtMs
  case none.none.none => simpa using eq_comm
  case some.some.some =>
    simp only [bind_eq_ok, check_eq_ok, orElse_eq_ok, LeaseOwner.parse_eq_ok, pure, Except.pure,
      Except.ok.injEq, exists_const]
    constructor
    · rintro ⟨hwindow, parsed, rfl, rfl⟩
      exact ⟨Or.inr ⟨_, _, _, ⟨rfl, rfl, rfl⟩, hwindow, parsed.valid⟩, by rw [dif_pos parsed.valid]⟩
    · rintro ⟨⟨h, -⟩ | ⟨_, _, _, ⟨⟨⟩, ⟨⟩, ⟨⟩⟩, hwindow, hvalid⟩, rfl⟩
      · cases h
      · exact ⟨hwindow, ⟨owner, hvalid⟩, rfl, by rw [dif_pos hvalid]⟩
  all_goals simp

theorem OperationProgress.new_eq_ok {completed total : Nat} {progress : OperationProgress} :
    OperationProgress.new completed total = .ok progress ↔
      progress.completedUnits = completed ∧ progress.totalUnits = total := by
  unfold new
  split_ifs with h
  · cases progress; simp [eq_comm]
  · simp only [false_iff, not_and]
    rintro rfl rfl
    exact h ⟨progress.total_pos, progress.total_le, progress.completed_le⟩

/-- **Decoding succeeds on the valid rows, and reads off their columns.** -/
theorem decodeOperation_eq_ok {id : String} {raw : OperationRow} {record : OperationRecord} :
    decodeOperation C id raw = .ok record ↔
      ∃ v : RowValid C id raw, record = recordOf v := by
  simp only [decodeOperation, bind_eq_ok, check_eq_ok, orElse_eq_ok, exists_const, pure,
    Except.pure, Except.ok.injEq, OperationId.parse_eq_ok, validateOperationId_eq_ok,
    LogicalRepositoryId.parse_eq_ok, CanonicalInput.fromDatabase_eq_ok,
    OperationProgress.new_eq_ok, validateTimestamp_eq_ok, checkedAdd_eq_ok, decodeLease_eq_ok,
    decodePayload_eq_ok]
  constructor
  · rintro ⟨⟨_, hid⟩, rfl, hjid, ⟨_, hrep⟩, rfl, _, hcaps, rfl, _, ⟨hinput, rfl⟩, hscan, hnonneg,
      ⟨_, _, htotal_pos, htotal_le, hcompleted_le⟩, ⟨rfl, rfl⟩, hcreated, _, ⟨hcttl, rfl⟩, _,
      ⟨hdret, rfl⟩, _, ⟨haret, rfl⟩, ⟨h1, h2, h3, h4, h5, h6, h7, h8⟩, _, ⟨hlease, rfl⟩, hqueued, _,
      ⟨hresult, rfl⟩, _, ⟨herror, rfl⟩, hpay, hterm, hlate, rfl⟩
    refine ⟨⟨hjid, hrep, hcaps, hinput, hscan, hnonneg.1, by omega, by omega, by omega, hcreated,
      hcttl, hdret, haret, h1, h2, h3, h4, h5, h6, h7, h8, hlease, hqueued, hresult, herror, hpay,
      hterm, hlate⟩, ?_⟩
    rfl
  · rintro ⟨v, rfl⟩
    have := v.total_pos
    exact ⟨⟨id, v.id.1⟩, rfl, v.id, ⟨_, v.repository⟩, rfl, _, v.capabilities, rfl, _,
      ⟨v.input, rfl⟩, v.unbounded_scan, ⟨v.progress_nonneg, by omega⟩, (recordOf v).progress,
      ⟨rfl, rfl⟩, v.created_nonneg, _, ⟨v.created_ttl, rfl⟩, _, ⟨v.deadline_retention, rfl⟩, _,
      ⟨v.anchor_retention, rfl⟩, ⟨v.created_le, v.updated_le, v.created_lt, v.ttl, v.anchor_ge,
      v.anchor_active, v.anchor_terminal, v.retain_eq⟩, _, ⟨v.lease, rfl⟩, v.queued_lease, _,
      ⟨v.result, rfl⟩, _, ⟨v.error, rfl⟩, v.payloads, v.terminal, v.late_anchor, rfl⟩

/-- An active operation has no terminal columns, and is retained from its deadline on. -/
theorem RowValid.active {id : String} {row : OperationRow} (v : RowValid C id row)
    (h : row.status.isTerminal = false) : row.terminalAtMs = none ∧ row.resultJson = none ∧
      row.errorJson = none ∧ row.retentionAnchorMs = row.executionDeadlineMs := by
  have hpayloads := v.payloads
  obtain ⟨hterminal, hresult, herror⟩ : row.terminalAtMs = none ∧ row.resultJson = none ∧
      row.errorJson = none := by
    cases hstatus : row.status <;> simp_all [payloadsAgree, OperationStatus.isTerminal]
  refine ⟨hterminal, hresult, herror, by_contra fun hne => ?_⟩
  have := (v.late_anchor hne).2
  simp [hterminal] at this

/-! ### Operations and their handoffs -/

variable (C) in
/-- What `decode_handoff` requires of a row. -/
structure HandoffValid (id : String) (raw : HandoffRow) : Prop where
  id : JournalId id
  payload : InputReads C raw.payloadJson raw.payloadDigest
  enqueued_nonneg : 0 ≤ raw.enqueuedAtMs
  claimed_ge : ∀ claimedAtMs ∈ raw.claimedAtMs, raw.enqueuedAtMs ≤ claimedAtMs
  completed_ge : ∀ completedAtMs ∈ raw.completedAtMs, raw.enqueuedAtMs ≤ completedAtMs ∧
    ∀ claimedAtMs ∈ raw.claimedAtMs, claimedAtMs ≤ completedAtMs

/-- The handoff of a valid row. -/
def handoffOf {id : String} {raw : HandoffRow} (v : HandoffValid C id raw) : RunnerHandoff where
  operationId := ⟨id, v.id.1⟩
  operationKind := raw.operationKind
  payload := ⟨raw.payloadJson, raw.payloadDigest⟩
  payloadDigest := raw.payloadDigest
  enqueuedAtMs := raw.enqueuedAtMs
  claimedAtMs := raw.claimedAtMs
  completedAtMs := raw.completedAtMs

theorem decodeHandoff_eq_ok {id : String} {raw : HandoffRow} {handoff : RunnerHandoff} :
    decodeHandoff C id raw = .ok handoff ↔
      ∃ v : HandoffValid C id raw, handoff = handoffOf v := by
  simp only [decodeHandoff, bind_eq_ok, check_eq_ok, orElse_eq_ok, exists_const, pure,
    Except.pure, Except.ok.injEq, OperationId.parse_eq_ok, validateOperationId_eq_ok,
    CanonicalInput.fromDatabase_eq_ok, validateTimestamp_eq_ok]
  constructor
  · rintro ⟨⟨_, hid⟩, rfl, hjid, _, ⟨hinput, rfl⟩, henqueued, ⟨hclaimed, hcompleted⟩, rfl⟩
    exact ⟨⟨hjid, hinput, henqueued, hclaimed, hcompleted⟩, rfl⟩
  · rintro ⟨v, rfl⟩
    exact ⟨⟨id, v.id.1⟩, rfl, v.id, _, ⟨v.payload, rfl⟩, v.enqueued_nonneg,
      ⟨v.claimed_ge, v.completed_ge⟩, rfl⟩

variable (C) in
/-- What `validated_record` requires of an operation and its handoff. -/
structure Matched (id : String) (row : OperationRow) (handoff : HandoffRow) : Prop where
  rowValid : RowValid C id row
  handoffValid : HandoffValid C id handoff
  kind : handoff.operationKind = row.kind
  payload : handoff.payloadJson = row.inputJson
  digest : handoff.payloadDigest = row.inputDigest
  enqueued : handoff.enqueuedAtMs = row.createdAtMs
  claimed_le : ∀ claimedAtMs ∈ handoff.claimedAtMs, claimedAtMs ≤ row.updatedAtMs
  completed : handoff.completedAtMs = row.terminalAtMs
  queued : row.status = .queued → handoff.claimedAtMs = none
  running : row.status = .running → handoff.claimedAtMs ≠ none
  leased : leaseOf row ≠ none → handoff.claimedAtMs ≠ none
  finished : row.status = .completed ∨ row.status = .cancelled → handoff.claimedAtMs ≠ none
  failed : row.status = .failed → handoff.claimedAtMs = none →
    row.terminalAtMs = some row.executionDeadlineMs ∧
      row.errorJson.map CanonicalJson.mk = some ⟨deadlineExceededErrorJson⟩

theorem validateOperationHandoff_eq_ok {id : String} {row : OperationRow} {handoff : HandoffRow}
    (v : RowValid C id row) (w : HandoffValid C id handoff) {u : Unit} :
    validateOperationHandoff (recordOf v) (handoffOf w) = .ok u ↔ Matched C id row handoff := by
  simp only [validateOperationHandoff, check_eq_ok, recordOf, handoffOf, CanonicalInput.mk.injEq]
  constructor
  · rintro ⟨-, hkind, ⟨hpayload, hdigest⟩, -, henqueued, hclaimed, hcompleted, hqueued, hrunning,
      hleased, hfinished, hfailed⟩
    exact ⟨v, w, hkind, hpayload, hdigest, henqueued, hclaimed, hcompleted, hqueued, hrunning,
      hleased, hfinished, hfailed⟩
  · intro m
    exact ⟨trivial, m.kind, ⟨m.payload, m.digest⟩, m.digest, m.enqueued, m.claimed_le, m.completed,
      m.queued, m.running, m.leased, m.finished, m.failed⟩

end Operation
