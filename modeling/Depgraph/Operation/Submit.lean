import Depgraph.Operation.Journal

/-!
# Submission

`submit` inserts an operation and its runner handoff, unless its idempotency scope names an
operation that is already there. `submit_ok` says what a successful submission does.
-/

namespace Operation

open Json Protocol Fallible

variable {C : Codec}

/-! ### Requests -/

/-- What a request takes from the configuration of the service. -/
structure ServiceConfig where
  logicalRepositoryId : String
  capabilities : List AgentCapability
  bindingDigest : Digest
  /-- what `validate_live_root` finds -/
  rootInPlace : Bool

def SubmitRequest.new (config : ServiceConfig) (kind : OperationKind) (normalizedInput : Value)
    (idempotencyKey : List UInt8) (executionDeadlineMs : Int) :
    Except JournalError (SubmitRequest C) := do
  if hkind : executionDeadlineMs = unboundedScanDeadlineMs → kind = .scanSubmit then
    check (config.rootInPlace = true) .repositoryMismatch
    check (kind.profile.all (· ∈ config.capabilities) = true) .capabilityDenied
    let repositoryId ← LogicalRepositoryId.parse config.logicalRepositoryId
    validateSecretInput idempotencyKey maxIdempotencyKeyBytes
    let input ← CanonicalInput.new C normalizedInput
    return {
      repositoryId, repositoryBindingDigest := config.bindingDigest, kind
      requiredCapabilities := kind.requiredCapabilities C, normalizedInput := input
      inputDigest := input.digest, idempotencyKeyDigest := C.sha256 idempotencyKey
      executionDeadlineMs, initialProgress := ⟨0, 1, by decide, by decide, by decide⟩
      required_eq := rfl, digest_eq := rfl, progress_zero := rfl, unbounded_scan := hkind }
  else .error .invalidArgument

def SubmitRequest.withProgressTotal (request : SubmitRequest C) (totalUnits : Nat) :
    Except JournalError (SubmitRequest C) :=
  if h : 0 < totalUnits ∧ totalUnits ≤ maxProgressUnits then
    .ok { request with
      initialProgress := ⟨0, totalUnits, h.1, h.2, Nat.zero_le _⟩, progress_zero := rfl }
  else .error .invalidArgument

structure SubmitOutcome where
  record : OperationRecord
  created : Bool

/-- The scope of a request. -/
def SubmitRequest.scope (request : SubmitRequest C) : Scope :=
  ⟨request.repositoryId.str, request.kind, request.idempotencyKeyDigest⟩

def operationIdFromRandomBytes (randomBytes : Vector UInt8 16) :
    Except JournalError OperationId :=
  OperationId.parse (String.ofList ("op_".toList ++ randomBytes.toList.flatMap fun byte =>
    [hexDigit (byte.toNat / 16), hexDigit (byte.toNat % 16)]))

/-- `new_operation_id`; without random bytes the generator has failed. -/
def newOperationId (randomBytes : Option (Vector UInt8 16)) : Except JournalError OperationId := do
  let bytes ← required randomBytes .entropyUnavailable
  operationIdFromRandomBytes bytes

/-- The tombstone branch of `submit_with_clock`: an elapsed tombstone is dropped. -/
def resolveTombstone (t : Tables) (request : SubmitRequest C) (nowMs : Int) :
    Except JournalError Tables :=
  match t.selectTombstoneByScope request.scope with
  | none => .ok t
  | some (id, tombstone) => do
    validateTombstone C id tombstone
    check (tombstone.idempotencyKeyDigest = request.idempotencyKeyDigest) .integrityFailure
    if nowMs < tombstone.tombstoneUntilMs then do
      check (tombstone.inputDigest = request.inputDigest ∧
        tombstone.requiredCapabilitiesDigest = request.requiredCapabilities.digest)
        .idempotencyConflict
      .error .expired
    else return (t.deleteTombstone id).1

/-- The row that `submit_with_clock` inserts into `operations`. -/
def submittedRow (request : SubmitRequest C) (requiredCapabilitiesJson : String)
    (completed total retainUntilMs nowMs : Int) : OperationRow where
  repositoryId := request.repositoryId.str
  kind := request.kind
  requiredCapabilitiesJson := requiredCapabilitiesJson
  requiredCapabilitiesDigest := request.requiredCapabilities.digest
  inputJson := request.normalizedInput.encoded
  inputDigest := request.inputDigest
  idempotencyKeyDigest := request.idempotencyKeyDigest
  status := .queued
  progressCompleted := completed
  progressTotal := total
  leaseOwner := none
  leaseTokenDigest := none
  leaseExpiresAtMs := none
  executionDeadlineMs := request.executionDeadlineMs
  resultJson := none
  errorJson := none
  createdAtMs := nowMs
  updatedAtMs := nowMs
  terminalAtMs := none
  retentionAnchorMs := request.executionDeadlineMs
  retainUntilMs := retainUntilMs

/-- The row that `submit_with_clock` inserts into `runner_handoffs`. -/
def submittedHandoff (request : SubmitRequest C) (nowMs : Int) : HandoffRow where
  operationKind := request.kind
  payloadJson := request.normalizedInput.encoded
  payloadDigest := request.inputDigest
  enqueuedAtMs := nowMs
  claimedAtMs := none
  completedAtMs := none

/-- `submit_with_clock` for a scope without a live operation. -/
def submitNew (t : Tables) (root : RootSeal) (request : SubmitRequest C)
    (requiredCapabilitiesJson : String) (randomBytes : Option (Vector UInt8 16)) (nowMs : Int) :
    Except JournalError (Tables × SubmitOutcome) := do
  let t ← resolveTombstone t request nowMs
  check (nowMs < request.executionDeadlineMs) .invalidArgument
  let retainUntilMs ← checkedAdd request.executionDeadlineMs terminalRetentionMs
  let maximumRetainUntilMs ← checkedAdd nowMs maxTaskTtlMs
  check (maximumRetainUntilMs < retainUntilMs →
    request.executionDeadlineMs = unboundedScanDeadlineMs) .invalidArgument
  let id ← newOperationId randomBytes
  let completed ← u64ToI64 request.initialProgress.completedUnits
  let total ← u64ToI64 request.initialProgress.totalUnits
  let t ← t.insertOperation id.str
    (submittedRow request requiredCapabilitiesJson completed total retainUntilMs nowMs)
  let t ← t.insertHandoff id.str (submittedHandoff request nowMs)
  let record ← selectValidatedById C t id
  commitAuthorized root t ⟨record, true⟩

namespace Journal

variable (J : Journal C) (t : Tables) (root : RootSeal)

def validateSubmitRequestAuthority (request : SubmitRequest C) :
    Except JournalError Unit := do
  check (request.repositoryId = J.repositoryId ∧
    request.repositoryBindingDigest = J.bindingDigest) .repositoryMismatch
  let requiredCapabilities := request.kind.requiredCapabilities C
  check (request.requiredCapabilities = requiredCapabilities) .integrityFailure
  check (J.enabledCapabilities.containsAll requiredCapabilities = true) .capabilityDenied

/-- `submit_with_clock`. -/
def submit (request : SubmitRequest C) (randomBytes : Option (Vector UInt8 16))
    (nowMs : Int) : Except JournalError (Tables × SubmitOutcome) := do
  J.validateSubmitRequestAuthority request
  let requiredCapabilitiesJson ← request.requiredCapabilities.canonicalJson C
  validateTransactionRoot root
  validateTimestamp nowMs
  J.validateSubmitRequestAuthority request
  match t.selectOperationByScope request.scope with
  | some (id, raw) => do
    let record ← validatedRecord C t id raw
    validateRecordNotFromFuture record nowMs
    validateRepository record request.repositoryId
    check (record.inputDigest = request.inputDigest ∧
      record.normalizedInput = request.normalizedInput ∧
      record.requiredCapabilities = request.requiredCapabilities) .idempotencyConflict
    check (nowMs < record.retainUntilMs) .expired
    commitAuthorized root t ⟨record, false⟩
  | none => submitNew t root request requiredCapabilitiesJson randomBytes nowMs

/-! ### What a submission does -/

/-- Nothing that is live or reserved has this identifier or this scope. -/
structure Free (t : Tables) (id : String) (scope : Scope) : Prop where
  operation : t.operations[id]? = none
  handoff : t.handoffs[id]? = none
  tombstone : t.tombstones[id]? = none
  operation_scope : ∀ (key : String) (row : OperationRow), t.operations[key]? = some row → row.scope ≠ scope
  tombstone_scope : ∀ (key : String) (row : TombstoneRow), t.tombstones[key]? = some row → row.scope ≠ scope

theorem selectOperationByScope_eq_none {t : Tables} {scope : Scope} :
    t.selectOperationByScope scope = none ↔
      ∀ (key : String) (row : OperationRow), t.operations[key]? = some row → row.scope ≠ scope := by
  simp only [Tables.selectOperationByScope, List.find?_eq_none, Prod.forall, Table.mem_toList,
    beq_iff_eq, ne_eq]

theorem selectTombstoneByScope_eq_none {t : Tables} {scope : Scope} :
    t.selectTombstoneByScope scope = none ↔
      ∀ (key : String) (row : TombstoneRow), t.tombstones[key]? = some row → row.scope ≠ scope := by
  simp only [Tables.selectTombstoneByScope, List.find?_eq_none, Prod.forall, Table.mem_toList,
    beq_iff_eq, ne_eq]

theorem resolveTombstone_ok {t t' : Tables} {request : SubmitRequest C} {nowMs : Int}
    (h : resolveTombstone t request nowMs = .ok t') :
    t' = t ∨ ∃ id tombstone, t.tombstones[id]? = some tombstone ∧
      tombstone.tombstoneUntilMs ≤ nowMs ∧ t' = (t.deleteTombstone id).1 := by
  unfold resolveTombstone at h
  split at h
  · exact Or.inl (Except.ok.inj h).symm
  · next id tombstone hselect =>
    simp only [bind_eq_ok, check_eq_ok, exists_const] at h
    obtain ⟨_, -, -, h⟩ := h
    split_ifs at h with hreserved
    · simp at h
    · have hfound := List.mem_of_find?_eq_some hselect
      exact Or.inr ⟨id, tombstone, Table.mem_toList.1 hfound, not_lt.1 hreserved,
        (Except.ok.inj h).symm⟩

/-- **A submission finds the operation of its scope and changes nothing, or adds one operation with
its handoff under an identifier and a scope that are free once an elapsed tombstone is gone.** -/
theorem submit_ok {J : Journal C} {t t' : Tables} {root : RootSeal} {request : SubmitRequest C}
    {randomBytes : Option (Vector UInt8 16)} {nowMs : Int} {outcome : SubmitOutcome}
    (h : J.submit t root request randomBytes nowMs = .ok (t', outcome)) :
    (t' = t ∧ outcome.created = false) ∨ ∃ t₁ id json completed total retainUntilMs handoff,
      outcome.created = true ∧ outcome.record.operationId.str = id ∧
      (t₁ = t ∨ ∃ key tombstone, t.tombstones[key]? = some tombstone ∧
        tombstone.tombstoneUntilMs ≤ nowMs ∧ t₁ = (t.deleteTombstone key).1) ∧
      Free t₁ id request.scope ∧ request.repositoryId = J.repositoryId ∧
      t' = (t₁.setOperation id
        (submittedRow request json completed total retainUntilMs nowMs)).setHandoff id handoff ∧
      Matched C id (submittedRow request json completed total retainUntilMs nowMs) handoff := by
  simp only [submit, validateSubmitRequestAuthority, bind_eq_ok, check_eq_ok, exists_const,
    validateTimestamp_eq_ok, validateTransactionRoot_eq_ok] at h
  obtain ⟨⟨⟨hrepository, -⟩, -⟩, json, -, -, -, -, h⟩ := h
  split at h
  · simp only [bind_eq_ok, commitAuthorized_eq_ok] at h
    obtain ⟨_, -, _, -, _, -, _, -, _, -, -, hr⟩ := h
    obtain ⟨rfl, rfl⟩ := Prod.mk.inj hr
    exact Or.inl ⟨rfl, rfl⟩
  · simp only [submitNew, bind_eq_ok, check_eq_ok, exists_const, Tables.insertOperation,
      Tables.insertHandoff, pure, Except.pure, Except.ok.injEq, commitAuthorized_eq_ok] at h
    obtain ⟨t₁, hresolved, -, _, -, _, -, -, id, -, _, -, _, -, _,
      ⟨⟨hop, hopscope⟩, ⟨htomb, htombscope⟩, -, rfl⟩, _, ⟨⟨-, hho, -⟩, rfl⟩, _, hselect, -, hr⟩ := h
    obtain ⟨rfl, rfl⟩ := Prod.mk.inj hr
    obtain ⟨m, rfl⟩ := matched_of_select _ hselect Tables.operations_setOperation_self
      Tables.handoffs_setHandoff_self
    exact Or.inr ⟨t₁, id.str, _, _, _, _, _, rfl, rfl, resolveTombstone_ok hresolved,
      ⟨hop, hho, htomb, selectOperationByScope_eq_none.1 hopscope,
        selectTombstoneByScope_eq_none.1 htombscope⟩, hrepository, rfl, m⟩

end Journal

end Operation
