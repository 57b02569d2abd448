import Depgraph.Operation.Journal

/-!
# Leases and progress

`acquire_lease`, `renew_lease`, `release_lease` and `update_progress`: the methods that rewrite an
active operation without ending it. All of them read the record back before they commit.

Each `.._ok` lemma says everything a successful call does.
-/

namespace Operation

open Json Protocol Fallible

variable {C : Codec}

/-- The status of claimed work: claiming a queued operation starts it. -/
def claimedStatus (status : OperationStatus) : OperationStatus :=
  if status = .queued then .running else status

/-- The row of an operation whose lease has been given. -/
def leasedRow (owner : LeaseOwner) (tokenDigest : Digest) (leaseExpiresAtMs nowMs : Int)
    (row : OperationRow) : OperationRow :=
  { row with
    status := claimedStatus row.status
    leaseOwner := some owner.str, leaseTokenDigest := some tokenDigest
    leaseExpiresAtMs := some leaseExpiresAtMs, updatedAtMs := nowMs }

/-- `claimed_at_ms = COALESCE(claimed_at_ms, now)`. -/
def claimedHandoff (nowMs : Int) (row : HandoffRow) : HandoffRow :=
  { row with claimedAtMs := some (row.claimedAtMs.getD nowMs) }

/-- The row of an operation whose lease has been renewed. -/
def renewedRow (leaseExpiresAtMs nowMs : Int) (row : OperationRow) : OperationRow :=
  { row with leaseExpiresAtMs := some leaseExpiresAtMs, updatedAtMs := nowMs }

/-- The row of an operation whose lease has been released. -/
def releasedRow (nowMs : Int) (row : OperationRow) : OperationRow :=
  { row with
    leaseOwner := none, leaseTokenDigest := none, leaseExpiresAtMs := none, updatedAtMs := nowMs }

/-- The row of an operation that has made progress. -/
def progressedRow (completed total nowMs : Int) (row : OperationRow) : OperationRow :=
  { row with progressCompleted := completed, progressTotal := total, updatedAtMs := nowMs }

namespace Journal

variable (J : Journal C) (t : Tables) (root : RootSeal)

def acquireLease (repositoryId : LogicalRepositoryId) (id : OperationId) (owner : LeaseOwner)
    (leaseToken : List UInt8) (nowMs leaseExpiresAtMs : Int) :
    Except JournalError (Tables × OperationRecord) := do
  validateTimestamp nowMs
  J.validateRequestedRepository repositoryId
  let tokenDigest ← digestLeaseToken C leaseToken
  validateTransactionRoot root
  let record ← loadActiveRecord C t repositoryId id nowMs
  validateEnabledCapabilities record J.enabledCapabilities
  validateUpdateTime record nowMs
  validateLeaseWindow record nowMs leaseExpiresAtMs
  check (record.status.isTerminal = false) .invalidTransition
  check (∀ lease ∈ record.lease, lease.expiresAtMs ≤ nowMs) .leaseHeld
  let status := claimedStatus record.status
  check (status ≠ record.status → record.status.allowsTransitionTo status = true)
    .invalidTransition
  let (t, _) ← t.updateOperation id.str (fun _ => true)
    (leasedRow owner tokenDigest leaseExpiresAtMs nowMs)
  let (t, _) ← t.updateHandoff id.str (fun _ => true) (claimedHandoff nowMs)
  let record ← selectValidatedById C t id
  commitAuthorized root t record

def renewLease (repositoryId : LogicalRepositoryId) (id : OperationId) (leaseToken : List UInt8)
    (nowMs leaseExpiresAtMs : Int) : Except JournalError (Tables × OperationRecord) := do
  validateTimestamp nowMs
  J.validateRequestedRepository repositoryId
  let tokenDigest ← digestLeaseToken C leaseToken
  validateTransactionRoot root
  let record ← loadActiveRecord C t repositoryId id nowMs
  validateEnabledCapabilities record J.enabledCapabilities
  validateUpdateTime record nowMs
  validateLeaseWindow record nowMs leaseExpiresAtMs
  validateActiveLease record nowMs tokenDigest
  let (t, _) ← t.updateOperation id.str (fun _ => true) (renewedRow leaseExpiresAtMs nowMs)
  let record ← selectValidatedById C t id
  commitAuthorized root t record

def releaseLease (repositoryId : LogicalRepositoryId) (id : OperationId) (leaseToken : List UInt8)
    (nowMs : Int) : Except JournalError (Tables × OperationRecord) := do
  validateTimestamp nowMs
  J.validateRequestedRepository repositoryId
  let tokenDigest ← digestLeaseToken C leaseToken
  validateTransactionRoot root
  let record ← loadActiveRecord C t repositoryId id nowMs
  validateEnabledCapabilities record J.enabledCapabilities
  validateUpdateTime record nowMs
  validateBeforeDeadline record nowMs
  check (record.status.isTerminal = false) .invalidTransition
  validateLeaseToken record tokenDigest
  let (t, _) ← t.updateOperation id.str (fun _ => true) (releasedRow nowMs)
  let record ← selectValidatedById C t id
  commitAuthorized root t record

/-- `initializes_scan_plan`: the first real total of a scan, which is submitted with `0/1`. -/
def initializesScanPlan (record : OperationRecord) (progress : OperationProgress) : Prop :=
  record.kind = .scanSubmit ∧ record.progress.totalUnits = 1 ∧
    record.progress.completedUnits = 0 ∧ progress.completedUnits = 0 ∧ 1 < progress.totalUnits

instance (record : OperationRecord) (progress : OperationProgress) :
    Decidable (initializesScanPlan record progress) := by
  unfold initializesScanPlan
  infer_instance

def updateProgress (repositoryId : LogicalRepositoryId) (id : OperationId)
    (leaseToken : List UInt8) (progress : OperationProgress) (nowMs : Int) :
    Except JournalError (Tables × OperationRecord) := do
  validateTimestamp nowMs
  J.validateRequestedRepository repositoryId
  let tokenDigest ← digestLeaseToken C leaseToken
  validateTransactionRoot root
  let record ← loadActiveRecord C t repositoryId id nowMs
  validateEnabledCapabilities record J.enabledCapabilities
  validateUpdateTime record nowMs
  validateBeforeDeadline record nowMs
  check (record.status = .running ∨ record.status = .cancelling) .invalidTransition
  validateActiveLease record nowMs tokenDigest
  check ((progress.totalUnits = record.progress.totalUnits ∨
      initializesScanPlan record progress) ∧
    record.progress.completedUnits ≤ progress.completedUnits) .invalidArgument
  let completed ← u64ToI64 progress.completedUnits
  let total ← u64ToI64 progress.totalUnits
  let (t, _) ← t.updateOperation id.str (fun _ => true) (progressedRow completed total nowMs)
  let record ← selectValidatedById C t id
  commitAuthorized root t record

/-! ### What the methods do -/

variable {J t root} {repositoryId : LogicalRepositoryId} {id : OperationId}
  {leaseToken : List UInt8} {nowMs : Int} {t' : Tables} {record : OperationRecord}

/-- What every call under a lease token has found: an active operation before its deadline, and
the owner's token. -/
structure Admitted (J : Journal C) (t : Tables) (root : RootSeal)
    (repositoryId : LogicalRepositoryId) (id : OperationId) (nowMs : Int) (row : OperationRow)
    (handoff : HandoffRow) : Prop where
  stored : Stored C t repositoryId id nowMs row handoff
  capabilities : J.enabledCapabilities.containsAll (row.kind.requiredCapabilities C) = true
  before_deadline : nowMs < row.executionDeadlineMs
  begins : root.atBegin = true
  commits : root.atCommit = true

/-- The lease of the row has this token, and has not expired. -/
def HoldsToken (C : Codec) (row : OperationRow) (leaseToken : List UInt8) (nowMs : Int) : Prop :=
  ∃ lease, leaseOf row = some lease ∧ lease.tokenDigest = C.sha256 leaseToken ∧
    nowMs < lease.expiresAtMs

theorem acquireLease_ok {owner : LeaseOwner} {leaseExpiresAtMs : Int}
    (h : J.acquireLease t root repositoryId id owner leaseToken nowMs leaseExpiresAtMs =
      .ok (t', record)) :
    ∃ row handoff, Admitted J t root repositoryId id nowMs row handoff ∧
      (nowMs < leaseExpiresAtMs ∧ leaseExpiresAtMs ≤ row.executionDeadlineMs) ∧
      row.status.isTerminal = false ∧
      (∀ lease, leaseOf row = some lease → lease.expiresAtMs ≤ nowMs) ∧
      t' = (t.setOperation id.str (leasedRow owner (C.sha256 leaseToken) leaseExpiresAtMs nowMs
        row)).setHandoff id.str (claimedHandoff nowMs handoff) ∧
      Matched C id.str (leasedRow owner (C.sha256 leaseToken) leaseExpiresAtMs nowMs row)
        (claimedHandoff nowMs handoff) := by
  simp only [acquireLease, bind_eq_ok, validateTimestamp_eq_ok, exists_const,
    validateRequestedRepository_eq_ok, digestLeaseToken_eq_ok, validateTransactionRoot_eq_ok,
    loadActiveRecord_eq_ok, validateEnabledCapabilities, validateUpdateTime, validateLeaseWindow,
    validateBeforeDeadline, check_eq_ok, commitAuthorized_eq_ok] at h
  obtain ⟨-, -, _, ⟨-, rfl⟩, hbegin, _, ⟨row, handoff, s, -, rfl⟩, hcaps, -, ⟨hdeadline, hwindow⟩,
    hactive, hfree, -, ⟨t₁, _⟩, hop, ⟨t₂, _⟩, hho, _, hselect, hcommit, hr⟩ := h
  obtain ⟨-, ht₁⟩ := (Tables.updateOperation_eq_ok s.operation_eq rfl).1 hop
  obtain rfl : t₁ = _ := congrArg Prod.fst ht₁
  obtain ⟨-, ht₂⟩ := (Tables.updateHandoff_eq_ok (by exact s.handoff_eq) rfl).1 hho
  obtain rfl : t₂ = _ := congrArg Prod.fst ht₂
  obtain rfl : t' = _ := congrArg Prod.fst hr
  obtain ⟨m, -⟩ := matched_of_select _ hselect Tables.operations_setOperation_self
    Tables.handoffs_setHandoff_self
  exact ⟨row, handoff, ⟨s, hcaps, hdeadline, hbegin, hcommit⟩, hwindow, hactive, hfree, rfl, m⟩

theorem renewLease_ok {leaseExpiresAtMs : Int}
    (h : J.renewLease t root repositoryId id leaseToken nowMs leaseExpiresAtMs =
      .ok (t', record)) :
    ∃ row handoff, Admitted J t root repositoryId id nowMs row handoff ∧
      HoldsToken C row leaseToken nowMs ∧
      (nowMs < leaseExpiresAtMs ∧ leaseExpiresAtMs ≤ row.executionDeadlineMs) ∧
      t' = t.setOperation id.str (renewedRow leaseExpiresAtMs nowMs row) ∧
      Matched C id.str (renewedRow leaseExpiresAtMs nowMs row) handoff := by
  simp only [renewLease, bind_eq_ok, validateTimestamp_eq_ok, exists_const,
    validateRequestedRepository_eq_ok, digestLeaseToken_eq_ok, validateTransactionRoot_eq_ok,
    loadActiveRecord_eq_ok, validateEnabledCapabilities, validateUpdateTime, validateLeaseWindow,
    validateBeforeDeadline, validateActiveLease_eq_ok, check_eq_ok, commitAuthorized_eq_ok] at h
  obtain ⟨-, -, _, ⟨-, rfl⟩, hbegin, _, ⟨row, handoff, s, -, rfl⟩, hcaps, -, ⟨hdeadline, hwindow⟩,
    htoken, ⟨t₁, _⟩, hop, _, hselect, hcommit, hr⟩ := h
  obtain ⟨-, ht₁⟩ := (Tables.updateOperation_eq_ok s.operation_eq rfl).1 hop
  obtain rfl : t₁ = _ := congrArg Prod.fst ht₁
  obtain rfl : t' = _ := congrArg Prod.fst hr
  obtain ⟨m, -⟩ := matched_of_select _ hselect Tables.operations_setOperation_self s.handoff_eq
  exact ⟨row, handoff, ⟨s, hcaps, hdeadline, hbegin, hcommit⟩, htoken, hwindow, rfl, m⟩

theorem releaseLease_ok
    (h : J.releaseLease t root repositoryId id leaseToken nowMs = .ok (t', record)) :
    ∃ row handoff, Admitted J t root repositoryId id nowMs row handoff ∧
      (∃ lease, leaseOf row = some lease ∧ lease.tokenDigest = C.sha256 leaseToken) ∧
      row.status.isTerminal = false ∧ t' = t.setOperation id.str (releasedRow nowMs row) ∧
      Matched C id.str (releasedRow nowMs row) handoff := by
  simp only [releaseLease, bind_eq_ok, validateTimestamp_eq_ok, exists_const,
    validateRequestedRepository_eq_ok, digestLeaseToken_eq_ok, validateTransactionRoot_eq_ok,
    loadActiveRecord_eq_ok, validateEnabledCapabilities, validateUpdateTime,
    validateBeforeDeadline, validateLeaseToken_eq_ok, check_eq_ok, commitAuthorized_eq_ok] at h
  obtain ⟨-, -, _, ⟨-, rfl⟩, hbegin, _, ⟨row, handoff, s, -, rfl⟩, hcaps, -, hdeadline, hactive,
    htoken, ⟨t₁, _⟩, hop, _, hselect, hcommit, hr⟩ := h
  obtain ⟨-, ht₁⟩ := (Tables.updateOperation_eq_ok s.operation_eq rfl).1 hop
  obtain rfl : t₁ = _ := congrArg Prod.fst ht₁
  obtain rfl : t' = _ := congrArg Prod.fst hr
  obtain ⟨m, -⟩ := matched_of_select _ hselect Tables.operations_setOperation_self s.handoff_eq
  exact ⟨row, handoff, ⟨s, hcaps, hdeadline, hbegin, hcommit⟩, htoken, hactive, rfl, m⟩

theorem updateProgress_ok {progress : OperationProgress}
    (h : J.updateProgress t root repositoryId id leaseToken progress nowMs = .ok (t', record)) :
    ∃ row handoff, Admitted J t root repositoryId id nowMs row handoff ∧
      HoldsToken C row leaseToken nowMs ∧
      (row.status = .running ∨ row.status = .cancelling) ∧
      row.progressCompleted ≤ progress.completedUnits ∧
      ((progress.totalUnits : Int) = row.progressTotal ∨
        (row.kind = .scanSubmit ∧ row.progressTotal = 1 ∧ row.progressCompleted = 0 ∧
          progress.completedUnits = 0 ∧ 1 < progress.totalUnits)) ∧
      t' = t.setOperation id.str
        (progressedRow progress.completedUnits progress.totalUnits nowMs row) ∧
      Matched C id.str (progressedRow progress.completedUnits progress.totalUnits nowMs row)
        handoff := by
  simp only [updateProgress, bind_eq_ok, validateTimestamp_eq_ok, exists_const,
    validateRequestedRepository_eq_ok, digestLeaseToken_eq_ok, validateTransactionRoot_eq_ok,
    loadActiveRecord_eq_ok, validateEnabledCapabilities, validateUpdateTime,
    validateBeforeDeadline, validateActiveLease_eq_ok, check_eq_ok, u64ToI64_eq_ok,
    commitAuthorized_eq_ok] at h
  obtain ⟨-, -, _, ⟨-, rfl⟩, hbegin, _, ⟨row, handoff, s, -, rfl⟩, hcaps, -, hdeadline, hrunning,
    htoken, ⟨htotal, hcompleted⟩, _, ⟨-, rfl⟩, _, ⟨-, rfl⟩, ⟨t₁, _⟩, hop, _, hselect, hcommit,
    hr⟩ := h
  obtain ⟨-, ht₁⟩ := (Tables.updateOperation_eq_ok s.operation_eq rfl).1 hop
  obtain rfl : t₁ = _ := congrArg Prod.fst ht₁
  obtain rfl : t' = _ := congrArg Prod.fst hr
  obtain ⟨m, -⟩ := matched_of_select _ hselect Tables.operations_setOperation_self s.handoff_eq
  have hnonneg := s.matched.rowValid.progress_nonneg
  have htotal_pos := s.matched.rowValid.total_pos
  refine ⟨row, handoff, ⟨s, hcaps, hdeadline, hbegin, hcommit⟩, htoken, hrunning, ?_, ?_, rfl, m⟩
  · have : row.progressCompleted.toNat ≤ progress.completedUnits := hcompleted
    omega
  · rcases htotal with htotal | ⟨hkind, hone, hzero, hstart, hlt⟩
    · have : progress.totalUnits = row.progressTotal.toNat := htotal
      exact Or.inl (by omega)
    · have hone : row.progressTotal.toNat = 1 := hone
      have hzero : row.progressCompleted.toNat = 0 := hzero
      exact Or.inr ⟨hkind, by omega, by omega, hstart, hlt⟩

end Journal

end Operation
