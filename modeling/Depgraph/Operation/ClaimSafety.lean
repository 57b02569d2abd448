import Depgraph.Operation.History

/-!
# When a claim succeeds

In a reachable state a claim with valid arguments succeeds, unless it fails a project execution
that was cancelled before anybody claimed it: such a row cannot be read back, and the claim ends
with an integrity failure.

* `failLost_isOk` and `failLost_unclaimed` are the two outcomes for one lost project execution;
  `failLostIds_isOk` and `failLostIds_unclaimed` follow the loop over all of them.
* `claimCandidate_isOk`: leasing a candidate succeeds.
-/

namespace Operation

open Protocol Fallible TimedRun SortDedup

section

variable {C : Codec} {repositoryId : LogicalRepositoryId} {t t' : Tables} {nowMs : Int}

/-! ### Lost project executions -/

/-- A row that decodes and a handoff that decodes, but do not match, fail the reading back. -/
theorem selectValidatedById_mismatch {id : OperationId} {row : OperationRow}
    {handoff : HandoffRow} (hrow : t.operations[id.str]? = some row)
    (hhandoff : t.handoffs[id.str]? = some handoff) (v : RowValid C id.str row)
    (w : HandoffValid C id.str handoff) (hmismatch : ¬ Matched C id.str row handoff) :
    selectValidatedById C t id = .error .integrityFailure := by
  have hvalidate : validateOperationHandoff (recordOf v) (handoffOf w) =
      .error .integrityFailure :=
    check_of_not (fun h => hmismatch ((validateOperationHandoff_eq_ok v w).1 (check_of h _))) _
  simp only [selectValidatedById, hrow, required_some, ok_bind, validatedRecord, hhandoff,
    decodeOperation_eq_ok.2 ⟨v, rfl⟩, decodeHandoff_eq_ok.2 ⟨w, rfl⟩, hvalidate, error_bind]

/-- The tables in which a project execution has failed. -/
def unknownTables (t : Tables) (id : String) (nowMs : Int) (row : OperationRow)
    (handoff : HandoffRow) : Tables :=
  (t.setOperation id (failedRow executionStateUnknownErrorJson nowMs row.retainUntilMs
    row)).setHandoff id (completedHandoff nowMs handoff)

/-- The failure of a lost project execution writes the row and reads it back. -/
theorem transitionToExecutionStateUnknown_eq {id : OperationId} {row : OperationRow}
    {handoff : HandoffRow} (hrow : t.operations[id.str]? = some row)
    (hhandoff : t.handoffs[id.str]? = some handoff) (m : Matched C id.str row handoff)
    (l : Lost row nowMs) (hreads : PayloadReads C executionStateUnknownErrorJson) :
    transitionToExecutionStateUnknown C t nowMs (recordOf m.rowValid) = (do
      let record ← selectValidatedById C (unknownTables t id.str nowMs row handoff) id
      return (unknownTables t id.str nowMs row handoff, record)) := by
  have v := m.rowValid
  obtain ⟨hterminal, -, -, hanchor⟩ := v.active l.active
  have hbounded := l.bounded v
  have hdeadline := l.before_deadline
  have hretained := v.deadline_retention
  have hretain : row.retainUntilMs = row.executionDeadlineMs + terminalRetentionMs :=
    v.retain_eq.trans (by rw [hanchor])
  have hmax : max row.retainUntilMs (nowMs + terminalRetentionMs) = row.retainUntilMs := by omega
  have hcompleted : handoff.completedAtMs = none := m.completed.trans hterminal
  have hrowValid := v.failed l.active hreads l.updated_le hdeadline hbounded
  have hupdate : t.updateOperation id.str (fun raw => raw.status == (recordOf v).status)
      (failedRow executionStateUnknownErrorJson nowMs row.retainUntilMs) = .ok (_, 1) :=
    (Tables.updateOperation_eq_ok hrow (beq_self_eq_true row.status)).2
      ⟨⟨l.active, fun _ => by rcases l.status with h | h <;> rw [h] <;> rfl,
        hrowValid.allowed⟩, rfl⟩
  have hhandoffUpdate : (t.setOperation id.str (failedRow executionStateUnknownErrorJson nowMs
      row.retainUntilMs row)).updateHandoff id.str (fun raw => raw.completedAtMs.isNone)
        (completedHandoff nowMs) = .ok (_, 1) :=
    (Tables.updateHandoff_eq_ok (t := t.setOperation id.str _) hhandoff
      (by rw [hcompleted]; rfl)).2 ⟨(m.completedHandoff l.updated_le).allowed, rfl⟩
  refine (bind_of_ok (check_of ⟨l.kind, l.status, l.updated_le, l.before_deadline, l.lease⟩ _)
    _).trans ?_
  refine (bind_of_ok (CanonicalJson.fromDatabase_eq_ok.2 ⟨hreads, rfl⟩) _).trans ?_
  refine (bind_of_ok (checkedAdd_of_le (by omega)) _).trans ?_
  refine (bind_of_ok (orElse_eq_ok.2 (checkedAdd_of_le v.created_ttl)) _).trans ?_
  refine (bind_of_ok (check_of ?_ _) _).trans ?_
  · show max row.retainUntilMs (nowMs + terminalRetentionMs) ≤ row.createdAtMs + maxTaskTtlMs
    rw [hmax, hretain]
    exact v.ttl hbounded
  show (t.updateOperation id.str _ (failedRow _ nowMs (max row.retainUntilMs _)) >>= _) = _
  rw [hmax]
  refine (bind_of_ok hupdate _).trans ?_
  refine (bind_of_ok (check_of rfl _) _).trans ?_
  refine (bind_of_ok hhandoffUpdate _).trans ?_
  exact bind_of_ok (check_of rfl _) _

variable (C repositoryId nowMs) in
/-- A project execution of the repository that is lost. -/
structure LostAt (t : Tables) (id : String) (row : OperationRow) (handoff : HandoffRow) :
    Prop where
  operation_eq : t.operations[id]? = some row
  handoff_eq : t.handoffs[id]? = some handoff
  matched : Matched C id row handoff
  lost : Lost row nowMs
  repository : row.repositoryId = repositoryId.str

section

variable {id : OperationId} {row : OperationRow} {handoff : HandoffRow}

theorem LostAt.failLost_eq (h : LostAt C repositoryId nowMs t id.str row handoff)
    (hreads : PayloadReads C executionStateUnknownErrorJson) :
    failLost C t nowMs repositoryId id.str = (do
      let _ ← selectValidatedById C (unknownTables t id.str nowMs row handoff) id
      return unknownTables t id.str nowMs row handoff) := by
  unfold failLost
  refine (bind_of_ok (OperationId.parse_str id) _).trans ?_
  refine (bind_of_ok (selectValidatedById_eq_ok.2
    ⟨row, h.operation_eq, handoff, h.handoff_eq, h.matched, rfl⟩) _).trans ?_
  refine (bind_of_ok (check_of (LogicalRepositoryId.ext h.repository) _) _).trans ?_
  rw [transitionToExecutionStateUnknown_eq h.operation_eq h.handoff_eq h.matched h.lost hreads]
  cases selectValidatedById C (unknownTables t id.str nowMs row handoff) id <;> rfl

/-- The tables that hold the failed execution. -/
theorem unknownTables_lookup (t : Tables) (id : String) (nowMs : Int) (row : OperationRow)
    (handoff : HandoffRow) (key : String) :
    (unknownTables t id nowMs row handoff).operations[key]? =
        (if key = id then some (failedRow executionStateUnknownErrorJson nowMs row.retainUntilMs row)
          else t.operations[key]?) ∧
      (unknownTables t id nowMs row handoff).handoffs[key]? =
        if key = id then some (completedHandoff nowMs handoff) else t.handoffs[key]? :=
  ⟨Tables.operations_setOperation, Tables.handoffs_setHandoff⟩

theorem LostAt.failLost_isOk (h : LostAt C repositoryId nowMs t id.str row handoff)
    (hreads : PayloadReads C executionStateUnknownErrorJson)
    (hclaimed : handoff.claimedAtMs ≠ none) :
    failLost C t nowMs repositoryId id.str = .ok (unknownTables t id.str nowMs row handoff) := by
  have m := (h.matched.failed_iff h.lost.active hreads (by decide) h.lost.updated_le
    h.lost.before_deadline (h.lost.bounded h.matched.rowValid)).2 hclaimed
  obtain ⟨hrow, hhandoff⟩ := unknownTables_lookup t id.str nowMs row handoff id.str
  rw [if_pos rfl] at hrow hhandoff
  rw [h.failLost_eq hreads]
  exact bind_of_ok (selectValidatedById_eq_ok.2 ⟨_, hrow, _, hhandoff, m, rfl⟩) _

/-- Nobody has claimed the execution: its failure is not read back. -/
theorem LostAt.failLost_unclaimed (h : LostAt C repositoryId nowMs t id.str row handoff)
    (hreads : PayloadReads C executionStateUnknownErrorJson)
    (hclaimed : handoff.claimedAtMs = none) :
    failLost C t nowMs repositoryId id.str = .error .integrityFailure := by
  have hbounded := h.lost.bounded h.matched.rowValid
  have hiff := h.matched.failed_iff h.lost.active hreads (by decide) h.lost.updated_le
    h.lost.before_deadline hbounded
  have hselect : selectValidatedById C (unknownTables t id.str nowMs row handoff) id =
      .error .integrityFailure :=
    selectValidatedById_mismatch Tables.operations_setOperation_self
      Tables.handoffs_setHandoff_self (h.matched.rowValid.failed h.lost.active hreads
        h.lost.updated_le h.lost.before_deadline hbounded)
      (h.matched.completedHandoff h.lost.updated_le) fun m => hiff.1 m hclaimed
  rw [h.failLost_eq hreads, hselect]
  rfl

/-- The failure of one execution leaves the others lost. -/
theorem LostAt.other {id : String} (h : LostAt C repositoryId nowMs t id row handoff)
    {key : String} (hne : id ≠ key) (row' : OperationRow) (handoff' : HandoffRow) :
    LostAt C repositoryId nowMs (unknownTables t key nowMs row' handoff') id row handoff :=
  { h with
    operation_eq :=
      ((unknownTables_lookup t key nowMs row' handoff' id).1.trans (if_neg hne)).trans h.operation_eq
    handoff_eq :=
      ((unknownTables_lookup t key nowMs row' handoff' id).2.trans (if_neg hne)).trans h.handoff_eq }

end

/-- The identifier of an execution that is lost. -/
theorem LostAt.operationId {id : String} {row : OperationRow} {handoff : HandoffRow}
    (h : LostAt C repositoryId nowMs t id row handoff) :
    ∃ operationId : OperationId, operationId.str = id :=
  ⟨⟨id, h.matched.rowValid.id.1⟩, rfl⟩

/-- All of them are lost. -/
def AllLost (C : Codec) (repositoryId : LogicalRepositoryId) (nowMs : Int) (t : Tables)
    (ids : List String) : Prop :=
  ∀ id ∈ ids, ∃ row handoff, LostAt C repositoryId nowMs t id row handoff

theorem AllLost.rest {id : String} {rest : List String}
    (h : AllLost C repositoryId nowMs t (id :: rest)) (hnodup : (id :: rest).Nodup)
    (row : OperationRow) (handoff : HandoffRow) :
    AllLost C repositoryId nowMs (unknownTables t id nowMs row handoff) rest := by
  intro key hkey
  obtain ⟨row', handoff', hlost⟩ := h key (List.mem_cons_of_mem id hkey)
  refine ⟨row', handoff', hlost.other ?_ row handoff⟩
  rintro rfl
  exact (List.nodup_cons.1 hnodup).1 hkey

theorem failLostIds_isOk (hreads : PayloadReads C executionStateUnknownErrorJson)
    (ids : List String) (hnodup : ids.Nodup) (h : AllLost C repositoryId nowMs t ids)
    (hclaimed : ∀ id ∈ ids, ∀ handoff, t.handoffs[id]? = some handoff →
      handoff.claimedAtMs ≠ none) :
    ∃ t', forEach (fun t => failLost C t nowMs repositoryId) ids t = .ok t' := by
  induction ids generalizing t with
  | nil => exact ⟨t, rfl⟩
  | cons id rest ih =>
    obtain ⟨row, handoff, hlost⟩ := h id List.mem_cons_self
    obtain ⟨id, rfl⟩ := hlost.operationId
    obtain ⟨t', hrest⟩ := ih (List.nodup_cons.1 hnodup).2 (h.rest hnodup row handoff)
      (fun key hkey handoff' hhandoff' => by
        rw [(unknownTables_lookup t id.str nowMs row handoff key).2] at hhandoff'
        split_ifs at hhandoff' with heq
        · exact absurd (heq ▸ hkey) (List.nodup_cons.1 hnodup).1
        · exact hclaimed key (List.mem_cons_of_mem _ hkey) handoff' hhandoff')
    refine ⟨t', (bind_of_ok (hlost.failLost_isOk hreads ?_) _).trans hrest⟩
    exact hclaimed _ List.mem_cons_self handoff hlost.handoff_eq

theorem failLostIds_unclaimed (hreads : PayloadReads C executionStateUnknownErrorJson)
    (ids : List String) (hnodup : ids.Nodup) (h : AllLost C repositoryId nowMs t ids)
    (hunclaimed : ∃ id ∈ ids, ∃ handoff, t.handoffs[id]? = some handoff ∧
      handoff.claimedAtMs = none) :
    forEach (fun t => failLost C t nowMs repositoryId) ids t = .error .integrityFailure := by
  induction ids generalizing t with
  | nil =>
    obtain ⟨_, hmem, -⟩ := hunclaimed
    cases hmem
  | cons id rest ih =>
    obtain ⟨row, handoff, hlost⟩ := h id List.mem_cons_self
    obtain ⟨id, rfl⟩ := hlost.operationId
    by_cases hclaimed : handoff.claimedAtMs = none
    · simp only [forEach, hlost.failLost_unclaimed hreads hclaimed, error_bind]
    · refine (bind_of_ok (hlost.failLost_isOk hreads hclaimed) _).trans ?_
      refine ih (List.nodup_cons.1 hnodup).2 (h.rest hnodup row handoff) ?_
      obtain ⟨key, hmem, handoff', hhandoff', hnone⟩ := hunclaimed
      have hne : key ≠ id.str := by
        rintro rfl
        obtain rfl := Option.some.inj (hlost.handoff_eq.symm.trans hhandoff')
        exact hclaimed hnone
      exact ⟨key, (List.mem_cons.1 hmem).resolve_left hne, handoff',
        ((unknownTables_lookup t id.str nowMs row handoff key).2.trans (if_neg hne)).trans hhandoff',
        hnone⟩

/-! ### Candidates -/

/-- A candidate is of a kind whose capabilities are enabled. -/
theorem claimable_capabilities {capabilities : CapabilitySet} {row : OperationRow}
    (h : claimable t nowMs (.new C capabilities) row = true) :
    capabilities.containsAll (row.kind.requiredCapabilities C) = true := by
  unfold claimable at h
  cases hkind : row.kind <;> simp only [hkind, Bool.and_eq_true] at h
  · exact h.1
  · exact h.1
  · exact h
  · exact h
  · exact h
  · exact h.1

/-- **Leasing a candidate succeeds.** -/
theorem Journal.claimCandidate_isOk {J : Journal C} {id : OperationId} {row : OperationRow}
    {handoff : HandoffRow} {owner : LeaseOwner} {tokenDigest : Digest} {leaseExpiresAtMs : Int}
    (hrow : t.operations[id.str]? = some row) (hhandoff : t.handoffs[id.str]? = some handoff)
    (m : Matched C id.str row handoff)
    (hcandidate : isCandidate t repositoryId.str nowMs (.new C J.enabledCapabilities) row = true)
    (hupdated : row.updatedAtMs ≤ nowMs) (hwindow : nowMs < leaseExpiresAtMs) :
    ∃ t' claimed, J.claimCandidate t .intact id.str row repositoryId owner tokenDigest nowMs
      leaseExpiresAtMs = .ok (t', claimed) := by
  simp only [isCandidate, Bool.and_eq_true, Bool.or_eq_true, beq_iff_eq, decide_eq_true_eq]
    at hcandidate
  obtain ⟨⟨⟨⟨hrepository, -⟩, hdeadline⟩, hclaimable⟩, hstate⟩ := hcandidate
  have hactive : row.status.isTerminal = false := by
    rcases hstate with h | h
    · rw [h]; rfl
    · rcases (lostLease_expired h).1 with h | h <;> rw [h] <;> rfl
  have hmin : nowMs < min leaseExpiresAtMs row.executionDeadlineMs := lt_min hwindow hdeadline
  have m' := m.claimed hactive owner tokenDigest hupdated hmin (min_le_right _ _)
  have htransition : claimedStatus row.status ≠ row.status →
      row.status.allowsTransitionTo (claimedStatus row.status) = true := by
    cases row.status <;> simp [claimedStatus, OperationStatus.allowsTransitionTo]
  refine ⟨(t.setOperation id.str (leasedRow owner tokenDigest (min leaseExpiresAtMs
    row.executionDeadlineMs) nowMs row)).setHandoff id.str (claimedHandoff nowMs handoff),
    some (recordOf m'.rowValid, handoffOf m'.handoffValid), ?_⟩
  simp only [claimCandidate, bind_eq_ok, validatedRecord_eq_ok, check_eq_ok, exists_const,
    validateRepository, validateEnabledCapabilities, validateUpdateTime, validateLeaseWindow,
    validateBeforeDeadline, required_eq_ok, decodeHandoff_eq_ok, commitAuthorized_eq_ok]
  refine ⟨_, ⟨handoff, hhandoff, m, rfl⟩, LogicalRepositoryId.ext hrepository,
    claimable_capabilities hclaimable, hupdated, ⟨hdeadline, hmin, min_le_right _ _⟩,
    ⟨hactive, m.rowValid.queued_lease, fun hne lease hlease => ?_⟩, htransition, _,
    (Tables.updateOperation_eq_ok hrow (beq_self_eq_true row.status)).2
      ⟨⟨hactive, htransition, m'.rowValid.allowed⟩, rfl⟩, rfl, _,
    (Tables.updateHandoff_eq_ok (by exact hhandoff) rfl).2 ⟨m'.handoffValid.allowed, rfl⟩, rfl,
    recordOf m'.rowValid, selectValidatedById_eq_ok.2 ⟨_, Tables.operations_setOperation_self, _,
      Tables.handoffs_setHandoff_self, m', rfl⟩, _, Tables.handoffs_setHandoff_self, _,
    ⟨m'.handoffValid, rfl⟩, (), (validateOperationHandoff_eq_ok _ _).2 m', rfl, rfl⟩
  rcases hstate with h | h
  · exact absurd h hne
  · exact (lostLease_expired h).2 lease hlease

/-! ### The claim -/

theorem lostProjectExecIds_nodup {repositoryId : String} :
    (lostProjectExecIds t repositoryId nowMs).Nodup := by
  have hsorted : (sortByKey claimOrder
      (t.operations.toList.filter fun entry => isLost repositoryId nowMs entry.2)).Perm
        (t.operations.toList.filter fun entry => isLost repositoryId nowMs entry.2) :=
    List.perm_insertionSort _ _
  have hfiltered : ((t.operations.toList.filter fun entry =>
      isLost repositoryId nowMs entry.2).map Prod.fst).Nodup :=
    Table.keys_nodup.sublist (List.filter_sublist.map Prod.fst)
  exact ((hsorted.map Prod.fst).nodup_iff.2 hfiltered).sublist
    ((List.take_sublist _ _).map Prod.fst)

theorem isLost_lost {row : OperationRow} (h : isLost repositoryId.str nowMs row = true)
    (hupdated : row.updatedAtMs ≤ nowMs) :
    Lost row nowMs ∧ row.repositoryId = repositoryId.str := by
  simp only [isLost, Bool.and_eq_true, beq_iff_eq, decide_eq_true_eq] at h
  obtain ⟨⟨⟨hrepository, hkind⟩, hdeadline⟩, hlost⟩ := h
  obtain ⟨hstatus, hlease⟩ := lostLease_expired hlost
  exact ⟨⟨hkind, hstatus, hupdated, hdeadline, hlease⟩, hrepository⟩

theorem allLost_of_invariant (inv : Invariant C repositoryId t) (hwritten : WrittenBy nowMs t) :
    AllLost C repositoryId nowMs t (lostProjectExecIds t repositoryId.str nowMs) := by
  intro id hmem
  obtain ⟨row, hrow, hlost⟩ := mem_lostProjectExecIds hmem
  obtain ⟨handoff, hhandoff, m⟩ := inv.matched id row hrow
  obtain ⟨lost, hrepository⟩ := isLost_lost hlost (hwritten id row hrow)
  exact ⟨row, handoff, hrow, hhandoff, m, lost, hrepository⟩

theorem FailsAt.writtenBy {id : String} {row : OperationRow} {handoff : HandoffRow}
    (h : FailsAt C t t' id row handoff nowMs) (hwritten : WrittenBy nowMs t) :
    WrittenBy nowMs t' := by
  obtain ⟨error, retainUntilMs, rfl, -⟩ := h.fails
  intro key row₁ h₁
  rw [Tables.operations_setHandoff, Tables.operations_setOperation] at h₁
  split_ifs at h₁
  · obtain rfl := Option.some.inj h₁
    exact le_rfl
  · exact hwritten key row₁ h₁

/-- A project execution that is lost, and selected to fail, has never been claimed. -/
def Poisoned (J : Journal C) (t : Tables) (repositoryId : LogicalRepositoryId) (nowMs : Int) :
    Prop :=
  (EnabledOperationKinds.new C J.enabledCapabilities).projectExec = true ∧
    ∃ id ∈ lostProjectExecIds t repositoryId.str nowMs, ∃ handoff,
      t.handoffs[id]? = some handoff ∧ handoff.claimedAtMs = none

section

variable {J : Journal C} {owner : LeaseOwner} {leaseToken : List UInt8} {leaseExpiresAtMs : Int}

/-- What the caller of a claim provides. -/
structure ValidClaim (J : Journal C) (repositoryId : LogicalRepositoryId)
    (leaseToken : List UInt8) (nowMs leaseExpiresAtMs : Int) : Prop where
  repository : repositoryId = J.repositoryId
  now_nonneg : 0 ≤ nowMs
  now_lt : nowMs < leaseExpiresAtMs
  token_ne : leaseToken ≠ []
  token_le : leaseToken.length ≤ maxLeaseTokenBytes

/-- A valid claim gets as far as the lost executions. -/
theorem ValidClaim.claim_eq (h : ValidClaim J repositoryId leaseToken nowMs leaseExpiresAtMs) :
    J.claimNextRunnerHandoff t .intact repositoryId owner leaseToken nowMs leaseExpiresAtMs = (do
      let t ← failLostWhereEnabled C t nowMs (.new C J.enabledCapabilities) repositoryId
      match selectNextClaimCandidate t repositoryId.str nowMs (.new C J.enabledCapabilities) with
      | none => commitAuthorized .intact t none
      | some (id, raw) =>
        J.claimCandidate t .intact id raw repositoryId owner (C.sha256 leaseToken) nowMs
          leaseExpiresAtMs) := by
  unfold Journal.claimNextRunnerHandoff
  refine (bind_of_ok (a := ()) (validateTimestamp_eq_ok.2 h.now_nonneg) _).trans ?_
  refine (bind_of_ok (a := ()) (validateTimestamp_eq_ok.2 (h.now_nonneg.trans h.now_lt.le)) _).trans ?_
  refine (bind_of_ok (a := ()) (Journal.validateRequestedRepository_eq_ok.2 h.repository) _).trans ?_
  refine (bind_of_ok (check_of h.now_lt _) _).trans ?_
  refine (bind_of_ok (digestLeaseToken_eq_ok.2 ⟨⟨h.token_ne, h.token_le⟩, rfl⟩) _).trans ?_
  exact bind_of_ok (a := ()) (validateTransactionRoot_eq_ok.2 rfl) _

theorem claim_isOk (h : ValidClaim J repositoryId leaseToken nowMs leaseExpiresAtMs)
    (inv : Invariant C repositoryId t) (hwritten : WrittenBy nowMs t)
    (hreads : PayloadReads C executionStateUnknownErrorJson)
    (hpoisoned : ¬ Poisoned J t repositoryId nowMs) :
    ∃ t' claimed, J.claimNextRunnerHandoff t .intact repositoryId owner leaseToken nowMs
      leaseExpiresAtMs = .ok (t', claimed) := by
  obtain ⟨t₁, hfailed, inv₁, hwritten₁⟩ : ∃ t₁,
      failLostWhereEnabled C t nowMs (.new C J.enabledCapabilities) repositoryId = .ok t₁ ∧
        Invariant C repositoryId t₁ ∧ WrittenBy nowMs t₁ := by
    unfold failLostWhereEnabled
    split_ifs with henabled
    · obtain ⟨t₁, hfailed⟩ := failLostIds_isOk hreads _ lostProjectExecIds_nodup
        (allLost_of_invariant inv hwritten) fun id hmem handoff hhandoff hnone =>
          hpoisoned ⟨henabled, id, hmem, handoff, hhandoff, hnone⟩
      refine ⟨t₁, hfailed, (forEach_preserves (R := fun _ _ => True)
        (I := fun t => Invariant C repositoryId t ∧ WrittenBy nowMs t) (fun _ => trivial)
        (fun _ _ _ _ _ => trivial) _ (fun id _ t t' ⟨inv, hwritten⟩ h => ?_) ⟨inv, hwritten⟩
        hfailed).1⟩
      obtain ⟨row, handoff, -, hfails⟩ := failLost_ok h
      exact ⟨⟨(hfails.preserves inv).1, hfails.writtenBy hwritten⟩, trivial⟩
    · exact ⟨t, rfl, inv, hwritten⟩
  rw [h.claim_eq, hfailed, ok_bind]
  cases hselect : selectNextClaimCandidate t₁ repositoryId.str nowMs
      (.new C J.enabledCapabilities) with
  | none => exact ⟨t₁, none, commitAuthorized_eq_ok.2 ⟨rfl, rfl⟩⟩
  | some entry =>
    obtain ⟨id, row⟩ := entry
    obtain ⟨hrow, hcandidate⟩ := selectNextClaimCandidate_eq_some hselect
    obtain ⟨handoff, hhandoff, m⟩ := inv₁.matched id row hrow
    obtain ⟨id, rfl⟩ : ∃ operationId : OperationId, operationId.str = id :=
      ⟨⟨id, m.rowValid.id.1⟩, rfl⟩
    exact Journal.claimCandidate_isOk hrow hhandoff m hcandidate (hwritten₁ _ row hrow) h.now_lt

theorem claim_poisoned (h : ValidClaim J repositoryId leaseToken nowMs leaseExpiresAtMs)
    (inv : Invariant C repositoryId t) (hwritten : WrittenBy nowMs t)
    (hreads : PayloadReads C executionStateUnknownErrorJson)
    (hpoisoned : Poisoned J t repositoryId nowMs) :
    J.claimNextRunnerHandoff t .intact repositoryId owner leaseToken nowMs leaseExpiresAtMs =
      .error .integrityFailure := by
  obtain ⟨henabled, hunclaimed⟩ := hpoisoned
  have hfailed : failLostWhereEnabled C t nowMs (.new C J.enabledCapabilities) repositoryId =
      .error .integrityFailure :=
    (if_pos henabled).trans (failLostIds_unclaimed hreads _ lostProjectExecIds_nodup
      (allLost_of_invariant inv hwritten) hunclaimed)
  rw [h.claim_eq, hfailed, error_bind]

/-- **In a reachable state, a valid claim at a time when nothing has been written in the future
succeeds exactly when no lost project execution that it fails is unclaimed**; with one it ends with
an integrity failure. -/
theorem claim_isOk_iff {c : Config Int Tables} (hreachable : Reachable C repositoryId c)
    (h : ValidClaim J repositoryId leaseToken nowMs leaseExpiresAtMs)
    (hwritten : WrittenBy nowMs c.state)
    (hreads : C.isCanonical executionStateUnknownErrorJson = true) :
    ((∃ t' claimed, J.claimNextRunnerHandoff c.state .intact repositoryId owner leaseToken nowMs
        leaseExpiresAtMs = .ok (t', claimed)) ↔ ¬ Poisoned J c.state repositoryId nowMs) ∧
    (J.claimNextRunnerHandoff c.state .intact repositoryId owner leaseToken nowMs
        leaseExpiresAtMs = .error .integrityFailure ↔ Poisoned J c.state repositoryId nowMs) := by
  have inv := hreachable.invariant
  have hpayload : PayloadReads C executionStateUnknownErrorJson := ⟨by decide, hreads⟩
  constructor
  · refine ⟨fun ⟨t', claimed, hok⟩ hpoisoned => ?_, claim_isOk h inv hwritten hpayload⟩
    cases hok.symm.trans (claim_poisoned h inv hwritten hpayload hpoisoned)
  · refine ⟨fun herror => by_contra fun hpoisoned => ?_, claim_poisoned h inv hwritten hpayload⟩
    obtain ⟨t', claimed, hok⟩ :=
      claim_isOk h inv hwritten hpayload hpoisoned
    cases hok.symm.trans herror

end

end

/-! ### A claim after a cancellation -/

section Sample

open Sample

theorem Sample.validClaim :
    ValidClaim journal repositoryId [2] 2 500 :=
  ⟨rfl, by decide, by decide, by decide, by decide⟩

theorem Sample.writtenBy_of_all {t : Tables} {nowMs : Int}
    (h : t.operations.toList.all (fun entry => decide (entry.2.updatedAtMs ≤ nowMs)) = true) :
    WrittenBy nowMs t := fun id row hrow =>
  of_decide_eq_true (List.all_eq_true.1 h (id, row) (Table.mem_toList.2 hrow))

/-- An execution that has been claimed, whose lease has run out. -/
def Sample.lost : Config Int Tables :=
  journal.calls [(0, submit), (2, .claimNextRunnerHandoff repositoryId owner [2] 500)]
    ⟨0, Tables.empty⟩

/-- A submitted execution is claimed, and a lost one that had been claimed makes no claim fail. -/
theorem claim_isOk_iff_submitted :
    (∃ t' claimed, journal.claimNextRunnerHandoff submitted.state .intact repositoryId owner [2] 2
      500 = .ok (t', claimed)) ∧
    lostProjectExecIds lost.state repositoryId.str 600 = [operationId.str] ∧
    ∃ t' claimed, journal.claimNextRunnerHandoff lost.state .intact repositoryId owner [2] 600
      1000 = .ok (t', claimed) := by
  have hlost : lostProjectExecIds lost.state repositoryId.str 600 = [operationId.str] := by
    decide +kernel
  have hclaimed : (lost.state.handoffs[operationId.str]?).all
      (fun handoff => handoff.claimedAtMs.isSome) = true := by
    decide +kernel
  refine ⟨?_, hlost, ?_⟩
  · have hnone : lostProjectExecIds submitted.state repositoryId.str 2 = [] := by decide +kernel
    refine (claim_isOk_iff (journal.reachable_calls [(0, submit)]) validClaim
      (writtenBy_of_all (by decide +kernel)) (by decide +kernel)).1.2 ?_
    rintro ⟨-, id, hmem, -⟩
    have hnil : id ∈ [] := hnone ▸ (hmem : id ∈ lostProjectExecIds submitted.state _ 2)
    cases hnil
  · refine (claim_isOk_iff (journal.reachable_calls [(0, submit),
      (2, .claimNextRunnerHandoff repositoryId owner [2] 500)])
      ⟨rfl, by decide, by decide, by decide, by decide⟩ (writtenBy_of_all (by decide +kernel))
      (by decide +kernel)).1.2 ?_
    rintro ⟨-, id, hmem, handoff, hhandoff, hunclaimed⟩
    have hid : id ∈ [operationId.str] := hlost ▸ (hmem : id ∈ lostProjectExecIds lost.state _ 600)
    rw [List.mem_singleton.1 hid] at hhandoff
    have hhandoff : lost.state.handoffs[operationId.str]? = some handoff := hhandoff
    rw [hhandoff, Option.all_some, hunclaimed] at hclaimed
    cases hclaimed

/-- An execution that is cancelled while it is queued makes the next claim fail. -/
theorem cancelled_unclaimed_poisons :
    ¬ ∀ (c : Config Int Tables) (nowMs leaseExpiresAtMs : Int) (leaseToken : List UInt8),
      Reachable codec repositoryId c → c.now ≤ nowMs → WrittenBy nowMs c.state →
        ValidClaim journal repositoryId leaseToken nowMs leaseExpiresAtMs →
          journal.claimNextRunnerHandoff c.state .intact repositoryId owner leaseToken nowMs
            leaseExpiresAtMs ≠ .error .integrityFailure := by
  intro h
  refine h (journal.calls [(0, submit), (1, .cancel repositoryId operationId capabilities true)]
    ⟨0, Tables.empty⟩) 2 500 [2] (journal.reachable_calls _) (by decide)
    (writtenBy_of_all (by decide +kernel)) validClaim (errorOf_eq_some.1 ?_)
  decide +kernel

end Sample

end Operation
