import Depgraph.Operation.History

/-!
# What a call does to the tables

Every call is a sequence of edits, all at the time of the call: an operation is submitted or
removed, its row is rewritten, or an elapsed tombstone goes.

* `RowEdit` says what may be written to the row of an operation, and under which guard.
* `Edit` says what may happen to the tables; `apply_edits` takes a call apart.
* `Edits.invariant` is the induction over the edits of a call.
-/

namespace Operation

open Protocol Fallible TimedRun

variable {C : Codec}

/-! ### The calls -/

namespace Call

/-- The lease token that a call presents. -/
def leaseToken : Call C → Option (List UInt8)
  | acquireLease _ _ _ leaseToken _ | claimNextRunnerHandoff _ _ leaseToken _
  | renewLease _ _ leaseToken _ | releaseLease _ _ leaseToken | updateProgress _ _ leaseToken _
  | complete _ _ leaseToken _ | fail _ _ leaseToken _ | markCancelled _ _ leaseToken
  | commitCompletionIntent _ _ leaseToken _ => some leaseToken
  | submit _ _ | cancel _ _ _ _ | cancelBeforeLaunch _ _ _ | finishCompletionIntent _ _
  | failDeadline _ _ _ | purge _ => none

/-- `acquire_lease` leases an operation without a look at the others. -/
def acquires : Call C → Bool
  | acquireLease _ _ _ _ _ => true
  | _ => false

/-- `finish_completion_intent` ends an operation without a token. -/
def publishes : Call C → Bool
  | finishCompletionIntent _ _ => true
  | _ => false

/-- `cancel_before_launch` may end a queued operation. -/
def withdraws : Call C → Bool
  | cancelBeforeLaunch _ _ _ => true
  | _ => false

/-- A cancellation. -/
def cancels : Call C → Bool
  | cancel _ _ _ _ | cancelBeforeLaunch _ _ _ => true
  | _ => false

end Call

/-- Where the kinds of an operation exclude each other, none of them is leased. -/
structure Unrivalled (t : Tables) (nowMs : Int) (row : OperationRow) : Prop where
  writer : isWriter row.kind = true → noneActive t row.repositoryId nowMs isWriter = true
  projectExec : row.kind = .resolveBuildSubmit →
    noneActive t row.repositoryId nowMs (· == .resolveBuildSubmit) = true

/-! ### Edits -/

variable (C) in
/-- What a call may write to the row of an operation. -/
inductive RowEdit (t : Tables) (nowMs : Int) (call : Call C) (row : OperationRow) :
    OperationRow → Prop
  | lease (owner : LeaseOwner) (leaseToken : List UInt8) (expiresAtMs : Int)
      (presents : call.leaseToken = some leaseToken) (active : row.status.isTerminal = false)
      (free : ∀ lease, leaseOf row = some lease → lease.expiresAtMs ≤ nowMs)
      (unrivalled : call.acquires = false → Unrivalled t nowMs row)
      (window : nowMs < expiresAtMs ∧ expiresAtMs ≤ row.executionDeadlineMs) :
      RowEdit t nowMs call row (leasedRow owner (C.sha256 leaseToken) expiresAtMs nowMs row)
  | renew (leaseToken : List UInt8) (expiresAtMs : Int)
      (presents : call.leaseToken = some leaseToken)
      (holds : Journal.HoldsToken C row leaseToken nowMs) :
      RowEdit t nowMs call row (renewedRow expiresAtMs nowMs row)
  | release (leaseToken : List UInt8) (presents : call.leaseToken = some leaseToken)
      (owns : ∃ lease, leaseOf row = some lease ∧ lease.tokenDigest = C.sha256 leaseToken) :
      RowEdit t nowMs call row (releasedRow nowMs row)
  | progress (leaseToken : List UInt8) (completed total : Int)
      (presents : call.leaseToken = some leaseToken)
      (holds : Journal.HoldsToken C row leaseToken nowMs) :
      RowEdit t nowMs call row (progressedRow completed total nowMs row)
  | finish (leaseToken : List UInt8) (payload : FinishPayload)
      (presents : call.leaseToken = some leaseToken)
      (holds : Journal.HoldsToken C row leaseToken nowMs) :
      RowEdit t nowMs call row (Journal.endedRow payload nowMs row)
  | decide (leaseToken : List UInt8) (presents : call.leaseToken = some leaseToken)
      (holds : Journal.HoldsToken C row leaseToken nowMs) :
      RowEdit t nowMs call row (decidedRow nowMs row)
  | cancel (cancels : call.cancels = true)
      (startable : row.status = .queued ∨ row.status = .running) :
      RowEdit t nowMs call row (cancellingRow nowMs row)
  | withdraw (withdraws : call.withdraws = true) (queued : row.status = .queued) :
      RowEdit t nowMs call row (Journal.withdrawnRow nowMs row)
  | publish (result : String) (retentionAnchorMs retainUntilMs : Int)
      (publishes : call.publishes = true) :
      RowEdit t nowMs call row
        (publishedRow result row.updatedAtMs retentionAnchorMs retainUntilMs row)
  | deadline (error : String) (active : row.status.isTerminal = false)
      (elapsed : row.executionDeadlineMs ≤ nowMs) :
      RowEdit t nowMs call row (failedRow error row.executionDeadlineMs row.retainUntilMs row)
  | lost (error : String) (leaseToken : List UInt8) (presents : call.leaseToken = some leaseToken)
      (lost : Lost row nowMs) :
      RowEdit t nowMs call row (failedRow error nowMs row.retainUntilMs row)

variable (C) in
/-- An operation is removed. Its identifier and scope stay reserved while its tombstone's time is
not over. -/
def Removes (t t' : Tables) (nowMs : Int) (id : String) (row : OperationRow) : Prop :=
  (row.retainUntilMs + tombstoneRetentionMs ≤ nowMs ∧ t' = t.removeOperation id) ∨
    ∃ tombstone : TombstoneRow, Buries C id row tombstone ∧
      nowMs < row.retainUntilMs + tombstoneRetentionMs ∧
      (t.removeOperation id).insertTombstone id tombstone = .ok t'

variable (C) in
/-- One edit of the tables. -/
inductive Edit (nowMs : Int) (call : Call C) : Tables → Tables → Prop
  | rewrite {t t' : Tables} (id : String) (row row' : OperationRow) (handoff' : HandoffRow)
      (rewrites : Rewrites C t t' id row row' handoff') (valid : RowValid C id row)
      (edit : RowEdit C t nowMs call row row') : Edit nowMs call t t'
  | submit {t : Tables} (request : SubmitRequest C) (randomBytes : Option (Vector UInt8 16))
      (id json : String) (completed total retainUntilMs : Int) (handoff : HandoffRow)
      (called : call = .submit request randomBytes) (free : Journal.Free t id request.scope)
      (matched : Matched C id
        (submittedRow request json completed total retainUntilMs nowMs) handoff) :
      Edit nowMs call t ((t.setOperation id
        (submittedRow request json completed total retainUntilMs nowMs)).setHandoff id handoff)
  | remove {t t' : Tables} (id : String) (row : OperationRow) (called : call = .purge true)
      (found : t.operations[id]? = some row) (terminal : row.status.isTerminal = true)
      (elapsed : row.retainUntilMs ≤ nowMs) (removes : Removes C t t' nowMs id row) :
      Edit nowMs call t t'
  | dropTombstone {t : Tables} (id : String) (tombstone : TombstoneRow)
      (found : t.tombstones[id]? = some tombstone) (elapsed : tombstone.tombstoneUntilMs ≤ nowMs) :
      Edit nowMs call t (t.deleteTombstone id).1

variable (C) in
/-- The edits of one call. -/
abbrev Edits (nowMs : Int) (call : Call C) : Tables → Tables → Prop :=
  Relation.ReflTransGen (Edit C nowMs call)

section

variable {t t' : Tables} {id : String} {nowMs : Int} {call : Call C}

/-- What every edit preserves holds after the edits. -/
theorem Edits.invariant {I : Tables → Prop} (h : Edits C nowMs call t t') (hinit : I t)
    (hstep : ∀ t t', Edit C nowMs call t t' → I t → I t') : I t' := by
  induction h with
  | refl => exact hinit
  | tail _ hedit ih => exact hstep _ _ hedit ih

/-! ### Calls as edits -/

section Calls

variable {row : OperationRow} {handoff : HandoffRow} {J : Journal C} {root : RootSeal}
  {requested : LogicalRepositoryId}

/-- A failure without the runner keeps the time until which the operation is retained. -/
theorem FailsAt.edits {terminalAtMs : Int} (h : FailsAt C t t' id row handoff terminalAtMs)
    (hedit : ∀ error, RowEdit C t nowMs call row
      (failedRow error terminalAtMs row.retainUntilMs row)) : Edits C nowMs call t t' := by
  obtain ⟨error, retainUntilMs, rfl, m⟩ := h.fails
  obtain rfl : row.retainUntilMs = retainUntilMs :=
    h.matched.rowValid.retain_eq.trans m.rowValid.retain_eq.symm
  exact .single (.rewrite id row _ _ (.both h.operation_eq m) h.matched.rowValid (hedit error))

theorem FailsAt.active {terminalAtMs : Int} (h : FailsAt C t t' id row handoff terminalAtMs) :
    row.status.isTerminal = false :=
  OperationStatus.not_isTerminal_of_allows h.allows

theorem forEach_edits {body : Tables → String → Except JournalError Tables} (ids : List String)
    (hbody : ∀ id t t', body t id = .ok t' → Edits C nowMs call t t')
    (h : forEach body ids t = .ok t') : Edits C nowMs call t t' :=
  (forEach_preserves (I := fun _ => True) (fun _ => .refl) (fun _ _ _ => .trans) ids
    (fun id _ t t' _ hturn => ⟨trivial, hbody id t t' hturn⟩) trivial h).2

theorem purgeOperations_edits (ids : List String) {created : Nat}
    (h : purgeOperations C requested nowMs ids t = .ok (t', created)) :
    Edits C nowMs (.purge true) t t' := by
  induction ids generalizing t created with
  | nil =>
    obtain rfl := congrArg Prod.fst (Except.ok.inj h)
    exact .refl
  | cons id rest ih =>
    simp only [purgeOperations, bind_eq_ok, pure, Except.pure, Except.ok.injEq] at h
    obtain ⟨⟨t₁, _⟩, hturn, ⟨t₂, _⟩, hrest, hr⟩ := h
    obtain rfl : t₂ = t' := congrArg Prod.fst hr
    obtain ⟨row, hrow, hterminal, helapsed, hremoves⟩ := purgeOperation_ok hturn
    exact .head (.remove id row rfl hrow hterminal helapsed hremoves) (ih hrest)

theorem purge_edits {guardAcquired : Bool} {report : PurgeReport}
    (h : J.purge t root guardAcquired nowMs = .ok (t', report)) :
    Edits C nowMs (.purge guardAcquired) t t' := by
  simp only [Journal.purge, bind_eq_ok, validateTimestamp_eq_ok, exists_const] at h
  obtain ⟨-, h⟩ := h
  split_ifs at h with hguard
  · subst hguard
    simp only [bind_eq_ok, validateTransactionRoot_eq_ok, exists_const,
      commitAuthorized_eq_ok] at h
    obtain ⟨error, -, -, t₁, hreap, ⟨t₂, _⟩, hpurge, t₃, htombstones, -, hr⟩ := h
    obtain rfl : t' = t₃ := congrArg Prod.fst hr
    have hreaped : Edits C nowMs (.purge true) t t₁ := forEach_edits _ (fun id t t' h => by
      obtain ⟨row, handoff, hdeadline, hfails⟩ := reapOperation_ok h
      exact hfails.edits fun error => .deadline error hfails.active hdeadline) hreap
    have hdropped : Edits C nowMs (.purge true) t₂ t' := forEach_edits _ (fun id t t' h => by
      obtain ⟨tombstone, hfound, helapsed, rfl⟩ := purgeTombstone_ok h
      exact .single (.dropTombstone id tombstone hfound helapsed)) htombstones
    exact (hreaped.trans (purgeOperations_edits _ hpurge)).trans hdropped
  · obtain rfl := congrArg Prod.fst (Except.ok.inj h)
    exact .refl

/-- The candidate of a claim has no live lease and no rival. -/
theorem isCandidate_free {repositoryId : String} {enabled : EnabledOperationKinds}
    (v : RowValid C id row) (h : isCandidate t repositoryId nowMs enabled row = true) :
    (∀ lease, leaseOf row = some lease → lease.expiresAtMs ≤ nowMs) ∧ Unrivalled t nowMs row := by
  simp only [isCandidate, Bool.and_eq_true, Bool.or_eq_true, beq_iff_eq] at h
  obtain ⟨⟨-, hclaimable⟩, hstate⟩ := h
  refine ⟨fun lease hlease => ?_, ⟨fun hkind => ?_, fun hkind => ?_⟩⟩
  · rcases hstate with hqueued | hlost
    · cases hlease.symm.trans (v.queued_lease hqueued)
    · exact (lostLease_expired hlost).2 lease hlease
  · cases hrow : row.kind <;> simp_all [claimable, isWriter]
  · simp_all [claimable]

theorem claim_edits {owner : LeaseOwner} {leaseToken : List UInt8} {leaseExpiresAtMs : Int}
    {claimed : Option (OperationRecord × RunnerHandoff)}
    (h : J.claimNextRunnerHandoff t root requested owner leaseToken nowMs leaseExpiresAtMs =
      .ok (t', claimed)) :
    Edits C nowMs (.claimNextRunnerHandoff requested owner leaseToken leaseExpiresAtMs) t t' := by
  obtain ⟨-, -, t₁, hlost, hclaim⟩ := Journal.claimNextRunnerHandoff_ok h
  have hfailed : Edits C nowMs
      (.claimNextRunnerHandoff requested owner leaseToken leaseExpiresAtMs) t t₁ := by
    rcases hlost with rfl | ⟨-, hlost⟩
    · exact .refl
    · refine forEach_edits _ (fun id t t' h => ?_) hlost
      obtain ⟨row, handoff, lost, hfails⟩ := failLost_ok h
      exact hfails.edits fun error => .lost error leaseToken rfl lost
  rcases hclaim with rfl | ⟨id, row, hrow, hcandidate, hclaim⟩
  · exact hfailed
  · obtain ⟨handoff, -, m, -, hactive, -, expiresAtMs, hnow, hdeadline, rfl, m'⟩ :=
      Journal.claimCandidate_ok hrow hclaim
    obtain ⟨hfree, hunrivalled⟩ := isCandidate_free m.rowValid hcandidate
    exact hfailed.tail (.rewrite id row _ _ (.both hrow m') m.rowValid
      (.lease owner leaseToken expiresAtMs rfl hactive hfree (fun _ => hunrivalled)
        ⟨hnow, hdeadline⟩))

theorem submit_edits {request : SubmitRequest C} {randomBytes : Option (Vector UInt8 16)}
    {outcome : SubmitOutcome} (h : J.submit t root request randomBytes nowMs = .ok (t', outcome)) :
    Edits C nowMs (.submit request randomBytes) t t' := by
  rcases Journal.submit_ok h with ⟨rfl, -⟩ |
    ⟨t₁, id, _, _, _, _, handoff, -, -, ht₁, hfree, -, rfl, m⟩
  · exact .refl
  · have hdropped : Edits C nowMs (.submit request randomBytes) t t₁ := by
      rcases ht₁ with rfl | ⟨key, tombstone, hfound, helapsed, rfl⟩
      · exact .refl
      · exact .single (.dropTombstone key tombstone hfound helapsed)
    exact hdropped.tail (.submit request randomBytes id _ _ _ _ handoff rfl hfree m)

theorem finish_edits {operationId : OperationId} {leaseToken : List UInt8}
    {payload : FinishPayload} {record : OperationRecord}
    (hpresents : call.leaseToken = some leaseToken)
    (h : J.finish t root requested operationId leaseToken payload nowMs = .ok (t', record)) :
    Edits C nowMs call t t' := by
  obtain ⟨row, handoff, a, htoken, -, -, rfl, m⟩ := Journal.finish_ok h
  exact .single (.rewrite _ row _ _ (.both a.stored.operation_eq m) a.stored.matched.rowValid
    (.finish leaseToken payload hpresents htoken))

end Calls

/-- **A call is a sequence of edits.** -/
theorem apply_edits {J : Journal C} {root : RootSeal}
    (h : J.apply root nowMs t call = .ok t') : Edits C nowMs call t t' := by
  cases call with
  | submit request randomBytes =>
    obtain ⟨outcome, h⟩ := map_fst_eq_ok.1 h
    exact submit_edits h
  | cancel requested id capabilities shouldCommit =>
    obtain ⟨outcome, h⟩ := map_fst_eq_ok.1 h
    rcases Journal.cancel_ok h with rfl | ⟨row, handoff, ⟨s, -, hdeadline, -⟩, -, hstatus, rfl⟩
    · exact .refl
    · have m := s.matched.cancelling hstatus s.updated_le hdeadline
      exact .single (.rewrite _ row _ _ (.operation s.operation_eq s.handoff_eq m)
        s.matched.rowValid (.cancel rfl hstatus))
  | cancelBeforeLaunch requested id capabilities =>
    obtain ⟨outcome, h⟩ := map_fst_eq_ok.1 h
    rcases Journal.cancelBeforeLaunch_ok h with rfl | ⟨row, handoff, ⟨s, -, hdeadline, -⟩, -, h⟩
    · exact .refl
    · rcases h with ⟨hrunning, rfl⟩ | ⟨hqueued, rfl, m⟩
      · have m := s.matched.cancelling (Or.inr hrunning) s.updated_le hdeadline
        exact .single (.rewrite _ row _ _ (.operation s.operation_eq s.handoff_eq m)
          s.matched.rowValid (.cancel rfl (Or.inr hrunning)))
      · exact .single (.rewrite _ row _ _ (.both s.operation_eq m) s.matched.rowValid
          (.withdraw rfl hqueued))
  | acquireLease requested id owner leaseToken leaseExpiresAtMs =>
    obtain ⟨record, h⟩ := map_fst_eq_ok.1 h
    obtain ⟨row, handoff, a, hwindow, hactive, hfree, rfl, m⟩ := Journal.acquireLease_ok h
    exact .single (.rewrite _ row _ _ (.both a.stored.operation_eq m) a.stored.matched.rowValid
      (.lease owner leaseToken leaseExpiresAtMs rfl hactive hfree (fun h => by cases h) hwindow))
  | claimNextRunnerHandoff requested owner leaseToken leaseExpiresAtMs =>
    obtain ⟨claimed, h⟩ := map_fst_eq_ok.1 h
    exact claim_edits h
  | renewLease requested id leaseToken leaseExpiresAtMs =>
    obtain ⟨record, h⟩ := map_fst_eq_ok.1 h
    obtain ⟨row, handoff, a, htoken, -, rfl, m⟩ := Journal.renewLease_ok h
    exact .single (.rewrite _ row _ _ (.operation a.stored.operation_eq a.stored.handoff_eq m)
      a.stored.matched.rowValid (.renew leaseToken leaseExpiresAtMs rfl htoken))
  | releaseLease requested id leaseToken =>
    obtain ⟨record, h⟩ := map_fst_eq_ok.1 h
    obtain ⟨row, handoff, a, howns, -, rfl, m⟩ := Journal.releaseLease_ok h
    exact .single (.rewrite _ row _ _ (.operation a.stored.operation_eq a.stored.handoff_eq m)
      a.stored.matched.rowValid (.release leaseToken rfl howns))
  | updateProgress requested id leaseToken progress =>
    obtain ⟨record, h⟩ := map_fst_eq_ok.1 h
    obtain ⟨row, handoff, a, htoken, -, -, -, rfl, m⟩ := Journal.updateProgress_ok h
    exact .single (.rewrite _ row _ _ (.operation a.stored.operation_eq a.stored.handoff_eq m)
      a.stored.matched.rowValid (.progress leaseToken _ _ rfl htoken))
  | complete requested id leaseToken result =>
    obtain ⟨record, h⟩ := map_fst_eq_ok.1 h
    exact finish_edits rfl h
  | fail requested id leaseToken error =>
    obtain ⟨record, h⟩ := map_fst_eq_ok.1 h
    exact finish_edits rfl h
  | markCancelled requested id leaseToken =>
    obtain ⟨record, h⟩ := map_fst_eq_ok.1 h
    exact finish_edits rfl h
  | commitCompletionIntent requested id leaseToken result =>
    obtain ⟨decision, h⟩ := map_fst_eq_ok.1 h
    obtain ⟨row, handoff, a, htoken, ⟨-, rfl⟩ | ⟨-, hrunning, -, rfl⟩⟩ :=
      Journal.commitCompletionIntent_ok h
    · exact .refl
    · have hactive : row.status.isTerminal = false := by rw [hrunning]; rfl
      have m := a.stored.matched.decided hactive a.stored.updated_le a.before_deadline
      exact .single (.rewrite _ row _ _ (.decided a.stored.operation_eq a.stored.handoff_eq m)
        a.stored.matched.rowValid (.decide leaseToken rfl htoken))
  | finishCompletionIntent requested id =>
    obtain ⟨record, h⟩ := map_fst_eq_ok.1 h
    obtain ⟨row, handoff, intent, s, -, d, rfl, m⟩ := Journal.finishCompletionIntent_ok h
    rw [d.updated] at m
    rw [Journal.publishedTables, d.updated]
    exact .single (.rewrite _ row _ _ (.published s.operation_eq m) s.matched.rowValid
      (.publish _ _ _ rfl))
  | failDeadline requested id runnerCleanupCompleted =>
    obtain ⟨record, h⟩ := map_fst_eq_ok.1 h
    obtain ⟨-, row, handoff, hdeadline, hfails⟩ := Journal.failDeadline_ok h
    exact hfails.edits fun error => .deadline error hfails.active hdeadline
  | purge guardAcquired =>
    obtain ⟨report, h⟩ := map_fst_eq_ok.1 h
    exact purge_edits h

theorem Steps.edits {repositoryId : LogicalRepositoryId} {event : Event C}
    (h : Steps repositoryId nowMs event t t') : Edits C nowMs event.call t t' := by
  rcases h.eq_or_apply with rfl | happly
  · exact .refl
  · exact apply_edits happly

section Rows

variable {repositoryId : LogicalRepositoryId} {row row' : OperationRow}

/-! ### The rows after an edit -/

/-- What identifies the request of an operation stays in its row. -/
structure SameInput (row row' : OperationRow) : Prop where
  scope : row'.scope = row.scope
  inputJson : row'.inputJson = row.inputJson
  inputDigest : row'.inputDigest = row.inputDigest

theorem SameInput.refl (row : OperationRow) : SameInput row row := ⟨rfl, rfl, rfl⟩

theorem SameInput.trans {a b c : OperationRow} (h : SameInput a b) (h' : SameInput b c) :
    SameInput a c :=
  ⟨h'.scope.trans h.scope, h'.inputJson.trans h.inputJson, h'.inputDigest.trans h.inputDigest⟩

theorem RowEdit.sameInput (h : RowEdit C t nowMs call row row') : SameInput row row' := by
  cases h <;> exact ⟨rfl, rfl, rfl⟩

theorem RowEdit.updated_le (h : RowEdit C t nowMs call row row') (hrow : row.updatedAtMs ≤ nowMs) :
    row'.updatedAtMs ≤ nowMs := by
  cases h with
  | publish | deadline => assumption
  | _ => exact le_rfl

theorem Rewrites.forall_operations {row row' : OperationRow} {handoff' : HandoffRow}
    {P : String → OperationRow → Prop} (r : Rewrites C t t' id row row' handoff')
    (h : ∀ (key : String) (row : OperationRow), t.operations[key]? = some row → P key row)
    (hrow' : P id row') :
    ∀ (key : String) (row : OperationRow), t'.operations[key]? = some row → P key row := by
  intro key row₁ h₁
  rw [r.operations] at h₁
  split_ifs at h₁ with hkey
  · obtain rfl := Option.some.inj h₁
    exact hkey ▸ hrow'
  · exact h key row₁ h₁

theorem Removes.operations (h : Removes C t t' nowMs id row) (key : String) :
    t'.operations[key]? = if key = id then none else t.operations[key]? := by
  rcases h with ⟨-, rfl⟩ | ⟨tombstone, -, -, hinsert⟩
  · exact Table.getElem?_erase
  · simp only [Tables.insertTombstone, bind_eq_ok, pure, Except.pure, Except.ok.injEq] at hinsert
    obtain ⟨_, -, _, -, _, -, rfl⟩ := hinsert
    exact Table.getElem?_erase

/-- What holds of the rows before an edit, of a rewritten row and of a submitted one, holds of the
rows afterwards. -/
theorem Edit.forall_operations {P : String → OperationRow → Prop} (h : Edit C nowMs call t t')
    (hall : ∀ (key : String) (row : OperationRow), t.operations[key]? = some row → P key row)
    (hrewrite : ∀ (id : String) (row row' : OperationRow), t.operations[id]? = some row →
      RowEdit C t nowMs call row row' → RowValid C id row' → P id row')
    (hsubmit : ∀ (request : SubmitRequest C) (id json : String)
      (completed total retainUntilMs : Int),
      RowValid C id (submittedRow request json completed total retainUntilMs nowMs) →
        P id (submittedRow request json completed total retainUntilMs nowMs)) :
    ∀ (key : String) (row : OperationRow), t'.operations[key]? = some row → P key row := by
  cases h with
  | rewrite id row row' handoff' rewrites valid edit =>
    exact rewrites.forall_operations hall
      (hrewrite id row row' rewrites.operation_eq edit rewrites.matched.rowValid)
  | submit request randomBytes id json completed total retainUntilMs handoff called free matched =>
    intro key row₁ h₁
    rw [Tables.operations_setHandoff, Tables.operations_setOperation] at h₁
    split_ifs at h₁ with hkey
    · obtain rfl := Option.some.inj h₁
      exact hkey ▸ hsubmit request id json completed total retainUntilMs matched.rowValid
    · exact hall key row₁ h₁
  | remove id row called found terminal elapsed removes =>
    intro key row₁ h₁
    rw [removes.operations] at h₁
    split_ifs at h₁
    exact hall key row₁ h₁
  | dropTombstone => exact hall

theorem Edit.writtenBy (h : Edit C nowMs call t t') (hwritten : WrittenBy nowMs t) :
    WrittenBy nowMs t' :=
  h.forall_operations hwritten (fun id row _ hrow edit _ => edit.updated_le (hwritten id row hrow))
    fun _ _ _ _ _ _ _ => le_rfl

/-- **Nothing is written behind the clock.** -/
theorem Reachable.writtenBy {c : Config Int Tables} (h : Reachable C repositoryId c) :
    WrittenBy c.now c.state := by
  obtain ⟨start, hrun⟩ := h
  refine hrun.invariant_at (I := WrittenBy) (fun id row h => by simp [Tables.empty] at h) ?_
  intro now now' event t t' hnow hstep hwritten
  exact hstep.edits.invariant (fun id row hrow => (hwritten id row hrow).trans hnow)
    fun t t' => Edit.writtenBy

end Rows

end

end Operation
