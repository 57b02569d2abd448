import Depgraph.Operation.Run

/-!
# What one write does to a row

Every change of an operation's row, by whichever method, is a `Writes`: the operation is active,
keeps its identity, and neither its time nor its progress goes back. `Advances` is what any number
of writes amounts to.

* `Matched.cancelling` and `Matched.decided`: the two writes that are not read back keep the row in
  accord with its handoff.
* `OneWrite` and `Ended` are the changes of a row in one call.
-/

namespace Operation

variable {C : Codec}

/-- One write to the row of an operation. -/
structure Writes (row row' : OperationRow) : Prop where
  active : row.status.isTerminal = false
  scope : row'.scope = row.scope
  deadline : row'.executionDeadlineMs = row.executionDeadlineMs
  updated_le : row.updatedAtMs ≤ row'.updatedAtMs
  completed_le : row.progressCompleted ≤ row'.progressCompleted
  total : row'.progressTotal = row.progressTotal ∨
    (row.kind = .scanSubmit ∧ row.progressTotal = 1 ∧ row.progressCompleted = 0 ∧
      row'.progressCompleted = 0 ∧ 1 < row'.progressTotal)
  status : row'.status = row.status ∨ row.status.allowsTransitionTo row'.status = true

/-- The states of an operation may follow each other. -/
def Follows : OperationStatus → OperationStatus → Prop :=
  Relation.ReflTransGen fun s s' => s.allowsTransitionTo s' = true

/-- What a run does to the row of an operation. -/
structure Advances (row row' : OperationRow) : Prop where
  scope : row'.scope = row.scope
  deadline : row'.executionDeadlineMs = row.executionDeadlineMs
  updated_le : row.updatedAtMs ≤ row'.updatedAtMs
  completed_le : row.progressCompleted ≤ row'.progressCompleted
  /-- The total changes only from the estimate `0/1` of a scan to a larger one. -/
  total : row'.progressTotal = row.progressTotal ∨
    (row.kind = .scanSubmit ∧ row.progressTotal = 1 ∧ row.progressCompleted ≤ 0 ∧
      1 < row'.progressTotal)
  status : Follows row.status row'.status
  terminal : row.status.isTerminal = true → row' = row

theorem Advances.refl (row : OperationRow) : Advances row row :=
  ⟨rfl, rfl, le_rfl, le_rfl, Or.inl rfl, .refl, fun _ => rfl⟩

theorem Advances.kind {row row' : OperationRow} (h : Advances row row') : row'.kind = row.kind :=
  congrArg Scope.kind h.scope

theorem Advances.trans {a b c : OperationRow} (h : Advances a b) (h' : Advances b c) :
    Advances a c where
  scope := h'.scope.trans h.scope
  deadline := h'.deadline.trans h.deadline
  updated_le := h.updated_le.trans h'.updated_le
  completed_le := h.completed_le.trans h'.completed_le
  total := by
    have hle := h.completed_le
    rcases h.total with htotal | ⟨hkind, hone, hzero, hlt⟩ <;>
      rcases h'.total with htotal' | ⟨hkind', hone', hzero', hlt'⟩
    · exact Or.inl (htotal'.trans htotal)
    · exact Or.inr ⟨h.kind.symm.trans hkind', htotal.symm.trans hone', hle.trans hzero', hlt'⟩
    · exact Or.inr ⟨hkind, hone, hzero, htotal'.symm ▸ hlt⟩
    · omega
  status := h.status.trans h'.status
  terminal hterminal := by
    obtain rfl := h.terminal hterminal
    exact h'.terminal hterminal

/-- A total that has changed does not change again. -/
theorem Advances.total_once {a b c : OperationRow} (h : Advances a b) (h' : Advances b c)
    (hne : b.progressTotal ≠ a.progressTotal) : c.progressTotal = b.progressTotal := by
  rcases h.total with htotal | ⟨-, -, -, hlt⟩
  · exact absurd htotal hne
  · rcases h'.total with htotal' | ⟨-, hone, -⟩
    · exact htotal'
    · omega

theorem Writes.advances {row row' : OperationRow} (h : Writes row row') : Advances row row' where
  scope := h.scope
  deadline := h.deadline
  updated_le := h.updated_le
  completed_le := h.completed_le
  total := h.total.imp_right fun ⟨hkind, hone, hzero, _, hlt⟩ => ⟨hkind, hone, hzero.le, hlt⟩
  status := by
    rcases h.status with hs | hs
    · rw [hs]; exact .refl
    · exact .single hs
  terminal hterminal := absurd (h.active.symm.trans hterminal) Bool.false_ne_true

/-! ### The changes of a row in one call -/

/-- The row is written at most once. -/
def OneWrite (row row' : OperationRow) : Prop := row' = row ∨ Writes row row'

/-- The row is left alone, or its operation ends. -/
def Ended (row row' : OperationRow) : Prop :=
  row' = row ∨ (Writes row row' ∧ row'.status.isTerminal = true)

theorem OneWrite.advances {row row' : OperationRow} (h : OneWrite row row') :
    Advances row row' := by
  rcases h with rfl | h
  · exact .refl _
  · exact h.advances

theorem OneWrite.status {row row' : OperationRow} (h : OneWrite row row') :
    row'.status = row.status ∨ row.status.allowsTransitionTo row'.status = true := by
  rcases h with rfl | h
  · exact Or.inl rfl
  · exact h.status

/-- What has ended is not written again. -/
theorem Ended.write {a b c : OperationRow} (h : Ended a b) (h' : OneWrite b c) :
    OneWrite a c := by
  rcases h with rfl | ⟨hwrites, hterminal⟩
  · exact h'
  · rcases h' with rfl | h'
    · exact Or.inr hwrites
    · exact absurd (h'.active.symm.trans hterminal) Bool.false_ne_true

theorem Ended.oneWrite {a b : OperationRow} (h : Ended a b) : OneWrite a b := h.imp_right And.left

theorem Ended.trans {a b c : OperationRow} (h : Ended a b) (h' : Ended b c) : Ended a c := by
  rcases h' with rfl | ⟨hwrites', hterminal'⟩
  · exact h
  · rcases h with rfl | ⟨_, hterminal⟩
    · exact Or.inr ⟨hwrites', hterminal'⟩
    · exact absurd (hwrites'.active.symm.trans hterminal) Bool.false_ne_true

/-! ### The writes of the methods -/

section

variable {id : String} {row : OperationRow} {handoff : HandoffRow} {nowMs : Int}

/-- Only an active operation has a lease, which ends by its deadline. -/
theorem RowValid.lease_bound (v : RowValid C id row) {lease : OperationLease}
    (h : leaseOf row = some lease) :
    row.status.isTerminal = false ∧ lease.expiresAtMs ≤ row.executionDeadlineMs := by
  rcases v.lease with ⟨h1, h2, h3⟩ | ⟨owner, tokenDigest, expiresAtMs, ⟨h1, h2, h3⟩,
    ⟨hactive, -, hle⟩, hvalid⟩
  · simp [leaseOf, h1] at h
  · simp only [leaseOf, h1, h2, h3, dif_pos hvalid, Option.some.injEq] at h
    subst h
    exact ⟨hactive, hle⟩

theorem Writes.leased (hactive : row.status.isTerminal = false)
    (hupdated : row.updatedAtMs ≤ nowMs) {owner : LeaseOwner} {tokenDigest : Protocol.Digest}
    {leaseExpiresAtMs : Int} :
    Writes row (leasedRow owner tokenDigest leaseExpiresAtMs nowMs row) := by
  refine ⟨hactive, rfl, rfl, hupdated, le_rfl, Or.inl rfl, ?_⟩
  show claimedStatus row.status = _ ∨ row.status.allowsTransitionTo (claimedStatus row.status) = _
  cases hstatus : row.status <;> simp [claimedStatus, OperationStatus.allowsTransitionTo]

theorem Writes.failed (hallows : row.status.allowsTransitionTo .failed = true)
    {terminalAtMs : Int} (hupdated : row.updatedAtMs ≤ terminalAtMs) {error : String}
    {retainUntilMs : Int} : Writes row (failedRow error terminalAtMs retainUntilMs row) :=
  ⟨OperationStatus.not_isTerminal_of_allows hallows, rfl, rfl, hupdated, le_rfl, Or.inl rfl,
    Or.inr hallows⟩

theorem Writes.ended (v : RowValid C id row) {payload : FinishPayload}
    (hallows : row.status.allowsTransitionTo payload.status = true)
    (hupdated : row.updatedAtMs ≤ nowMs) : Writes row (Journal.endedRow payload nowMs row) := by
  refine ⟨OperationStatus.not_isTerminal_of_allows hallows, rfl, rfl, hupdated, ?_, Or.inl rfl,
    Or.inr hallows⟩
  show row.progressCompleted ≤ Journal.finishedUnits payload row
  unfold Journal.finishedUnits
  split_ifs
  · exact v.progress_le
  · exact le_rfl

theorem Writes.published (v : RowValid C id row) (hrunning : row.status = .running)
    {result : String} {retentionAnchorMs retainUntilMs : Int} :
    Writes row (publishedRow result row.updatedAtMs retentionAnchorMs retainUntilMs row) := by
  refine ⟨?_, rfl, rfl, le_rfl, v.progress_le, Or.inl rfl, Or.inr ?_⟩
  · rw [hrunning]; rfl
  · rw [hrunning]; rfl

/-- **An operation that is to be cancelled still matches its handoff.** -/
theorem Matched.cancelling (m : Matched C id row handoff)
    (hstatus : row.status = .queued ∨ row.status = .running) (hupdated : row.updatedAtMs ≤ nowMs)
    (hdeadline : nowMs < row.executionDeadlineMs) :
    Matched C id (cancellingRow nowMs row) handoff := by
  have v := m.rowValid
  have hactive : row.status.isTerminal = false := by
    rcases hstatus with h | h <;> rw [h] <;> rfl
  obtain ⟨hterminal, hresult, herror, hanchor⟩ := v.active hactive
  refine
    { m with
      rowValid :=
        { v with
          created_le := v.created_le.trans hupdated
          updated_le := hdeadline.le
          anchor_active := fun h _ => v.anchor_active h hactive
          anchor_terminal := fun _ h => by cases h
          lease := v.lease.imp_right fun ⟨owner, tokenDigest, expiresAtMs, hcolumns, hwindow, hvalid⟩ =>
            ⟨owner, tokenDigest, expiresAtMs, hcolumns, ⟨rfl, hwindow.2⟩, hvalid⟩
          queued_lease := fun h => by cases h
          payloads := ?_
          terminal := fun _ h => by cases hterminal.symm.trans h
          late_anchor := fun h => absurd hanchor h }
      claimed_le := fun claimedAtMs h => (m.claimed_le claimedAtMs h).trans hupdated
      queued := fun h => by cases h
      running := fun h => by cases h
      finished := fun h => by rcases h with h | h <;> cases h
      failed := fun h => by cases h }
  show payloadsAgree .cancelling row.terminalAtMs (row.resultJson.map _) (row.errorJson.map _) = _
  rw [hterminal, hresult, herror]
  rfl

theorem Writes.cancelling (hstatus : row.status = .queued ∨ row.status = .running)
    (hupdated : row.updatedAtMs ≤ nowMs) : Writes row (cancellingRow nowMs row) := by
  refine ⟨?_, rfl, rfl, hupdated, le_rfl, Or.inl rfl, Or.inr ?_⟩
  · rcases hstatus with h | h <;> rw [h] <;> rfl
  · rcases hstatus with h | h <;> rw [h] <;> rfl

/-- Work that is withdrawn before its launch is cancelled in two writes. -/
theorem Writes.cancelled {retentionAnchorMs retainUntilMs : Int} :
    Writes (cancellingRow nowMs row)
      (cancelledRow retentionAnchorMs retainUntilMs nowMs (cancellingRow nowMs row)) :=
  ⟨rfl, rfl, rfl, le_rfl, le_rfl, Or.inl rfl, Or.inr rfl⟩

/-- **An operation whose completion has been decided still matches its handoff.** -/
theorem Matched.decided (m : Matched C id row handoff) (hactive : row.status.isTerminal = false)
    (hupdated : row.updatedAtMs ≤ nowMs) (hdeadline : nowMs < row.executionDeadlineMs) :
    Matched C id (decidedRow nowMs row) handoff :=
  have v := m.rowValid
  { m with
    rowValid :=
      { v with
        created_le := v.created_le.trans hupdated
        updated_le := hdeadline.le
        terminal := fun _ h => by cases (v.active hactive).1.symm.trans h }
    claimed_le := fun claimedAtMs h => (m.claimed_le claimedAtMs h).trans hupdated }

theorem Writes.decided (hactive : row.status.isTerminal = false)
    (hupdated : row.updatedAtMs ≤ nowMs) : Writes row (decidedRow nowMs row) :=
  ⟨hactive, rfl, rfl, hupdated, le_rfl, Or.inl rfl, Or.inl rfl⟩

end

end Operation
