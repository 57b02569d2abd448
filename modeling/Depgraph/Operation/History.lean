import Depgraph.Operation.Invariant

/-!
# The history of an operation

What holds in every state that a run of the journal reaches, and what the run has done to the row
of an operation that has been there all the time.
-/

namespace Operation

open Protocol TimedRun

section

variable {C : Codec} {repositoryId : LogicalRepositoryId}

theorem Steps.preserves {nowMs : Int} {event : Event C} {t t' : Tables}
    (h : Steps repositoryId nowMs event t t') (inv : Invariant C repositoryId t) :
    Invariant C repositoryId t' ∧ CallKeeps event.call t t' := by
  rcases h.eq_or_apply with rfl | happly
  · exact ⟨inv, .refl⟩
  · exact apply_preserves h.repository inv happly

/-- **The invariant holds in every reachable state.** -/
theorem Reachable.invariant {c : Config Int Tables} (h : Reachable C repositoryId c) :
    Invariant C repositoryId c.state := by
  obtain ⟨start, hrun⟩ := h
  exact hrun.invariant .empty fun _ _ _ _ hstep inv => (hstep.preserves inv).1

/-- Nothing has been written behind this time. -/
def WrittenBy (nowMs : Int) (t : Tables) : Prop :=
  ∀ (id : String) (row : OperationRow), t.operations[id]? = some row → row.updatedAtMs ≤ nowMs

/-- The operation is there before and after every step. -/
structure LiveSteps (repositoryId : LogicalRepositoryId) (id : String) (nowMs : Int)
    (event : Event C) (t t' : Tables) : Prop where
  steps : Steps repositoryId nowMs event t t'
  before : t.operations[id]? ≠ none
  after : t'.operations[id]? ≠ none

/-- A row is there before and afterwards, and has advanced. -/
def RowAdvances (id : String) (t t' : Tables) : Prop :=
  ∀ row row' : OperationRow, t.operations[id]? = some row → t'.operations[id]? = some row' →
    Advances row row'

theorem CallWrites.advances {call : Call C} {id : String} {row row' : OperationRow}
    (h : CallWrites call id row row') : Advances row row' := by
  rcases h with h | h
  · exact h.advances
  · exact h.advances

/-- **While an operation is there, a run only advances it.** -/
theorem rowAdvances_of_run {id : String} {c c' : Config Int Tables}
    (inv : Invariant C repositoryId c.state)
    (h : Run (LiveSteps (C := C) repositoryId id) c c') : RowAdvances id c.state c'.state := by
  induction h with
  | refl =>
    intro row row' hrow hrow'
    obtain rfl := Option.some.inj (hrow.symm.trans hrow')
    exact .refl _
  | tail hrun hnext ih =>
    obtain ⟨event, hsteps, hbefore, -⟩ := hnext.takes
    have inv₁ := Run.invariant (I := Invariant C repositoryId) hrun inv
      fun _ _ _ _ hstep inv => (hstep.steps.preserves inv).1
    obtain ⟨row₁, hrow₁⟩ := Option.ne_none_iff_exists'.1 hbefore
    intro row row' hrow hrow'
    exact (ih row row₁ hrow hrow₁).trans
      ((hsteps.preserves inv₁).2 id row₁ row' hrow₁ hrow').advances

/-- An operation decodes, and so does its handoff; the two match, and a lease ends by the
deadline. -/
def DecodesWithHandoff (C : Codec) (t : Tables) (id : String) (row : OperationRow) : Prop :=
  ∃ handoff record runnerHandoff, t.handoffs[id]? = some handoff ∧
    decodeOperation C id row = .ok record ∧ decodeHandoff C id handoff = .ok runnerHandoff ∧
    validateOperationHandoff record runnerHandoff = .ok () ∧
    ∀ lease, record.lease = some lease → lease.expiresAtMs ≤ record.executionDeadlineMs

theorem Matched.decodes {t : Tables} {id : String} {row : OperationRow} {handoff : HandoffRow}
    (m : Matched C id row handoff) (h : t.handoffs[id]? = some handoff) :
    DecodesWithHandoff C t id row :=
  ⟨handoff, recordOf m.rowValid, handoffOf m.handoffValid, h,
    decodeOperation_eq_ok.2 ⟨m.rowValid, rfl⟩, decodeHandoff_eq_ok.2 ⟨m.handoffValid, rfl⟩,
    (validateOperationHandoff_eq_ok _ _).2 m, fun _ h => (m.rowValid.lease_bound h).2⟩

/-- **The history of the journal.** In every reachable state every operation decodes and matches
its handoff, handoffs belong to operations, and nothing live is reserved by a tombstone. A call
changes a status as `allows_transition_to` says, or withdraws a queued operation through
`cancelling`. As long as an operation is there it only advances, and its total changes at most
once. -/
theorem reachable_history {c : Config Int Tables} (h : Reachable C repositoryId c) :
    (∀ (id : String) (row : OperationRow), c.state.operations[id]? = some row →
      DecodesWithHandoff C c.state id row) ∧
    (∀ id : String, c.state.handoffs[id]? ≠ none → c.state.operations[id]? ≠ none) ∧
    (∀ id : String, c.state.operations[id]? ≠ none → c.state.tombstones[id]? = none) ∧
    (∀ (id : String) (row : OperationRow) (key : String) (tombstone : TombstoneRow),
      c.state.operations[id]? = some row → c.state.tombstones[key]? = some tombstone →
        tombstone.scope ≠ row.scope) ∧
    (∀ (nowMs : Int) (event : Event C) (t : Tables), Steps repositoryId nowMs event c.state t →
      ∀ (id : String) (row row' : OperationRow), c.state.operations[id]? = some row →
        t.operations[id]? = some row' → row'.status = row.status ∨
          row.status.allowsTransitionTo row'.status = true ∨
          Withdraws event.call id row row') ∧
    (∀ (id : String) (c₁ c₂ : Config Int Tables) (row row₁ row₂ : OperationRow),
      Run (LiveSteps (C := C) repositoryId id) c c₁ →
      Run (LiveSteps (C := C) repositoryId id) c₁ c₂ →
      c.state.operations[id]? = some row → c₁.state.operations[id]? = some row₁ →
      c₂.state.operations[id]? = some row₂ →
        Advances row row₁ ∧ (row₁.progressTotal ≠ row.progressTotal →
          row₂.progressTotal = row₁.progressTotal)) := by
  have inv := h.invariant
  refine ⟨fun id row hrow => ?_, fun id hhandoff hnone => ?_, fun id hlive => ?_,
    inv.tombstone_scope, fun nowMs event t hsteps id row row' hrow hrow' => ?_,
    fun id c₁ c₂ row row₁ row₂ hrun hrun' hrow hrow₁ hrow₂ => ?_⟩
  · obtain ⟨handoff, hhandoff, m⟩ := inv.matched id row hrow
    exact m.decodes hhandoff
  · exact hhandoff (inv.handoff_operation id hnone)
  · obtain ⟨row, hrow⟩ := Option.ne_none_iff_exists'.1 hlive
    exact inv.tombstone id row hrow
  · rcases (hsteps.preserves inv).2 id row row' hrow hrow' with h | h
    · exact h.status.imp_right Or.inl
    · exact Or.inr (Or.inr h)
  · have inv₁ := Run.invariant (I := Invariant C repositoryId) hrun inv
      fun _ _ _ _ hstep inv => (hstep.steps.preserves inv).1
    have hadvances := rowAdvances_of_run inv hrun row row₁ hrow hrow₁
    exact ⟨hadvances, hadvances.total_once (rowAdvances_of_run inv₁ hrun' row₁ row₂ hrow₁ hrow₂)⟩

end

/-! ### A withdrawn operation -/

namespace Sample

/-- A submitted operation. -/
def submitted : Config Int Tables := journal.calls [(0, submit)] ⟨0, Tables.empty⟩

/-- The withdrawal of the submitted operation. -/
def withdrawal : Call codec := .cancelBeforeLaunch repositoryId operationId capabilities

end Sample

open Sample in
/-- The history of a withdrawn operation. -/
theorem reachable_history_withdrawn :
    ∃ row, (journal.calls [(0, submit), (1, withdrawal)] ⟨0, Tables.empty⟩).state.operations[
        operationId.str]? = some row ∧ row.status = .cancelled ∧
      DecodesWithHandoff codec
        (journal.calls [(0, submit), (1, withdrawal)] ⟨0, Tables.empty⟩).state operationId.str
        row := by
  have hstatus : ((journal.calls [(0, submit), (1, withdrawal)]
      ⟨0, Tables.empty⟩).state.operations[operationId.str]?).map OperationRow.status =
        some .cancelled := by
    decide +kernel
  obtain ⟨row, hrow, hcancelled⟩ := Option.map_eq_some_iff.1 hstatus
  exact ⟨row, hrow, hcancelled,
    (reachable_history (journal.reachable_calls [(0, submit), (1, withdrawal)])).1 _ row hrow⟩

open Sample in
/-- A withdrawal takes an operation from `queued` to `cancelled` in one call, which is not an
allowed transition: the state between the two is private to the transaction. -/
theorem withdrawal_not_allowed :
    ¬ ∀ (c : Config Int Tables) (nowMs : Int) (event : Event codec) (t : Tables),
      Reachable codec repositoryId c → c.now ≤ nowMs → Steps repositoryId nowMs event c.state t →
        ∀ (id : String) (row row' : OperationRow), c.state.operations[id]? = some row →
          t.operations[id]? = some row' →
            row'.status = row.status ∨ row.status.allowsTransitionTo row'.status = true := by
  intro h
  have hbefore : (submitted.state.operations[operationId.str]?).map OperationRow.status =
      some .queued := by
    decide +kernel
  have hafter : ((journal.step .intact 1 withdrawal submitted.state).operations[
      operationId.str]?).map OperationRow.status = some .cancelled := by
    decide +kernel
  obtain ⟨row, hrow, hqueued⟩ := Option.map_eq_some_iff.1 hbefore
  obtain ⟨row', hrow', hcancelled⟩ := Option.map_eq_some_iff.1 hafter
  have hstatus := h submitted 1 ⟨journal, .intact, withdrawal⟩ _
    (journal.reachable_calls [(0, submit)]) (by decide) ⟨rfl, rfl⟩ _ row row' hrow hrow'
  rw [hqueued, hcancelled] at hstatus
  revert hstatus
  decide

end Operation
