import Depgraph.Library.Spending
import Depgraph.Query.Execute

/-!
# Parts of a run that count no states

Most parts of a run neither count traversal states nor fail at their limit. What they may fail with,
and that they leave the count as it is, is said once here: the failures of a whole run and the
states that it counts are both put together from these parts.
-/

namespace Query

open Json Protocol OrderedMap Metered Spending LeastUnderKey Std
open Store hiding GraphSnapshot

namespace Executor

variable {E : Executor}

/-- What may end a run whose traversal states are within the limit. -/
def StopsOtherwise (E : Executor) (error : BoundedQueryExecutionError) : Prop :=
  (∃ resource observed limit, resource ≠ "traversal_states" ∧
    error = resourceError resource observed limit) ∨ ∃ n, E.interrupts n = some error

/-- The traversal states, without a limit. -/
def unlimitedStates (E : Executor) :
    Spending BoundedQueryExecutionMetrics BoundedQueryExecutionError where
  count metrics := metrics.traversalStates
  Fits _ := True
  Other := E.StopsOtherwise
  fits _ _ := trivial

/-- Counts no states, and ends a run only for another reason than their limit. -/
abbrev Uncounted {α : Type} (E : Executor) (x : Execution α) : Prop :=
  E.unlimitedStates.Idle x fun _ => True

theorem uncounted_guard : E.Uncounted E.guard := by
  intro metrics _
  cases hstop : E.interrupts metrics.asked with
  | some stop =>
    have hguard : E.guard metrics = .error stop := by rw [guard, hstop]
    refine ⟨fun e he => ?_, fun a s' ha => (nomatch hguard.symm.trans ha)⟩
    obtain rfl := Except.error.inj (hguard.symm.trans he)
    exact .inr ⟨_, hstop⟩
  | none =>
    have hguard : E.guard metrics = .ok ((), { metrics with asked := metrics.asked + 1 }) := by
      rw [guard, hstop]
    refine ⟨fun e he => (nomatch hguard.symm.trans he), fun a s' ha => ?_⟩
    obtain ⟨-, rfl⟩ := Prod.mk.inj (Except.ok.inj (hguard.symm.trans ha))
    exact ⟨0, Nat.le_refl _, Nat.le_refl _, trivial⟩

theorem uncounted_checkResource {resource : String} (h : resource ≠ "traversal_states")
    (observed limit : Nat) : E.Uncounted (checkResource resource observed limit) := by
  refine .ite (fun _ metrics _ => ⟨fun e he => ?_, fun a s' ha => ?_⟩) fun _ => .pure trivial
  · exact .inl ⟨_, _, _, h, (Except.error.inj he).symm⟩
  · cases ha

/-- The rule for a change of the metrics. -/
theorem uncounted_update {α : Type}
    {update : BoundedQueryExecutionMetrics → BoundedQueryExecutionMetrics}
    {rest : BoundedQueryExecutionMetrics → Execution α}
    (hupdate : ∀ metrics, (update metrics).traversalStates = metrics.traversalStates)
    (hrest : ∀ metrics, E.Uncounted (rest metrics)) :
    E.Uncounted (do
      let metrics ← get
      set (update metrics)
      rest metrics) := by
  intro metrics _
  have hcount : E.unlimitedStates.count (update metrics) = E.unlimitedStates.count metrics :=
    hupdate metrics
  obtain ⟨herror, hok⟩ := hrest metrics (update metrics) trivial
  refine ⟨herror, fun a s' ha => ?_⟩
  obtain ⟨k, hk, hle, -⟩ := hok a s' ha
  exact ⟨k, hk, hcount ▸ hle, trivial⟩

theorem uncounted_refreshMemory : E.Uncounted E.refreshMemory :=
  uncounted_update (fun _ => rfl) fun _ => uncounted_checkResource (by decide) _ _

theorem uncounted_incrementSourceTests : E.Uncounted E.incrementSourceTests :=
  uncounted_update (fun _ => rfl) fun _ => uncounted_checkResource (by decide) _ _

theorem uncounted_incrementEdgeTests : E.Uncounted E.incrementEdgeTests :=
  uncounted_guard.then fun _ _ =>
    uncounted_update (fun _ => rfl) fun _ => uncounted_checkResource (by decide) _ _

theorem uncounted_incrementSiteTests : E.Uncounted E.incrementSiteTests :=
  uncounted_update (fun _ => rfl) fun _ => uncounted_checkResource (by decide) _ _

theorem uncounted_incrementEvidenceTests : E.Uncounted E.incrementEvidenceTests :=
  uncounted_update (fun _ => rfl) fun _ => uncounted_checkResource (by decide) _ _

theorem uncounted_refreshStagedMetrics (rows : List (List Value)) :
    E.Uncounted (E.refreshStagedMetrics rows) :=
  uncounted_update (fun _ => rfl) fun _ => (uncounted_checkResource (by decide) _ _).then
    fun _ _ => (uncounted_checkResource (by decide) _ _).then fun _ _ => uncounted_refreshMemory

theorem uncounted_anyEvidence (expression : TypedEntityExpression)
    (evidence : List EvidenceRecord) : E.Uncounted (E.anyEvidence expression evidence) := by
  induction evidence with
  | nil => exact .pure trivial
  | cons item rest ih =>
    rw [anyEvidence]
    exact uncounted_incrementEvidenceTests.then fun _ _ => .ite (fun _ => .pure trivial) fun _ => ih

theorem uncounted_matchPredicate (site : Option SiteRecord) (evidence : List EvidenceRecord)
    (predicate : TypedQuantifierPredicate) :
    E.Uncounted (E.matchPredicate site evidence predicate) := by
  unfold matchPredicate
  cases predicate.binding.entityType with
  | site =>
    cases site with
    | none => exact .pure trivial
    | some site => exact uncounted_incrementSiteTests.then fun _ _ => .pure trivial
  | evidence => exact uncounted_anyEvidence _ _
  | node => exact .pure trivial
  | path => exact .pure trivial
  | edge => exact .pure trivial

theorem uncounted_matchPredicates (site : Option SiteRecord) (evidence : List EvidenceRecord)
    (index bits : Nat) (predicates : List TypedQuantifierPredicate) :
    E.Uncounted (E.matchPredicates site evidence index bits predicates) := by
  induction predicates generalizing index bits with
  | nil => exact .pure trivial
  | cons predicate predicates ih =>
    rw [matchPredicates]
    exact .ite (fun _ => ih _ _) fun _ =>
      (uncounted_matchPredicate site evidence predicate).then fun _ _ => ih _ _

theorem uncounted_extendWitness (witness : Witness) (edge : EdgeRecord) (node : String) :
    E.Uncounted (E.extendWitness witness edge node) :=
  (uncounted_matchPredicates _ _ _ _ _).then fun _ _ => .pure trivial

/-- The rule for a loop that counts no states. -/
theorem uncounted_foldlM {α β : Type} {f : β → α → Execution β} {l : List α} {b : β}
    (hf : ∀ a ∈ l, ∀ acc, E.Uncounted (f acc a)) : E.Uncounted (l.foldlM f b) :=
  (Spends.foldlM (fun _ => True) (fun _ => 0)
    (fun a ha acc _ => (hf a ha acc).mono fun _ _ hk _ => ⟨trivial, hk⟩) trivial).mono
      fun _ _ _ _ => trivial

theorem uncounted_sourceNodes (planned : Nat) : E.Uncounted (E.sourceNodes planned) := by
  unfold sourceNodes
  refine .ite (fun _ => .pure trivial) fun _ => ?_
  cases sourceIdLookup E.query with
  | some id => exact uncounted_incrementSourceTests.then fun _ _ => .pure trivial
  | none =>
    refine (uncounted_foldlM fun node _ sources => ?_).then fun _ _ => .pure trivial
    exact .ite (fun _ => .pure trivial) fun _ =>
      uncounted_incrementSourceTests.then fun _ _ => .pure trivial

/-- The steps after the last row. -/
theorem uncounted_finish (rows : List (List Value)) :
    E.Uncounted (do
      E.guard
      checkResource "result_rows" rows.length E.limits.resultRows
      checkResource "serialized_output_bytes" (E.serializedRowsBytes rows)
        E.limits.serializedOutputBytes
      E.refreshStagedMetrics rows
      E.guard
      return rows) :=
  uncounted_guard.then fun _ _ => (uncounted_checkResource (by decide) _ _).then fun _ _ =>
    (uncounted_checkResource (by decide) _ _).then fun _ _ =>
      (uncounted_refreshStagedMetrics rows).then fun _ _ => uncounted_guard.then fun _ _ =>
        .pure trivial

end Executor

end Query
