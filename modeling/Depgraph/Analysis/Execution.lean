import Depgraph.Analysis.Prerequisites
import Depgraph.Library.ChoiceRun
import Mathlib.Data.List.Range

/-!
# The executor of the analysis units

The executor hands the outputs of its workers to `consume` in the order of the work list. It starts
units in this order as well, not more than a window ahead, and puts an output that comes early aside
until its turn. What it cannot decide by itself is given to it as a choice: what `consume` answers,
whether a checkpoint holds the output of a unit, which worker is done first, and when somebody
cancels the scan.
-/

namespace Analysis

open OrderedMap

/-- The fields of `AnalysisUnitProgress` that do not come from the clock or the loader. -/
structure AnalysisUnitProgress where
  unitId : String
  adapter : String
  status : String
  reused : Bool
  stage : String
  protocolEvents : Nat
  failureReason : Option String
deriving DecidableEq

structure WorkerOutput (E : Type) where
  adapter : String
  events : List E
  error : Option String
  failureKind : Option String
  securityViolation : Bool
deriving DecidableEq

/-- How a task ends without a result. -/
structure JoinError where
  text : String
  isPanic : Bool

/-- The output of a task that ended without a result. -/
def JoinError.output (E : Type) (error : JoinError) (adapter : String) : WorkerOutput E where
  adapter := adapter
  events := []
  error := some ("analysis unit task failed: " ++ error.text)
  failureKind := some (if error.isPanic then "task-panic" else "cancelled")
  securityViolation := false

/-- Where the executor is in its loop. -/
inductive Phase
  /-- At the outputs that are next in turn. -/
  | ingest
  /-- At the units that may start. -/
  | dispatch
  /-- At the task that ends next. -/
  | join
  | returned (result : Except String Unit)

/-- An output that waits for its turn: the unit, the output, and whether it is a replayed one. -/
structure ReadyOutput (E : Type) where
  unitId : String
  output : WorkerOutput E
  reused : Bool

/-- A call of `consume`. -/
structure ConsumeCall (E : Type) where
  index : Nat
  unitId : String
  output : WorkerOutput E

/-- The variables of the loop. `consumed` records the calls of `consume`, `delivered` the outputs
that tasks and checkpoints have delivered. -/
structure Executor (E : Type) where
  phase : Phase
  units : List AnalysisUnitProgress
  stopReason : Option String
  pending : List (AnalysisWorkItem × Nat)
  running : List (AnalysisWorkItem × Nat)
  ready : Std.ExtTreeMap Nat (ReadyOutput E)
  nextIngest : Nat
  cancelled : Bool
  budgetExhausted : Bool
  consumed : List (ConsumeCall E)
  delivered : List (Nat × WorkerOutput E)

/-- What is decided outside the loop. -/
inductive Choice (E : Type)
  /-- Somebody cancels the scan, or its budget is used up. -/
  | cancel (forBudget : Bool)
  /-- The answer of `consume`. -/
  | consume (complete : Except String Bool)
  /-- The output that the checkpoints hold for the unit that starts. -/
  | start (cached : Option (WorkerOutput E))
  /-- The task of a unit ends. -/
  | finish (index : Nat) (result : Except JoinError (WorkerOutput E))
  /-- Nothing: the loop goes on by itself. -/
  | proceed

variable {E : Type}

/-- A unit that has not been started. -/
def AnalysisWorkItem.queued (item : AnalysisWorkItem) : AnalysisUnitProgress where
  unitId := item.unitId
  adapter := item.adapter
  status := "queued"
  reused := false
  stage := (item.request.bind (·.stage)).getD "repository"
  protocolEvents := 0
  failureReason := none

/-- The variables before the loop. -/
def Executor.initial (E : Type) (work : List AnalysisWorkItem) : Executor E where
  phase := .ingest
  units := work.map AnalysisWorkItem.queued
  stopReason := none
  pending := work.zipIdx
  running := []
  ready := ∅
  nextIngest := 0
  cancelled := false
  budgetExhausted := false
  consumed := []
  delivered := []

/-- `cancel_with_budget_reason`. The first cancellation counts. -/
def Executor.cancel (s : Executor E) (forBudget : Bool) : Executor E :=
  if s.cancelled then s else { s with cancelled := true, budgetExhausted := forBudget }

/-- The progress of a unit whose output was consumed. -/
def AnalysisUnitProgress.ingested (unit : AnalysisUnitProgress) (entry : ReadyOutput E)
    (cancelled complete : Bool) : AnalysisUnitProgress :=
  { unit with
    protocolEvents := entry.output.events.length
    failureReason :=
      entry.output.failureKind.or (if complete then none else some "ingestion-failed")
    status := if cancelled then "cancelled" else if complete then "completed" else "failed"
    reused := entry.reused && complete }

/-- A turn of the ingest loop. An error of `consume` ends the execution. -/
def Executor.ingest (s : Executor E) (entry : ReadyOutput E) (complete : Except String Bool) :
    Executor E :=
  let s : Executor E := { s with
    ready := s.ready.erase s.nextIngest
    consumed := s.consumed ++ [⟨s.nextIngest, entry.unitId, entry.output⟩] }
  match complete with
  | .error error => { s with phase := .returned (.error error) }
  | .ok complete =>
    { s with
      units := s.units.modify s.nextIngest fun unit => unit.ingested entry s.cancelled complete
      nextIngest := s.nextIngest + 1 }

/-- The guard of the dispatch loop, for the unit in front. -/
def Executor.mayStart (limit : Nat) (prerequisites : List (Option Nat)) (s : Executor E) : Bool :=
  decide (s.running.length < limit) && !s.cancelled && s.pending.head?.any fun front =>
    decide (front.2 < s.nextIngest + limit) &&
      ((prerequisites[front.2]?.getD none).all fun previous => previous < s.nextIngest)

/-- A turn of the dispatch loop, for the unit in front. -/
def Executor.start (s : Executor E) (front : AnalysisWorkItem × Nat)
    (cached : Option (WorkerOutput E)) : Executor E :=
  let s : Executor E := { s with pending := s.pending.tail }
  match cached with
  | some output =>
    { s with
      ready := s.ready.insert front.2 ⟨front.1.unitId, output, true⟩
      delivered := s.delivered ++ [(front.2, output)] }
  | none =>
    { s with
      units := s.units.modify front.2 fun unit => { unit with status := "running" }
      running := s.running ++ [front] }

/-- The output of a task, however it ended. -/
def taskOutput (adapter : String) : Except JoinError (WorkerOutput E) → WorkerOutput E
  | .ok output => output
  | .error error => error.output E adapter

/-- The output of a task goes to those that wait for their turn. -/
def Executor.finish (s : Executor E) (task : AnalysisWorkItem × Nat)
    (result : Except JoinError (WorkerOutput E)) : Executor E :=
  let output := taskOutput task.1.adapter result
  { s with
    phase := .ingest
    running := s.running.filter fun other => other.2 ≠ task.2
    ready := s.ready.insert task.2 ⟨task.1.unitId, output, false⟩
    delivered := s.delivered ++ [(task.2, output)] }

/-- The end of the loop: what was not started is cancelled. -/
def Executor.stop (s : Executor E) : Executor E :=
  { s with
    phase := .returned (.ok ())
    units := s.pending.foldl (fun units entry =>
      units.modify entry.2 fun unit => { unit with status := "cancelled" }) s.units
    stopReason :=
      if s.cancelled then
        some (if s.budgetExhausted then "total-budget-exceeded" else "cancelled")
      else s.stopReason }

/-- A step of the executor. `none` when the choice is not asked for here. -/
def Executor.step (limit : Nat) (prerequisites : List (Option Nat)) (s : Executor E) :
    Choice E → Option (Executor E)
  | .cancel forBudget =>
    match s.phase with
    | .returned _ => none
    | _ => some (s.cancel forBudget)
  | .consume complete =>
    match s.phase with
    | .ingest => s.ready[s.nextIngest]?.map fun entry => s.ingest entry complete
    | _ => none
  | .start cached =>
    match s.phase with
    | .dispatch =>
      if s.mayStart limit prerequisites then s.pending.head?.map fun front => s.start front cached
      else none
    | _ => none
  | .finish index result =>
    match s.phase with
    | .join =>
      if s.nextIngest ∈ s.ready then none
      else (s.running.find? fun task => task.2 = index).map fun task => s.finish task result
    | _ => none
  | .proceed =>
    match s.phase with
    | .ingest => if s.nextIngest ∈ s.ready then none else some { s with phase := .dispatch }
    | .dispatch =>
      if s.mayStart limit prerequisites then none else some { s with phase := .join }
    | .join =>
      if s.nextIngest ∈ s.ready then some { s with phase := .ingest }
      else if s.running = [] then some s.stop else none
    | .returned _ => none

end Analysis
