import Depgraph.Library.Fallible
import Depgraph.Library.Grouping
import Depgraph.Protocol.StableId

/-!
# The split plan of an analysis

A stage of a unit is partitioned into batches, and refinements of earlier plans split some of them
again. A batch becomes an execution unit, whose identity depends on what it owns and loads and not
on its place among the batches.
-/

namespace Analysis

open Fallible OrderedMap SortDedup Json Protocol

inductive AnalysisAdapter
  | rust
  | go
  | web
deriving DecidableEq

inductive AnalysisStage
  | syntaxStage
  | typed
  | semantic
deriving DecidableEq

/-- The stages in their order. -/
def AnalysisStage.rank : AnalysisStage → Nat
  | .syntaxStage => 0
  | .typed => 1
  | .semantic => 2

def AnalysisStage.asStr : AnalysisStage → String
  | .syntaxStage => "syntax"
  | .typed => "typed"
  | .semantic => "semantic"

inductive AnalysisLoaderKind
  | files
  | package
  | moduleLoader
  | project
  | repository
deriving DecidableEq

def AnalysisLoaderKind.asStr : AnalysisLoaderKind → String
  | .files => "files"
  | .package => "package"
  | .moduleLoader => "module"
  | .project => "project"
  | .repository => "repository"

def AnalysisLoaderKind.loadsWholeContext : AnalysisLoaderKind → Bool
  | .files | .package => false
  | .moduleLoader | .project | .repository => true

inductive AnalysisReferenceDepth
  | pathsOnly
  | declarations
  | bodies
deriving DecidableEq

def AnalysisReferenceDepth.asStr : AnalysisReferenceDepth → String
  | .pathsOnly => "paths_only"
  | .declarations => "declarations"
  | .bodies => "bodies"

inductive AnalysisSplitGranularity
  | file
  | package
deriving DecidableEq

structure AnalysisStageBoundary where
  stage : AnalysisStage
  loaderKind : AnalysisLoaderKind
  referenceDepth : AnalysisReferenceDepth
  granularity : AnalysisSplitGranularity
  outputSplittable : Bool
  inputSplittable : Bool
  stagedBodies : Bool

structure AnalysisAdapterBoundary where
  id : String
  adapter : AnalysisAdapter
  loaderScope : Bool
  stages : List AnalysisStageBoundary

/-- The limits of `AnalysisSplitBudget` that shape the batches. -/
structure AnalysisSplitBudget where
  maxConcurrentUnits : Nat
  maxUnitSourceFiles : Nat
  maxUnitSourceBytes : Nat
  maxContextSourceBytes : Nat
  workerTimeoutSeconds : Nat
  maxWorkerMemoryBytes : Nat

structure AnalysisSplitRefinement where
  executionUnitId : String
  trigger : String

inductive AnalysisUnsplittableReason
  | singleGranule
  | adapterBoundary
  | unknownExecutionUnit
deriving DecidableEq

structure AnalysisUnsplittableRefinement where
  executionUnitId : String
  trigger : String
  reason : AnalysisUnsplittableReason

/-- What a refinement turns into when it cannot be applied. -/
def AnalysisSplitRefinement.unsplittable (refinement : AnalysisSplitRefinement)
    (reason : AnalysisUnsplittableReason) : AnalysisUnsplittableRefinement :=
  ⟨refinement.executionUnitId, refinement.trigger, reason⟩

/-- The fields of `AnalysisSplitInput` that the batches depend on. -/
structure AnalysisSplitInput where
  budget : AnalysisSplitBudget
  boundaries : List AnalysisAdapterBoundary
  refinements : List AnalysisSplitRefinement

/-- The fields of `AnalysisUnit` that the batches depend on. -/
structure AnalysisUnit where
  id : String
  adapter : AnalysisAdapter
  executable : Bool
  unitRoot : String
  sourcePaths : List String

/-- What the planner knows about the context of a unit: its paths, those of its cycle, the sizes of
the sources, and the rank of each package among those it imports. -/
structure UnitContext where
  contextPaths : List String
  cyclePaths : List String
  size : String → Nat
  packageRank : String → Option Nat

/-- The fields of `ContextGroup` that the loader depends on. -/
structure ContextGroup where
  unitIds : List String
  cyclic : Bool

/-! ### Granules and batches -/

structure Granule where
  packageRoot : String
  paths : List String
  bytes : Nat

/-- `package_root_of`: the text before the last slash. -/
def packageRootOf (path : String) : String :=
  if '/' ∈ path.toList then
    String.ofList ((path.toList.reverse.dropWhile (· ≠ '/')).tail.reverse)
  else "."

def UnitContext.total (context : UnitContext) (paths : List String) : Nat :=
  (paths.map context.size).sum

def granules (unit : AnalysisUnit) (granularity : AnalysisSplitGranularity)
    (context : UnitContext) : List Granule :=
  match granularity with
  | .file => unit.sourcePaths.map fun path => ⟨packageRootOf path, [path], context.size path⟩
  | .package => (groupBy (fun path => some (packageRootOf path)) unit.sourcePaths).toList.map
      fun group => ⟨group.1, group.2, context.total group.2⟩

/-- `Batch`, without the reasons that explain it. -/
structure Batch where
  granules : List Granule
  batchIndex : Nat
  batchCount : Nat

def Batch.fromGranules (granules : List Granule) : Batch := ⟨granules, 0, 1⟩

/-- The owned paths in repository order. -/
def ownedPaths (granules : List Granule) : List String :=
  sortByKey id (granules.flatMap (·.paths))

/-- The variables of the loop that packs granules into batches. -/
structure Packing where
  batches : List Batch
  current : List Granule
  currentFiles : Nat
  currentBytes : Nat

/-- A turn of that loop: a batch is closed when the granule would exceed its budget. -/
def Packing.add (byteBudget : Bool) (budget : AnalysisSplitBudget) (packing : Packing)
    (granule : Granule) : Packing :=
  let files := granule.paths.length
  let exceedsFiles := budget.maxUnitSourceFiles < packing.currentFiles + files
  let exceedsBytes := byteBudget = true ∧
    budget.maxUnitSourceBytes < packing.currentBytes + granule.bytes
  if packing.current ≠ [] ∧ (exceedsFiles ∨ exceedsBytes) then
    { batches := packing.batches ++ [.fromGranules packing.current]
      current := [granule]
      currentFiles := files
      currentBytes := granule.bytes }
  else
    { packing with
      current := packing.current ++ [granule]
      currentFiles := packing.currentFiles + files
      currentBytes := packing.currentBytes + granule.bytes }

def AnalysisStageBoundary.splittable (boundary : AnalysisStageBoundary) : Bool :=
  boundary.outputSplittable || boundary.inputSplittable

/-- The order of the granules: dependencies first, then by root and paths. -/
def granuleKey (context : UnitContext) (granule : Granule) : Nat ×ₗ String ×ₗ List String :=
  toLex ((context.packageRank granule.packageRoot).getD (2 ^ 64 - 1),
    toLex (granule.packageRoot, granule.paths))

def partition (unit : AnalysisUnit) (boundary : AnalysisStageBoundary) (byteBudget : Bool)
    (budget : AnalysisSplitBudget) (context : UnitContext) : List Batch :=
  let found := granules unit boundary.granularity context
  if found.isEmpty || !boundary.splittable then [.fromGranules found]
  else
    let ordered := if byteBudget = true ∧ boundary.stage ≠ .syntaxStage then
      sortByKey (granuleKey context) found else found
    let packing := ordered.foldl (Packing.add byteBudget budget) ⟨[], [], 0, 0⟩
    if packing.current = [] then packing.batches
    else packing.batches ++ [.fromGranules packing.current]

def assignInitialBatchNumbers (batches : List Batch) : List Batch :=
  batches.zipIdx.map fun entry =>
    { entry.1 with batchIndex := entry.2, batchCount := max batches.length 1 }

/-! ### Execution units -/

/-- The fields of `AnalysisExecutionUnit` that its identity and the ledger depend on. -/
structure AnalysisExecutionUnit where
  id : String
  unitId : String
  stage : AnalysisStage
  batchIndex : Nat
  batchCount : Nat
  ownedPaths : List String
  loaderKind : AnalysisLoaderKind
  loaderPaths : List String
  referenceDepth : AnalysisReferenceDepth
  referencePaths : List String

/-- A cycle that the loader must keep together. -/
def retainsCycle (boundary : AnalysisStageBoundary) (group : Option ContextGroup) : Bool :=
  (group.any fun group => group.cyclic && decide (1 < group.unitIds.length)) &&
    decide (boundary.referenceDepth ≠ .pathsOnly)

/-- The paths that the loader reads. -/
def loaderPathsOf (boundary : AnalysisStageBoundary) (context : UnitContext)
    (group : Option ContextGroup) (owned : List String) : List String :=
  if boundary.loaderKind.loadsWholeContext then context.contextPaths
  else if retainsCycle boundary group ∧ context.cyclePaths ≠ [] then
    exact id (owned ++ context.cyclePaths)
  else owned

def jsonStrings (values : List String) : Value := .array (values.map .string)

/-- What the identity of an execution unit is computed from. -/
def executionUnitInput (unitId : String) (stage : AnalysisStage) (owned : List String)
    (loaderKind : AnalysisLoaderKind) (loaderPaths : List String)
    (referenceDepth : AnalysisReferenceDepth) : Value :=
  .object [("contract_version", .string "depgraph-analysis-split-plan-v1"),
    ("unit_id", .string unitId), ("stage", .string stage.asStr),
    ("ownership", jsonStrings owned), ("loader_kind", .string loaderKind.asStr),
    ("loader_paths", jsonStrings loaderPaths),
    ("reference_depth", .string referenceDepth.asStr)]

/-- What the identity of an execution unit was computed from. -/
def AnalysisExecutionUnit.input (unit : AnalysisExecutionUnit) : Value :=
  executionUnitInput unit.unitId unit.stage unit.ownedPaths unit.loaderKind unit.loaderPaths
    unit.referenceDepth

def buildExecutionUnit (S : StableIds) (unit : AnalysisUnit) (boundary : AnalysisStageBoundary)
    (context : UnitContext) (group : Option ContextGroup) (batch : Batch) :
    AnalysisExecutionUnit :=
  let owned := ownedPaths batch.granules
  let loaderPaths := loaderPathsOf boundary context group owned
  { id := S.stableIdFromValue "analysis-execution-unit" (executionUnitInput unit.id boundary.stage
      owned boundary.loaderKind loaderPaths boundary.referenceDepth)
    unitId := unit.id
    stage := boundary.stage
    batchIndex := batch.batchIndex
    batchCount := batch.batchCount
    ownedPaths := owned
    loaderKind := boundary.loaderKind
    loaderPaths := loaderPaths
    referenceDepth := boundary.referenceDepth
    referencePaths := context.contextPaths.filter fun path => path ∉ loaderPaths }

/-! ### Promotion -/

def promotedBoundary (declared : AnalysisStageBoundary) : AnalysisStageBoundary where
  stage := declared.stage
  loaderKind := .moduleLoader
  referenceDepth := .bodies
  granularity := .package
  outputSplittable := false
  inputSplittable := false
  stagedBodies := false

/-- A stage that could be bounded to packages. -/
def promotable (boundary : AnalysisAdapterBoundary) (stage : AnalysisStageBoundary) : Bool :=
  boundary.loaderScope && decide (stage.stage ≠ .syntaxStage) && stage.inputSplittable &&
    !stage.loaderKind.loadsWholeContext

def UnitContext.fitsByteBudgets (context : UnitContext) (unit : AnalysisUnit)
    (budget : AnalysisSplitBudget) : Bool :=
  decide (context.total unit.sourcePaths ≤ budget.maxUnitSourceBytes) &&
    decide (context.total context.contextPaths ≤ budget.maxContextSourceBytes)

/-- The places of the refinements that name one of the identities. -/
def refinementsOf (refinements : List AnalysisSplitRefinement) (ids : List String) : List Nat :=
  refinements.zipIdx.filterMap fun entry =>
    if entry.1.executionUnitId ∈ ids then some entry.2 else none

/-- `promote_whole_context`: the boundary of a promoted stage, and the refinements that keep a stage
from being promoted. -/
def promoteWholeContext (S : StableIds) (unit : AnalysisUnit) (boundary : AnalysisAdapterBoundary)
    (declared : AnalysisStageBoundary) (input : AnalysisSplitInput) (context : UnitContext)
    (group : Option ContextGroup) : Option AnalysisStageBoundary × List Nat :=
  if !promotable boundary declared || !context.fitsByteBudgets unit input.budget then (none, [])
  else
    let promotedIds := (boundary.stages.filter (promotable boundary)).map fun stage =>
      (buildExecutionUnit S unit (promotedBoundary stage) context group
        (.fromGranules (granules unit .package context))).id
    let matched := refinementsOf input.refinements promotedIds
    (if matched = [] then some (promotedBoundary declared) else none, matched)

/-! ### Refinements -/

/-- The number of granules up to the one that reaches half of the bytes. -/
def splitAt (total : Nat) : Nat → List Granule → Nat
  | _, [] => 0
  | cumulative, granule :: rest =>
    if total ≤ (cumulative + granule.bytes) * 2 then 1
    else splitAt total (cumulative + granule.bytes) rest + 1

/-- Where a batch is divided: neither half is empty. -/
def splitPoint (granules : List Granule) : Nat :=
  max 1 (min (splitAt ((granules.map (·.bytes)).sum) 0 granules) (granules.length - 1))

/-- The two halves of a batch among the others. The first half keeps the index. -/
def splitBatch (others : List Batch) (removed : Batch) : List Batch :=
  -- The sums stay far below the end of the machine integers: a batch owns a granule of its own.
  let nextIndex := ((others.map (·.batchIndex) ++ [removed.batchIndex]).max?.getD 0) + 1
  let replacementCount := max removed.batchCount (nextIndex + 1)
  let at_ := splitPoint removed.granules
  [⟨removed.granules.take at_, removed.batchIndex, replacementCount⟩,
    ⟨removed.granules.drop at_, nextIndex, replacementCount⟩]

/-- The variables of the loop over the refinements. -/
structure Refining where
  batches : List Batch
  unsplittable : List AnalysisUnsplittableRefinement
  matched : List Nat

/-- A turn of that loop. -/
def Refining.refine (idOf : Batch → String) (splittable : Bool) (state : Refining)
    (entry : AnalysisSplitRefinement × Nat) : Refining :=
  match state.batches.findIdx? fun batch => idOf batch = entry.1.executionUnitId with
  | none => state
  | some position =>
    let state := { state with matched := state.matched ++ [entry.2] }
    if !splittable then
      { state with unsplittable := state.unsplittable ++ [entry.1.unsplittable .adapterBoundary] }
    else
      match state.batches[position]? with
      | none => state
      | some removed =>
        if removed.granules.length < 2 then
          { state with unsplittable := state.unsplittable ++ [entry.1.unsplittable .singleGranule] }
        else
          let before := state.batches.take position
          let after := state.batches.drop (position + 1)
          { state with batches := before ++ splitBatch (before ++ after) removed ++ after }

/-- `apply_refinements`. The identity of a batch does not depend on its number. -/
def applyRefinements (S : StableIds) (unit : AnalysisUnit) (boundary : AnalysisStageBoundary)
    (input : AnalysisSplitInput) (context : UnitContext) (group : Option ContextGroup)
    (batches : List Batch) : Refining :=
  input.refinements.zipIdx.foldl
    (Refining.refine
      (fun batch => (buildExecutionUnit S unit boundary context group ⟨batch.granules, 0, 1⟩).id)
      boundary.splittable)
    ⟨batches, [], []⟩

/-! ### The plan -/

/-- What a stage of a unit adds to the plan. -/
structure StagePlan where
  executionUnits : List AnalysisExecutionUnit
  unsplittable : List AnalysisUnsplittableRefinement
  matched : List Nat

/-- The execution units of a stage of a unit. -/
def planStage (S : StableIds) (boundary : AnalysisAdapterBoundary) (input : AnalysisSplitInput)
    (declared : AnalysisStageBoundary) (unit : AnalysisUnit) (context : UnitContext)
    (group : Option ContextGroup) : StagePlan :=
  let promotion := promoteWholeContext S unit boundary declared input context group
  let stageBoundary := promotion.1.getD declared
  let batches := assignInitialBatchNumbers
    (partition unit stageBoundary boundary.loaderScope input.budget context)
  let refined := applyRefinements S unit stageBoundary input context group batches
  { executionUnits := refined.batches.map (buildExecutionUnit S unit stageBoundary context group)
    unsplittable := refined.unsplittable
    matched := promotion.2 ++ refined.matched }

def AnalysisAdapterBoundary.validate (boundary : AnalysisAdapterBoundary) : Except String Unit := do
  check (boundary.id ≠ "" ∧ (utf8 boundary.id).length ≤ 128)
    "analysis adapter boundary id is empty or exceeds its limit"
  check (boundary.stages ≠ [])
    ("analysis adapter boundary " ++ boundary.id ++ " declares no stages")
  check (boundary.loaderScope = true ∨ ∀ stage ∈ boundary.stages,
      stage.stage = .syntaxStage ∨ stage.loaderKind.loadsWholeContext = true)
    ("analysis adapter boundary " ++ boundary.id ++
      " bounds a loader without negotiated loader scope")
  check (boundary.stages.IsChain fun left right => left.stage.rank < right.stage.rank)
    ("analysis adapter boundary " ++ boundary.id ++ " stages are not ordered")
  boundary.stages.forM fun stage => do
    check (stage.stagedBodies = false ∨ stage.stage ≠ .syntaxStage)
      ("analysis adapter boundary " ++ boundary.id ++ " stages syntax bodies")
    check (stage.stagedBodies = false ∨ stage.inputSplittable = true)
      ("analysis adapter boundary " ++ boundary.id ++ " stages bodies without an input split")

def AnalysisSplitBudget.validate (budget : AnalysisSplitBudget) : Except String Unit := do
  check (1 ≤ budget.maxConcurrentUnits ∧ budget.maxConcurrentUnits ≤ 64)
    "analysis split budget max_concurrent_units must be between 1 and 64"
  check (1 ≤ budget.maxUnitSourceFiles)
    "analysis split budget max_unit_source_files must be at least 1"
  check (1 ≤ budget.maxUnitSourceBytes)
    "analysis split budget max_unit_source_bytes must be at least 1"
  check (budget.maxUnitSourceBytes ≤ budget.maxContextSourceBytes)
    "analysis split budget max_context_source_bytes must be at least max_unit_source_bytes"
  check (1 ≤ budget.workerTimeoutSeconds ∧ 1 ≤ budget.maxWorkerMemoryBytes)
    "analysis split budget worker limits must be at least 1"

/-- What `canonicalize` does to the units: they are sorted by their ids, no two of which are equal,
and the sources of each become a sorted list without repetitions. -/
def canonicalUnits (units : List AnalysisUnit) : Except String (List AnalysisUnit) := do
  let sorted := sortByKey (·.id) units
  check ((sorted.map (·.id)).Nodup) "analysis plan contains duplicate unit id"
  return sorted.map fun unit => { unit with sourcePaths := exact id unit.sourcePaths }

/-- The fields of `AnalysisSplitPlan` that the stages add up to. -/
structure AnalysisSplitPlan where
  executionUnits : List AnalysisExecutionUnit
  unsplittableRefinements : List AnalysisUnsplittableRefinement

/-- A turn of the loop over the boundaries. -/
def seeBoundary (seen : List AnalysisAdapter) (boundary : AnalysisAdapterBoundary) :
    Except String (List AnalysisAdapter) := do
  boundary.validate
  check (boundary.adapter ∉ seen) "analysis split input declares two boundaries for an adapter"
  return boundary.adapter :: seen

/-- A turn of the loops over the adapters, their stages and their executable units. -/
structure StageTask where
  boundary : AnalysisAdapterBoundary
  declared : AnalysisStageBoundary
  unit : AnalysisUnit

/-- The turns of an adapter. -/
def stageTasks (input : AnalysisSplitInput) (units : List AnalysisUnit)
    (adapter : AnalysisAdapter) : List StageTask :=
  match input.boundaries.find? fun boundary => boundary.adapter = adapter with
  | none => []
  | some boundary => boundary.stages.flatMap fun declared =>
      (units.filter fun unit => unit.executable && decide (unit.adapter = adapter)).map fun unit =>
        ⟨boundary, declared, unit⟩

/-- `plan_analysis_split`. The context and the group of a unit come from the discovery plan. -/
def planAnalysisSplit (S : StableIds) (units : List AnalysisUnit) (input : AnalysisSplitInput)
    (contextOf : AnalysisUnit → UnitContext) (groupOf : AnalysisUnit → Option ContextGroup) :
    Except String AnalysisSplitPlan := do
  let units ← canonicalUnits units
  input.budget.validate
  check (input.refinements.length ≤ 100000) "analysis split plan exceeds its refinement limit"
  let _ ← input.boundaries.foldlM seeBoundary []
  let stages : List StagePlan := ([.rust, .go, .web].flatMap (stageTasks input units)).map
    fun task => planStage S task.boundary input task.declared task.unit (contextOf task.unit)
      (groupOf task.unit)
  let executionUnits : List AnalysisExecutionUnit := stages.flatMap (·.executionUnits)
  check (executionUnits.length ≤ 1000000) "analysis split plan exceeds its execution unit limit"
  check (∀ unit ∈ executionUnits, unit.loaderPaths.length ≤ 1000000 ∧
      unit.referencePaths.length ≤ 1000000)
    "analysis split plan exceeds its loader path limit"
  let matched : List Nat := stages.flatMap (·.matched)
  let unknown := input.refinements.zipIdx.filterMap fun entry =>
    if entry.2 ∈ matched then none else some (entry.1.unsplittable .unknownExecutionUnit)
  return {
    executionUnits := executionUnits
    unsplittableRefinements := stages.flatMap (·.unsplittable) ++ unknown }

def AnalysisSplitPlan.executionUnitsFor (plan : AnalysisSplitPlan) (unitId : String)
    (stage : AnalysisStage) : List AnalysisExecutionUnit :=
  plan.executionUnits.filter fun unit => unit.unitId = unitId && unit.stage = stage

end Analysis
