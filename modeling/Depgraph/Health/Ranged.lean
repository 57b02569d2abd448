import Depgraph.Health.MatrixEntries

/-!
# Unused files in ranges

`analyze_unused_ranged`: the subjects of a plain snapshot are analysed range by range. What all ranges
share is loaded once and what leads to the subjects of a range is loaded by its targets. A range that
overruns its budget is replaced by its halves.
-/

namespace Health

open Protocol Store SortDedup Std

/-- A snapshot as it is loaded: ids are unique, edges and sites come in the order of their ids, and
the matrix is one that `build_profile_matrix` makes of the profiles, with whatever sites, edges and
evidence. -/
structure GraphSnapshot.Plain (S : StableIds) (snapshot : GraphSnapshot) : Prop where
  nodes : (snapshot.nodes.map (·.id)).Nodup
  edges : snapshot.edges.Pairwise fun a b => a.id < b.id
  sites : snapshot.sites.Pairwise fun a b => a.id < b.id
  matrix : ∃ (L : ProfileMatrix.Libraries) (m : ProfileMatrix.MatrixSource), L.toStableIds = S ∧
    m.profiles = snapshot.profiles ∧ snapshot.matrixEntries = (m.entries L).map .ofEntry

theorem GraphSnapshot.Plain.matrixEntries_eq {S : StableIds} {snapshot : GraphSnapshot}
    (h : snapshot.Plain S) : snapshot.matrixEntries = profileMatrixEntries S snapshot.profiles := by
  obtain ⟨L, m, rfl, hprofiles, hentries⟩ := h.matrix
  rw [hentries, entries_read, hprofiles]

/-! ### Loading -/

structure HealthTargetlessSiteFlags where
  candidate : Bool
  unresolved : Bool
  dynamic : Bool

/-- `HealthGlobalInput`, as far as the analysis reads it. -/
structure HealthGlobalInput where
  scanStatus : String
  profiles : List ProfileRecord
  matrixEntries : List ProfileMatrixEntryRecord
  coverageReasons : List String
  coverageOmittedPaths : List String
  subjectLanguages : List (Option String)
  goModuleNodes : List NodeRecord
  goPackageEdges : List EdgeRecord
  goCandidateSites : List SiteRecord
  targetlessSites : HealthTargetlessSiteFlags
  analysisDependencyCoverage : Option (ExtTreeMap String Bool)

/-- `load_health_global_context`, on the rows of the snapshot. -/
def loadHealthGlobalContext (S : StableIds) (snapshot : GraphSnapshot) : HealthGlobalInput :=
  let goModuleNodes := sortByKey (·.id) (snapshot.nodes.filter isGoModule)
  let moduleIds := goModuleNodes.map (·.id)
  let targetless := snapshot.sites.filter fun site => site.targetIds.isEmpty
  { scanStatus := snapshot.scanStatus
    profiles := snapshot.profiles
    matrixEntries := profileMatrixEntries S snapshot.profiles
    coverageReasons := snapshot.coverage.reasons
    coverageOmittedPaths := (snapshot.fileCoverage.filter isOmitted).map (·.path)
    subjectLanguages := distinctLanguages ((snapshot.nodes.filter isSubject).map languageOf)
    goModuleNodes
    goPackageEdges := sortByKey (·.id) (snapshot.edges.filter fun edge => moduleIds.contains edge.target)
    goCandidateSites := sortByKey (·.id) (snapshot.sites.filter fun site =>
      site.resolutionStatus == "candidates" && site.targetIds.any moduleIds.contains)
    targetlessSites := {
      candidate := targetless.any fun site => site.resolutionStatus == "candidates"
      unresolved := targetless.any fun site => site.resolutionStatus == "unresolved"
      dynamic := targetless.any isDynamicKind || targetless.any fun site =>
        snapshot.evidence.any fun evidence => isDynamicEvidence evidence && evidence.ownerId == site.id }
    analysisDependencyCoverage := snapshot.analysisDependencyCoverage }

def GlobalSource.fromHealthInput (input : HealthGlobalInput) : GlobalSource where
  scanStatus := input.scanStatus
  coverageReasons := input.coverageReasons
  analysisDependencyCoverage := input.analysisDependencyCoverage
  profiles := input.profiles
  matrixEntries := input.matrixEntries
  subjectLanguages := input.subjectLanguages
  goModuleNodes := input.goModuleNodes
  edges := input.goPackageEdges
  sites := input.goCandidateSites
  targetlessCandidate := input.targetlessSites.candidate
  targetlessUnresolved := input.targetlessSites.unresolved
  targetlessDynamic := input.targetlessSites.dynamic
  coverageOmittedPaths := input.coverageOmittedPaths

/-- `HealthRange`, as far as it is read. -/
structure HealthRange where
  firstSubjectId : String
  lastSubjectId : String
deriving DecidableEq

/-- An id lies in a range. -/
def HealthRange.holds (range : HealthRange) (nodeId : String) : Bool :=
  decide (range.firstSubjectId ≤ nodeId) && decide (nodeId ≤ range.lastSubjectId)

/-- The subjects of a range in the order of their ids. -/
def rangeSubjects (snapshot : GraphSnapshot) (range : HealthRange) : List NodeRecord :=
  sortByKey (·.id) (snapshot.nodes.filter fun node => isSubject node && range.holds node.id)

/-- A subject with this id lies in a range. -/
def isRangeTarget (snapshot : GraphSnapshot) (range : HealthRange) (target : String) : Bool :=
  range.holds target && snapshot.nodes.any fun node => node.id == target && isSubject node

def loadHealthRange (snapshot : GraphSnapshot) (range : HealthRange) : LocalIndex :=
  let inboundSites := snapshot.sites.filter fun site =>
    site.targetIds.any (isRangeTarget snapshot range)
  { subjects := rangeSubjects snapshot range
    edges := sortByKey (·.id) (snapshot.edges.filter fun edge =>
      isRangeTarget snapshot range edge.target)
    sites := sortByKey (·.id) inboundSites
    dynamicSiteIds := exact id ((snapshot.evidence.filter fun evidence =>
      isDynamicEvidence evidence && (inboundSites.map (·.id)).contains evidence.ownerId).map
        (·.ownerId)) }

variable (L : Libraries)

/-- The index that all ranges share. -/
def rangedIndex (snapshot : GraphSnapshot) : GlobalIndex :=
  .build L (.fromHealthInput (loadHealthGlobalContext L.toStableIds snapshot))

/-- The findings of a range, as `run_range` computes them. -/
def rangeFindings (snapshot : GraphSnapshot) (range : HealthRange) : List HealthFinding :=
  analyzeSubjects L (rangedIndex L snapshot) (loadHealthRange snapshot range)
    (rangeSubjects snapshot range)

/-! ### The queue of ranges -/

/-- The limits of `HealthRangeLimits` that decide on halving. -/
structure HealthRangeLimits where
  maxRanges : Nat
  maxResplitDepth : Nat

def healthRangeSubjectIds (snapshot : GraphSnapshot) (range : HealthRange) : List String :=
  (rangeSubjects snapshot range).map (·.id)

def resplitHealthRange (subjectIds : List String) : Option (HealthRange × HealthRange) :=
  if subjectIds.length < 2 then none
  else
    let middle := subjectIds.length / 2
    let left := subjectIds.take middle
    let right := subjectIds.drop middle
    some (⟨left.head?.getD "", left.getLast?.getD ""⟩, ⟨right.head?.getD "", right.getLast?.getD ""⟩)

/-- The errors that stop a run. -/
inductive HealthAnalysisError
  | cancelled
  | resourceExhausted
  | findingLimit
  | integrity
deriving DecidableEq

/-- What happens to the range at the head of the queue, unless it is found in a checkpoint. Neither the
loading nor the analysis of a range reports an integrity error. -/
inductive RangeAnswer
  | cancelledBefore
  | completed
  | overrun
  | cancelled
deriving DecidableEq

/-- The variables of the loop, with the ranges that have been analysed. -/
structure RangedRun where
  queue : List (HealthRange × Nat)
  total : Nat
  completed : Nat
  failed : Nat
  interrupted : Nat
  resplit : Nat
  stop : Option HealthAnalysisError
  analysed : List HealthRange
  findings : List HealthFinding

/-- What is loaded from a checkpoint of a range, if it has one. -/
abbrev Checkpoints := HealthRange → Option (List HealthFinding)

section Loop

variable (snapshot : GraphSnapshot) (limits : HealthRangeLimits) (allowPartial : Bool)
  (checkpoints : Checkpoints)

/-- The halves of a range that may still be divided. -/
def halvesOf (run : RangedRun) (range : HealthRange) (depth : Nat) :
    Option (HealthRange × HealthRange) :=
  if depth < limits.maxResplitDepth ∧ run.total < limits.maxRanges then
    resplitHealthRange (healthRangeSubjectIds snapshot range)
  else none

/-- A range was interrupted. -/
def RangedRun.interrupt (run : RangedRun) (stop : Option HealthAnalysisError) : RangedRun :=
  { run with stop, interrupted := run.interrupted + 1 }

/-- A range was completed. -/
def RangedRun.complete (run : RangedRun) (range : HealthRange) (found : List HealthFinding) :
    RangedRun :=
  { run with
    completed := run.completed + 1
    analysed := run.analysed ++ [range]
    findings := run.findings ++ found }

/-- A range overran its budget. -/
def RangedRun.overrun (run : RangedRun) (range : HealthRange) (depth : Nat) : RangedRun :=
  match halvesOf snapshot limits run range depth with
  | some (left, right) =>
    { run with
      resplit := run.resplit + 1
      total := run.total + 1
      queue := (left, depth + 1) :: (right, depth + 1) :: run.queue }
  | none => { run with failed := run.failed + 1, stop := run.stop.or (some .resourceExhausted) }

/-- A turn of the loop. -/
def RangedRun.turn (run : RangedRun) (answer : RangeAnswer) : RangedRun :=
  match run.queue with
  | [] => run
  | (range, depth) :: queue =>
    let rest := { run with queue }
    if answer = .cancelledBefore then rest.interrupt (some .cancelled)
    -- after a failure the other ranges are still analysed if a partial result is allowed
    else if run.stop = some .cancelled ∨ run.stop ≠ none ∧ allowPartial = false then
      rest.interrupt run.stop
    else
      match checkpoints range, answer with
      | some found, _ => rest.complete range found
      | none, .overrun => rest.overrun snapshot limits range depth
      | none, .cancelled => rest.interrupt (some .cancelled)
      | none, _ => rest.complete range (rangeFindings L snapshot range)

/-- The loop at its beginning. -/
def RangedRun.start (ranges : List HealthRange) : RangedRun where
  queue := ranges.map fun range => (range, 0)
  total := ranges.length
  completed := 0
  failed := 0
  interrupted := 0
  resplit := 0
  stop := none
  analysed := []
  findings := []

/-- The loop with what happens to the ranges it takes from the queue. -/
def rangedRun (ranges : List HealthRange) (answers : List RangeAnswer) : RangedRun :=
  answers.foldl (RangedRun.turn L snapshot limits allowPartial checkpoints) (.start ranges)

end Loop

/-- The end of `analyze_unused_ranged_to`: whether the result is partial. -/
def RangedRun.partialResult (allowPartial : Bool) (run : RangedRun) : Except HealthAnalysisError Bool :=
  if run.failed + run.interrupted = 0 then .ok false
  else
    let error := run.stop.getD .resourceExhausted
    if allowPartial = false ∨ error = .cancelled then .error error else .ok true

def markPartial (S : StableIds) (run : RangedRun) (finding : HealthFinding) : HealthFinding :=
  let blocker : FindingBlocker := ⟨.incompleteCoverage,
    toString (run.failed + run.interrupted) ++ " of " ++ toString run.total ++
      " health ranges were not analysed; usage from those ranges is unknown"⟩
  let finding := { finding with
    blockers := sortDedup blockerKey (fun a b => decide (a = b)) (finding.blockers ++ [blocker])
    confidence := .indeterminate }
  { finding with fingerprint := findingFingerprint S finding }

/-- The result of a run: whether it is partial, and the findings. -/
structure RangedUnusedOutcome where
  isPartial : Bool
  findings : List HealthFinding

/-- `analyze_unused_ranged`, after the loop. -/
def RangedRun.outcome (S : StableIds) (allowPartial : Bool) (maximumFindings : Nat)
    (run : RangedRun) : Except HealthAnalysisError RangedUnusedOutcome := do
  let isPartial ← run.partialResult allowPartial
  let findings := sortByKey (·.id) run.findings
  if ¬ (findings.map (·.id)).Nodup then .error .integrity
  else if maximumFindings < findings.length then .error .findingLimit
  else .ok ⟨isPartial, if isPartial then findings.map (markPartial S run) else findings⟩

end Health
