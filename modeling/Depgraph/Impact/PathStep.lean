import Depgraph.Impact.Types
import Mathlib.Data.String.Basic

/-!
# Steps of dependency paths

`PathStepMaterializer`: the evidence, the profile correlation and the phase coverage of the selected
edges are collected once, and every step is put together from them. What a step says of its edge is
`materialize_edge`.
-/

namespace Impact

open Json Protocol Store OrderedMap Metered SortDedup Std

/-! ### Work -/

/-- `QueryPostprocessingStage`, as far as path steps go through it. -/
inductive QueryPostprocessingStage where
  | edgeSelection
  | evidenceScan
  | evidenceOwnerInsertion
  | evidenceOwnerFinalization
  | evidenceClone
  | correlationRecord
  | correlationPhase
  | correlationEdge
  | correlationInsertion
  | profileEntry
  | profileInsertion
  | edgeLookup
  | pathStep
  | reasonClone
  | phaseEntryClone
  | phaseProfileClone
  | phaseCompletenessClone
deriving DecidableEq

def QueryPostprocessingStage.isSnapshotScan : QueryPostprocessingStage → Bool
  | .evidenceScan | .correlationRecord | .correlationPhase | .correlationEdge | .profileEntry =>
    true
  | _ => false

/-- `QueryPostprocessingWork`, without its limits. -/
structure QueryPostprocessingWork where
  used : Nat
  scanned : Nat

/-- A computation that counts the two kinds of work. -/
abbrev PathStepWork : Type → Type := Work QueryPostprocessingWork ImpactError

def PathStepWork.step (maximum : Nat) (stage : QueryPostprocessingStage) : PathStepWork Unit :=
  fun work =>
    if stage.isSnapshotScan then
      if maxGraphSnapshotScanWorkItems ≤ work.scanned then
        .error (.queryPostprocessingWorkExhausted maxGraphSnapshotScanWorkItems)
      else .ok ((), { work with scanned := work.scanned + 1 })
    else if maximum ≤ work.used then .error (.queryPostprocessingWorkExhausted maximum)
    else .ok ((), { work with used := work.used + 1 })

/-- Fails when there are more items than a step may hold. -/
def PathStepWork.atMost (length maximum : Nat) : PathStepWork Unit :=
  if maximum < length then Metered.fail .queryPostprocessingExhausted else return ()

/-! ### Evidence -/

structure GraphQueryFilter where
  phases : List String
  profiles : List String
  sessions : List String
  environments : List String

/-- One of the members of an object is one of the values. -/
def hasMember (object : Proper) (keys values : List String) : Bool :=
  keys.any fun key => ((object.get key).bind Proper.asStr).any values.contains

def GraphQueryFilter.matchesEvidence (filter : GraphQueryFilter) (evidence : EvidenceRecord) : Bool :=
  if evidence.kind != "runtime" then filter.sessions.isEmpty && filter.environments.isEmpty
  else
    (filter.sessions.isEmpty ||
      hasMember evidence.properties ["session_id", "source_session_id"] filter.sessions) &&
    (filter.environments.isEmpty || (evidence.properties.get "environment").any fun environment =>
      hasMember environment ["name", "runtime", "region"] filter.environments)

/-- `evidence_order` compares these; a detail that is absent comes before every other. -/
def evidenceOrderKey (F : FloatText) (e : EvidenceRecord) :
    Int ×ₗ String ×ₗ String ×ₗ Nat ×ₗ Nat ×ₗ Nat ×ₗ Nat ×ₗ String ×ₗ String ×ₗ Bool ×ₗ String ×ₗ
      String :=
  toLex (e.ordinal, toLex (e.kind, toLex (e.path, toLex (e.startLine, toLex (e.startColumn,
    toLex (e.endLine, toLex (e.endColumn, toLex (e.extractor, toLex (e.extractorVersion,
      toLex (e.detail.isSome, toLex (e.detail.getD "", String.ofList (e.properties.value.text F))))))))))))

/-! ### Projection -/

structure PathStepProjection where
  evidence : ExtTreeMap String (List EvidenceRecord)
  correlations : ExtTreeMap String ProfileCorrelationRecord
  phaseCoverage : ExtTreeMap String (ExtTreeMap String PhaseCoverageRecord)

section Build

variable (F : FloatText) (maximum : Nat)

/-- Appends the evidence of a selected edge to its list. -/
def collectEvidence (filter : GraphQueryFilter) (selected : ExtTreeSet String)
    (records : ExtTreeMap String (List EvidenceRecord)) (item : EvidenceRecord) :
    PathStepWork (ExtTreeMap String (List EvidenceRecord)) := do
  PathStepWork.step maximum .evidenceScan
  if item.ownerType = "edge" ∧ item.ownerId ∈ selected ∧ filter.matchesEvidence item = true then
    PathStepWork.step maximum .evidenceOwnerInsertion
    let known := records[item.ownerId]?.getD []
    PathStepWork.atMost (known.length + 1) maxGraphEvidenceItems
    return records.insert item.ownerId (known ++ [item])
  else return records

/-- Sorts the evidence of an edge. -/
def finalizeEvidence (evidence : ExtTreeMap String (List EvidenceRecord))
    (entry : String × List EvidenceRecord) :
    PathStepWork (ExtTreeMap String (List EvidenceRecord)) := do
  PathStepWork.step maximum .evidenceOwnerFinalization
  PathStepWork.step maximum .evidenceOwnerFinalization
  let cloned ← (sortByKey (evidenceOrderKey F) entry.2).mapM fun record => do
    PathStepWork.step maximum .evidenceClone
    return record
  return evidence.insert entry.1 cloned

/-- The correlations of the selected edges, and the profiles they are effective for. -/
structure Correlated where
  correlations : ExtTreeMap String ProfileCorrelationRecord
  effectiveProfileIds : ExtTreeSet String

/-- Notes the correlation of a selected edge. -/
def correlateEdge (selected : ExtTreeSet String) (correlation : ProfileCorrelationRecord)
    (correlated : Correlated) (edgeId : String) : PathStepWork Correlated := do
  PathStepWork.step maximum .correlationEdge
  if edgeId ∈ selected then
    PathStepWork.atMost correlation.differenceReasons.length maxUnresolvedCorrelationReasons
    PathStepWork.step maximum .correlationInsertion
    if edgeId ∈ correlated.correlations then Metered.fail .queryPostprocessingIntegrity
    else
      let correlations := correlated.correlations.insert edgeId correlation
      if correlation.effectiveProfileId ∈ correlated.effectiveProfileIds then
        return { correlated with correlations }
      else
        PathStepWork.step maximum .correlationInsertion
        return ⟨correlations, correlated.effectiveProfileIds.insert correlation.effectiveProfileId⟩
  else return correlated

/-- Notes a correlation under the selected edges. -/
def correlateRecord (selected : ExtTreeSet String) (correlated : Correlated)
    (correlation : ProfileCorrelationRecord) : PathStepWork Correlated := do
  PathStepWork.step maximum .correlationRecord
  (values correlation.edgeIdsByPhase).foldlM (fun correlated edgeIds => do
    PathStepWork.step maximum .correlationPhase
    edgeIds.foldlM (correlateEdge maximum selected correlation) correlated) correlated

/-- Notes the phase coverage of an effective profile. -/
def coverProfile (effectiveProfileIds : ExtTreeSet String)
    (coverage : ExtTreeMap String (ExtTreeMap String PhaseCoverageRecord))
    (entry : ProfileMatrixEntryRecord) :
    PathStepWork (ExtTreeMap String (ExtTreeMap String PhaseCoverageRecord)) := do
  PathStepWork.step maximum .profileEntry
  if entry.id ∉ effectiveProfileIds ∨ entry.id ∈ coverage then return coverage
  else
    PathStepWork.atMost entry.phaseCoverage.size maxGraphPhaseCoverageItems
    PathStepWork.step maximum .profileInsertion
    return coverage.insert entry.id entry.phaseCoverage

def PathStepProjection.build (snapshot : GraphSnapshot) (filter : GraphQueryFilter)
    (selected : ExtTreeSet String) : PathStepWork PathStepProjection := do
  let records ← snapshot.evidence.foldlM (collectEvidence maximum filter selected) ∅
  let evidence ← records.toList.foldlM (finalizeEvidence F maximum) ∅
  let correlated ← snapshot.profileMatrix.correlations.foldlM (correlateRecord maximum selected)
    ⟨∅, ∅⟩
  let phaseCoverage ← snapshot.profileMatrix.entries.foldlM
    (coverProfile maximum correlated.effectiveProfileIds) ∅
  return ⟨evidence, correlated.correlations, phaseCoverage⟩

/-- The selected edges, and the projection for them: `PathStepMaterializer::new`. -/
def newMaterializer (snapshot : GraphSnapshot) (filter : GraphQueryFilter)
    (edges : List EdgeRecord) : PathStepWork PathStepProjection := do
  let selected ← edges.foldlM (fun (selected : ExtTreeSet String) edge => do
    PathStepWork.step maximum .edgeSelection
    return selected.insert edge.id) ∅
  PathStepProjection.build F maximum snapshot filter selected

/-! ### Steps -/

/-- A copy of a list, with its work. -/
def copyItems {α : Type} (stage : QueryPostprocessingStage) (items : List α) :
    PathStepWork (List α) :=
  items.mapM fun item => do
    PathStepWork.step maximum stage
    return item

/-- A copy of the coverage of a phase. -/
def copyCoverage (coverage : ExtTreeMap String PhaseCoverageRecord)
    (entry : String × PhaseCoverageRecord) :
    PathStepWork (ExtTreeMap String PhaseCoverageRecord) := do
  PathStepWork.step maximum .phaseEntryClone
  let profileIds ← copyItems maximum .phaseProfileClone entry.2.profileIds
  let completeness ← copyItems maximum .phaseCompletenessClone entry.2.completeness
  return coverage.insert entry.1 { entry.2 with profileIds, completeness }

/-- What the correlation of an edge adds to its step. -/
def correlationDetails (projection : PathStepProjection)
    (correlation : Option ProfileCorrelationRecord) :
    PathStepWork (List String × ExtTreeMap String PhaseCoverageRecord) :=
  match correlation with
  | none => return ([], ∅)
  | some correlation => do
    PathStepWork.atMost correlation.differenceReasons.length maxUnresolvedCorrelationReasons
    let reasons ← copyItems maximum .reasonClone correlation.differenceReasons
    match projection.phaseCoverage[correlation.effectiveProfileId]? with
    | none => return (reasons, ∅)
    | some coverage =>
      PathStepWork.atMost coverage.size maxGraphPhaseCoverageItems
      let coverage ← coverage.toList.foldlM (copyCoverage maximum) ∅
      return (reasons, coverage)

def PathStepProjection.materialize (projection : PathStepProjection) (edge : EdgeRecord) :
    PathStepWork PathStep := do
  PathStepWork.step maximum .edgeLookup
  let correlation := projection.correlations[edge.id]?
  PathStepWork.step maximum .pathStep
  let evidence ← copyItems maximum .evidenceClone (projection.evidence[edge.id]?.getD [])
  let (observedDifferenceReasons, phaseCoverage) ←
    correlationDetails maximum projection correlation
  PathStepWork.step maximum .pathStep
  return { edge
           conditionText := renderCondition F edge.condition.value
           evidence
           effectiveProfileId := correlation.map ProfileCorrelationRecord.effectiveProfileId
           correlationStatus := correlation.map ProfileCorrelationRecord.status
           observedDifferenceReasons
           phaseCoverage }

end Build

/-- **A step is about its edge.** -/
theorem materialize_edge {F : FloatText} {maximum : Nat} {projection : PathStepProjection}
    {edge : EdgeRecord} : Ensures (projection.materialize F maximum edge) (·.edge = edge) :=
  Ensures.after fun _ => Ensures.after fun _ => Ensures.after fun _ => Ensures.after fun _ =>
    Ensures.after fun _ => Ensures.pure rfl

end Impact
