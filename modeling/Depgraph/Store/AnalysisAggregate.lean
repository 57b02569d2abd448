import Depgraph.Library.Collect
import Depgraph.Library.Grouping
import Depgraph.Store.AnalysisCoverage
import Mathlib.Data.List.Permutation

/-!
# The aggregate of the analysis units

`aggregate_analysis_coverage` groups the ledger by unit and counts the units by what their rows say.
What is counted as completed is stated twice: as the program computes it (`unitOutcome`) and as a
property of the rows of a unit (`CompleteUnit`, `BoundTo`).

## Main results

* `unitOutcome_completed_iff`: which units of the second contract count as completed.
* `aggregateAnalysisCoverage_counts`: the counters are the numbers of the units by outcome.
-/

namespace Store

open Fallible OrderedMap

/-! ### Joining the stages of a unit -/

/-- The union of a list of paths of the rows. -/
def unionPaths (rows : List AnalysisUnitLedgerRecord)
    (paths : AnalysisUnitLedgerRecord → List String) : List String :=
  btreeSet (rows.flatMap paths)

def sameContext (left right : AnalysisUnitLedgerRecord) : Except String Unit :=
  check (left.contextPaths = right.contextPaths ∧
    left.contextFingerprint = right.contextFingerprint ∧ left.sourcePaths = right.sourcePaths)
    "analysis-unit-context-mismatch"

def joinV1 (rows : List AnalysisUnitLedgerRecord) (stages : List String) : Except String Unit := do
  check (stages = btreeSet ["semantic", "syntax"] ∧ rows.length = 2) "analysis-unit-missing-stage"
  let syntaxRow ← required (rows.find? fun row => row.stage = "syntax")
    "analysis-unit-missing-stage"
  let semanticRow ← required (rows.find? fun row => row.stage = "semantic")
    "analysis-unit-missing-stage"
  check (∀ row ∈ rows, row.status = "completed") "analysis-unit-stage-incomplete"
  check (syntaxRow.chunkId = "" ∧ semanticRow.chunkId = "" ∧ syntaxRow.chunkIndex = none ∧
    semanticRow.chunkIndex = none ∧ syntaxRow.chunkCount = none ∧ semanticRow.chunkCount = none)
    "analysis-unit-v1-chunk-metadata"
  sameContext syntaxRow semanticRow

/-- The stages of a unit of the second contract: whether a typed stage is among them. -/
def expectTyped (stages : List String) : Except String Bool :=
  if stages = btreeSet ["semantic", "syntax"] then .ok false
  else if stages = btreeSet ["semantic", "syntax", "typed"] then .ok true
  else .error "analysis-unit-missing-stage"

/-- The rows of a stage. -/
def stageRows (rows : List AnalysisUnitLedgerRecord) (stage : String) :
    List AnalysisUnitLedgerRecord :=
  rows.filter fun row => row.stage = stage

/-- `sum::<usize>()` over the lengths of the lists of sources. -/
def sourceTotal (rows : List AnalysisUnitLedgerRecord) : Nat :=
  (rows.map fun row => row.sourcePaths.length).sum

/-- The chunks of the typed stage, when there is one. -/
def validTypedChunks (typed : Bool) (typedRows : List AnalysisUnitLedgerRecord) :
    Except String Unit :=
  if typed = true then validChunks typedRows else .ok ()

def joinV2 (rows : List AnalysisUnitLedgerRecord) (stages : List String) : Except String Unit := do
  let typed ← expectTyped stages
  let typedRows := stageRows rows "typed"
  check (typed = true → ∀ row ∈ typedRows, row.adapter = "go")
    "analysis-unit-typed-adapter-mismatch"
  validTypedChunks typed typedRows
  let syntaxRows := stageRows rows "syntax"
  let semanticRows := stageRows rows "semantic"
  validChunks syntaxRows
  validChunks semanticRows
  check ((∀ row ∈ syntaxRows, row.status = "completed") ∧
    (∀ row ∈ semanticRows, row.status = "completed") ∧
    ∀ row ∈ typedRows, row.status = "completed") "analysis-unit-stage-incomplete"
  let ownedSources := unionPaths syntaxRows (·.sourcePaths)
  let declaredContext := unionPaths syntaxRows (·.contextPaths)
  check (ownedSources ⊆ declaredContext ∧
    unionPaths semanticRows (·.sourcePaths) = ownedSources ∧
    sourceTotal syntaxRows = ownedSources.length ∧ sourceTotal semanticRows = ownedSources.length)
    "analysis-unit-context-scope-mismatch"
  check (∀ row ∈ syntaxRows ++ semanticRows, unionPaths [row] (·.contextPaths) = declaredContext)
    "analysis-unit-context-scope-mismatch"
  check (typed = true → (∀ row ∈ typedRows, unionPaths [row] (·.contextPaths) = ownedSources) ∧
    unionPaths typedRows (·.sourcePaths) = ownedSources ∧
    sourceTotal typedRows = ownedSources.length) "analysis-unit-context-scope-mismatch"
  -- A row without a fingerprint takes no part in the set.
  let fingerprints := btreeSet
    ((syntaxRows ++ typedRows ++ semanticRows).filterMap (·.contextFingerprint))
  check (fingerprints.length = 1 ∧
    (∀ row ∈ semanticRows, row.contextFingerprint = fingerprints.head?) ∧
    ∀ row ∈ typedRows, row.contextFingerprint = fingerprints.head?)
    "analysis-unit-context-fingerprint-mismatch"

/-! ### The outcome of a unit -/

/-- How a unit is counted. -/
inductive UnitOutcome
  | completed
  | failed
  | cancelled
  | unanalysed
deriving DecidableEq

/-- Whether a join succeeds, and the reason that it inserts. -/
def reported (joined : Except String Unit) : Bool × List String :=
  match joined with
  | .ok () => (true, [])
  | .error reason => (false, [reason])

/-- The join that the contract of a unit asks for. -/
def joinUnit (contract : String) (rows : List AnalysisUnitLedgerRecord) : Bool × List String :=
  let stages := btreeSet (rows.map (·.stage))
  if contract = "depgraph-analysis-unit-v1" then reported (joinV1 rows stages)
  else if contract = "depgraph-analysis-unit-v2" then reported (joinV2 rows stages)
  else if stages = btreeSet ["repository"] then
    (decide (rows.length = 1) && rows.head?.any fun row => row.status = "completed", [])
  else (false, ["analysis-unit-unknown-contract"])

/-- A turn of the loop over the units: how the unit is counted, and the reasons it inserts. -/
def unitOutcome (contractVersion : String) (rows : List AnalysisUnitLedgerRecord) :
    UnitOutcome × List String :=
  let statuses := btreeSet (rows.map (·.status))
  if "failed" ∈ statuses then (.failed, ["analysis-unit-failed"])
  else if "cancelled" ∈ statuses then (.cancelled, ["analysis-unit-cancelled"])
  else if ∃ status ∈ statuses, status ∈ ["queued", "running", "unanalysed", "unknown"] then
    (.unanalysed, ["analysis-unit-unanalysed"])
  else
    let contracts := btreeSet (rows.map (·.contractVersion))
    if contracts.length ≠ 1 then (.unanalysed, ["analysis-unit-contract-mismatch"])
    else
      let joined := joinUnit (contracts.head?.getD contractVersion) rows
      if joined.1 = true then (.completed, joined.2) else (.unanalysed, joined.2)

structure AnalysisCoverageSummary where
  contractVersion : String
  planId : Option String
  inputDigest : Option String
  expectedUnits : Nat
  completedUnits : Nat
  failedUnits : Nat
  unanalysedUnits : Nat
  cancelledUnits : Nat
  semanticCompleteUnits : Nat
  complete : Bool
  reasons : List String

/-- The counters of the loop over the units. -/
structure UnitTally where
  completed : Nat
  failed : Nat
  unanalysed : Nat
  cancelled : Nat
  semanticComplete : Nat
  reasons : List String

/-- The counters after a unit. -/
def UnitTally.count (contractVersion : String) (tally : UnitTally)
    (rows : List AnalysisUnitLedgerRecord) : UnitTally :=
  let outcome := unitOutcome contractVersion rows
  let tally := { tally with reasons := tally.reasons ++ outcome.2 }
  match outcome.1 with
  | .failed => { tally with failed := tally.failed + 1 }
  | .cancelled => { tally with cancelled := tally.cancelled + 1 }
  | .unanalysed => { tally with unanalysed := tally.unanalysed + 1 }
  | .completed =>
    if rows.any (·.unknownDependencies) then
      { tally with
        completed := tally.completed + 1
        reasons := tally.reasons ++ ["analysis-unit-unknown-dependency"] }
    else
      { tally with
        completed := tally.completed + 1
        semanticComplete := tally.semanticComplete + 1 }

/-- The unit that a row belongs to. -/
def unitOf (row : AnalysisUnitLedgerRecord) : String ×ₗ String := toLex (row.unitId, row.unitRoot)

/-- The rows grouped by unit. -/
def ledgerUnits (records : List AnalysisUnitLedgerRecord) :
    Std.ExtTreeMap (String ×ₗ String) (List AnalysisUnitLedgerRecord) :=
  groupBy (fun row => some (unitOf row)) records

def aggregateAnalysisCoverage (contractVersion : String) (planId inputDigest : Option String)
    (records : List AnalysisUnitLedgerRecord) : AnalysisCoverageSummary :=
  let units := ledgerUnits records
  let tally := (values units).foldl (UnitTally.count contractVersion) ⟨0, 0, 0, 0, 0, []⟩
  let expectedUnits := units.size
  let complete := decide (expectedUnits = 0) || decide (tally.completed = expectedUnits)
  { contractVersion := contractVersion
    planId := planId
    inputDigest := inputDigest
    expectedUnits := expectedUnits
    completedUnits := tally.completed
    failedUnits := tally.failed
    unanalysedUnits := tally.unanalysed
    cancelledUnits := tally.cancelled
    semanticCompleteUnits := tally.semanticComplete
    complete := complete
    reasons := btreeSet (tally.reasons ++
      (if expectedUnits = 0 then ["analysis-unit-plan-empty"] else []) ++
      if complete then [] else ["analysis-unit-incomplete"]) }

/-! ### Complete units -/

/-- The sources of the rows are a partition of the sources that a unit owns. -/
structure PartitionsSources (rows : List AnalysisUnitLedgerRecord) (owned : Set String) : Prop where
  disjoint : (rows.flatMap (·.sourcePaths)).Nodup
  covers : ∀ path, path ∈ rows.flatMap (·.sourcePaths) ↔ path ∈ owned

/-- The rows of a unit join, their contract and their fingerprints left aside. -/
structure JoinedStages (rows : List AnalysisUnitLedgerRecord) : Prop where
  status : ∀ row ∈ rows, row.status = "completed"
  stages : (∀ stage, stage ∈ rows.map (·.stage) ↔ stage ∈ ["semantic", "syntax"]) ∨
    ∀ stage, stage ∈ rows.map (·.stage) ↔ stage ∈ ["semantic", "syntax", "typed"]
  adapter : ∀ row ∈ rows, row.stage = "typed" → row.adapter = "go"
  chunks : ∀ stage ∈ rows.map (·.stage), CompleteChunks (stageRows rows stage)
  scope : ∃ owned context : Set String, owned ⊆ context ∧
    (∀ stage ∈ rows.map (·.stage), PartitionsSources (stageRows rows stage) owned) ∧
    (∀ row ∈ rows, row.stage ≠ "typed" → ∀ path, path ∈ row.contextPaths ↔ path ∈ context) ∧
    ∀ row ∈ rows, row.stage = "typed" → ∀ path, path ∈ row.contextPaths ↔ path ∈ owned

/-- The rows of a unit of the second contract join, their fingerprints left aside. -/
structure CompleteUnit (rows : List AnalysisUnitLedgerRecord) : Prop extends JoinedStages rows where
  contract : ∀ row ∈ rows, row.contractVersion = "depgraph-analysis-unit-v2"

/-- Every row carries one and the same fingerprint. -/
def BoundTo (fingerprint : String) (rows : List AnalysisUnitLedgerRecord) : Prop :=
  ∀ row ∈ rows, row.contextFingerprint = some fingerprint

/-- Every row carries the fingerprint, but a syntax row may carry none. -/
def LooselyBoundTo (fingerprint : String) (rows : List AnalysisUnitLedgerRecord) : Prop :=
  ∀ row ∈ rows, row.contextFingerprint = some fingerprint ∨
    row.stage = "syntax" ∧ row.contextFingerprint = none

/-! ### What the second contract accepts -/

section JoinV2

variable {rows : List AnalysisUnitLedgerRecord} {typed : Bool}

theorem mem_stageRows {row : AnalysisUnitLedgerRecord} {stage : String} :
    row ∈ stageRows rows stage ↔ row ∈ rows ∧ row.stage = stage := by
  rw [stageRows, List.mem_filter, decide_eq_true_eq]

/-- The two sets of stages that are accepted. -/
theorem expectTyped_eq_ok {stages : List String} :
    expectTyped (btreeSet stages) = .ok typed ↔
      (typed = false ∧ ∀ stage, stage ∈ stages ↔ stage ∈ ["semantic", "syntax"]) ∨
        typed = true ∧ ∀ stage, stage ∈ stages ↔ stage ∈ ["semantic", "syntax", "typed"] := by
  unfold expectTyped
  split_ifs with hpair htriple <;> simp only [btreeSet_eq_iff] at hpair
  · rw [Except.ok.injEq]
    constructor
    · rintro rfl
      exact .inl ⟨rfl, hpair⟩
    · rintro (⟨rfl, -⟩ | ⟨-, htriple⟩)
      · rfl
      · have habsurd := (hpair "typed").1 ((htriple "typed").2 (by simp))
        simp at habsurd
  · rw [btreeSet_eq_iff] at htriple
    rw [Except.ok.injEq]
    constructor
    · rintro rfl
      exact .inr ⟨rfl, htriple⟩
    · rintro (⟨-, hpair'⟩ | ⟨rfl, -⟩)
      · exact absurd hpair' hpair
      · rfl
  · rw [btreeSet_eq_iff] at htriple
    constructor
    · intro h
      cases h
    · rintro (⟨-, hpair'⟩ | ⟨-, htriple'⟩)
      · exact absurd hpair' hpair
      · exact absurd htriple' htriple

/-- Accepted stages are the three known ones. -/
theorem mem_stages_iff (h : expectTyped (btreeSet (rows.map (·.stage))) = .ok typed)
    {stage : String} : stage ∈ rows.map (·.stage) ↔
      stage = "syntax" ∨ stage = "semantic" ∨ typed = true ∧ stage = "typed" := by
  obtain ⟨rfl, hmem⟩ | ⟨rfl, hmem⟩ := expectTyped_eq_ok.1 h
  · rw [hmem stage]
    simp [or_comm]
  · rw [hmem stage]
    simp only [List.mem_cons, List.not_mem_nil, or_false, true_and]
    tauto

theorem forall_stages (h : expectTyped (btreeSet (rows.map (·.stage))) = .ok typed)
    {good : String → Prop} : (∀ stage ∈ rows.map (·.stage), good stage) ↔
      good "syntax" ∧ good "semantic" ∧ (typed = true → good "typed") := by
  constructor
  · intro hall
    exact ⟨hall _ ((mem_stages_iff h).2 (.inl rfl)), hall _ ((mem_stages_iff h).2 (.inr (.inl rfl))),
      fun htyped => hall _ ((mem_stages_iff h).2 (.inr (.inr ⟨htyped, rfl⟩)))⟩
  · rintro ⟨hsyn, hsemantic, htyped⟩ stage hstage
    obtain rfl | rfl | ⟨hexpected, rfl⟩ := (mem_stages_iff h).1 hstage
    · exact hsyn
    · exact hsemantic
    · exact htyped hexpected

/-- A property of all rows, stage by stage. -/
theorem forall_rows (h : expectTyped (btreeSet (rows.map (·.stage))) = .ok typed)
    {good : AnalysisUnitLedgerRecord → Prop} : (∀ row ∈ rows, good row) ↔
      (∀ row ∈ stageRows rows "syntax", good row) ∧
        (∀ row ∈ stageRows rows "semantic", good row) ∧
          ∀ row ∈ stageRows rows "typed", good row := by
  constructor
  · intro hall
    exact ⟨fun row hrow => hall row (mem_stageRows.1 hrow).1,
      fun row hrow => hall row (mem_stageRows.1 hrow).1,
      fun row hrow => hall row (mem_stageRows.1 hrow).1⟩
  · rintro ⟨hsyn, hsemantic, htyped⟩ row hrow
    obtain hstage | hstage | ⟨-, hstage⟩ :=
      (mem_stages_iff h).1 (List.mem_map_of_mem (f := (·.stage)) hrow)
    · exact hsyn row (mem_stageRows.2 ⟨hrow, hstage⟩)
    · exact hsemantic row (mem_stageRows.2 ⟨hrow, hstage⟩)
    · exact htyped row (mem_stageRows.2 ⟨hrow, hstage⟩)

/-- Without a typed stage there is no typed row. -/
theorem expected_of_typed (h : expectTyped (btreeSet (rows.map (·.stage))) = .ok typed)
    {row : AnalysisUnitLedgerRecord} (hrow : row ∈ stageRows rows "typed") : typed = true := by
  obtain ⟨hmem, hstage⟩ := mem_stageRows.1 hrow
  obtain hother | hother | ⟨hexpected, -⟩ :=
    (mem_stages_iff h).1 (List.mem_map_of_mem (f := (·.stage)) hmem)
  · exact absurd (hstage.symm.trans hother) (by decide)
  · exact absurd (hstage.symm.trans hother) (by decide)
  · exact hexpected

theorem sourceTotal_eq : sourceTotal rows = (rows.flatMap (·.sourcePaths)).length :=
  List.length_flatMap.symm

/-- The sum of the lengths stands for the disjointness of the lists. -/
theorem partitionsSources_iff {owned : List String} :
    unionPaths rows (·.sourcePaths) = btreeSet owned ∧
      sourceTotal rows = (btreeSet owned).length ↔ PartitionsSources rows {path | path ∈ owned} := by
  rw [sourceTotal_eq]
  constructor
  · rintro ⟨hunion, htotal⟩
    rw [← hunion, eq_comm] at htotal
    exact ⟨length_btreeSet_eq_iff.1 htotal, btreeSet_eq_iff.1 hunion⟩
  · rintro ⟨hdisjoint, hcovers⟩
    have hunion : unionPaths rows (·.sourcePaths) = btreeSet owned := btreeSet_eq_iff.2 hcovers
    refine ⟨hunion, ?_⟩
    rw [← hunion, eq_comm]
    exact length_btreeSet_eq_iff.2 hdisjoint

theorem context_iff {row : AnalysisUnitLedgerRecord} {context : List String} :
    unionPaths [row] (·.contextPaths) = btreeSet context ↔
      ∀ path, path ∈ row.contextPaths ↔ path ∈ context := by
  rw [unionPaths, btreeSet_eq_iff, List.flatMap_singleton]

/-- The rows that carry a fingerprint carry the same one, and only syntax rows carry none. -/
theorem fingerprints_iff (h : expectTyped (btreeSet (rows.map (·.stage))) = .ok typed)
    (hsemantic : stageRows rows "semantic" ≠ []) :
    let fingerprints := btreeSet ((stageRows rows "syntax" ++ stageRows rows "typed" ++
      stageRows rows "semantic").filterMap (·.contextFingerprint))
    (fingerprints.length = 1 ∧
      (∀ row ∈ stageRows rows "semantic", row.contextFingerprint = fingerprints.head?) ∧
      ∀ row ∈ stageRows rows "typed", row.contextFingerprint = fingerprints.head?) ↔
      ∃ fingerprint, LooselyBoundTo fingerprint rows := by
  intro fingerprints
  have hset (fingerprint : String) : fingerprints = [fingerprint] ↔
      (stageRows rows "syntax" ++ stageRows rows "typed" ++
        stageRows rows "semantic").filterMap (·.contextFingerprint) ≠ [] ∧
      ∀ row ∈ rows, ∀ other, row.contextFingerprint = some other → other = fingerprint := by
    rw [show fingerprints = [fingerprint] ↔ _ from btreeSet_eq_singleton, forall_rows h]
    simp only [List.mem_filterMap, List.mem_append]
    refine and_congr_right fun _ => ⟨fun hall => ⟨?_, ?_, ?_⟩, ?_⟩
    · exact fun row hrow other heq => hall other ⟨row, .inl (.inl hrow), heq⟩
    · exact fun row hrow other heq => hall other ⟨row, .inr hrow, heq⟩
    · exact fun row hrow other heq => hall other ⟨row, .inl (.inr hrow), heq⟩
    · rintro ⟨hsyn, hsem, htyped⟩ other ⟨row, (hrow | hrow) | hrow, heq⟩
      · exact hsyn row hrow other heq
      · exact htyped row hrow other heq
      · exact hsem row hrow other heq
  constructor
  · rintro ⟨hlength, hsem, htyped⟩
    obtain ⟨fingerprint, hone⟩ := List.length_eq_one_iff.1 hlength
    have hsame := ((hset fingerprint).1 hone).2
    rw [hone, List.head?_cons] at hsem htyped
    refine ⟨fingerprint, (forall_rows h).2 ⟨fun row hrow => ?_, fun row hrow => ?_,
      fun row hrow => ?_⟩⟩
    · obtain ⟨hmem, hstage⟩ := mem_stageRows.1 hrow
      cases hcarried : row.contextFingerprint with
      | none => exact .inr ⟨hstage, rfl⟩
      | some other => exact .inl (congrArg some (hsame row hmem other hcarried))
    · exact .inl (hsem row hrow)
    · exact .inl (htyped row hrow)
  · rintro ⟨fingerprint, hbound⟩
    have hcarries {row : AnalysisUnitLedgerRecord} {stage : String} (hne : stage ≠ "syntax")
        (hrow : row ∈ stageRows rows stage) : row.contextFingerprint = some fingerprint := by
      obtain ⟨hmem, hstage⟩ := mem_stageRows.1 hrow
      exact (hbound row hmem).resolve_right fun hloose => hne (hstage.symm.trans hloose.1)
    have hone : fingerprints = [fingerprint] := by
      refine (hset fingerprint).2 ⟨?_, fun row hrow other heq => ?_⟩
      · obtain ⟨row, hrow⟩ := List.exists_mem_of_ne_nil _ hsemantic
        exact List.ne_nil_of_mem (List.mem_filterMap.2 ⟨row, List.mem_append_right _ hrow,
          hcarries (by decide) hrow⟩)
      · obtain hcarried | ⟨-, hnone⟩ := hbound row hrow
        · exact Option.some.inj (heq.symm.trans hcarried)
        · exact absurd (heq.symm.trans hnone) (Option.some_ne_none _)
    rw [hone]
    exact ⟨rfl, fun row hrow => hcarries (by decide) hrow,
      fun row hrow => hcarries (by decide) hrow⟩

theorem validTypedChunks_eq_ok {u : Unit} :
    validTypedChunks typed rows = .ok u ↔ (typed = true → CompleteChunks rows) := by
  unfold validTypedChunks
  cases typed
  · exact ⟨fun _ h => absurd h Bool.false_ne_true, fun _ => rfl⟩
  · rw [if_pos rfl, validChunks_iff]
    exact ⟨fun h _ => h, fun h => h rfl⟩

/-- **The second contract joins** the units whose stages join under one fingerprint, where only a
syntax row may lack it. -/
theorem joinV2_eq_ok : joinV2 rows (btreeSet (rows.map (·.stage))) = .ok () ↔
    JoinedStages rows ∧ ∃ fingerprint, LooselyBoundTo fingerprint rows := by
  unfold joinV2
  simp only [bind_eq_ok, check_eq_ok, exists_const, validTypedChunks_eq_ok, validChunks_iff]
  constructor
  · rintro ⟨typed, htyped, hadapter, hchunks, hsyn, hsemantic, hstatus,
      ⟨hsub, hsemSources, hsynTotal, hsemTotal⟩, hcontexts, htypedScope, hfingerprints⟩
    refine ⟨?_, (fingerprints_iff htyped hsemantic.nonempty).1 hfingerprints⟩
    refine
      { status := (forall_rows htyped).2 hstatus
        stages := ?_
        adapter := ?_
        chunks := (forall_stages htyped).2 ⟨hsyn, hsemantic, hchunks⟩
        scope := ⟨_, {path | path ∈ (stageRows rows "syntax").flatMap (·.contextPaths)}, ?_,
          (forall_stages htyped).2
            ⟨partitionsSources_iff.1 ⟨rfl, hsynTotal⟩,
              partitionsSources_iff.1 ⟨hsemSources, hsemTotal⟩,
              fun h => partitionsSources_iff.1 (htypedScope h).2⟩, ?_, ?_⟩ }
    · exact (expectTyped_eq_ok.1 htyped).imp And.right And.right
    · intro row hrow hstage
      have hmem := mem_stageRows.2 ⟨hrow, hstage⟩
      exact hadapter (expected_of_typed htyped hmem) row hmem
    · intro path howned
      exact mem_btreeSet.1 (hsub (mem_btreeSet.2 howned))
    · refine (forall_rows htyped).2 ⟨fun row hrow _ => ?_, fun row hrow _ => ?_,
        fun row hrow hstage => absurd (mem_stageRows.1 hrow).2 hstage⟩
      · exact context_iff.1 (hcontexts row (List.mem_append_left _ hrow))
      · exact context_iff.1 (hcontexts row (List.mem_append_right _ hrow))
    · intro row hrow hstage
      have hmem := mem_stageRows.2 ⟨hrow, hstage⟩
      exact context_iff.1 ((htypedScope (expected_of_typed htyped hmem)).1 row hmem)
  · rintro ⟨hjoined, hbound⟩
    obtain ⟨typed, htyped⟩ : ∃ typed, expectTyped (btreeSet (rows.map (·.stage))) = .ok typed := by
      rcases hjoined.stages with h | h
      · exact ⟨false, expectTyped_eq_ok.2 (.inl ⟨rfl, h⟩)⟩
      · exact ⟨true, expectTyped_eq_ok.2 (.inr ⟨rfl, h⟩)⟩
    obtain ⟨hsyn, hsemantic, hchunks⟩ := (forall_stages htyped).1 hjoined.chunks
    obtain ⟨owned, context, hsub, hpartitions, hcontexts, htypedContexts⟩ := hjoined.scope
    obtain ⟨hsynSources, hsemSources, htypedSources⟩ := (forall_stages htyped).1 hpartitions
    have howned : owned = {path | path ∈ (stageRows rows "syntax").flatMap (·.sourcePaths)} :=
      Set.ext fun path => (hsynSources.covers path).symm
    have hcontext : context = {path | path ∈ (stageRows rows "syntax").flatMap (·.contextPaths)} := by
      refine Set.ext fun path => ?_
      have hsame (row : AnalysisUnitLedgerRecord) (hrow : row ∈ stageRows rows "syntax") :
          path ∈ row.contextPaths ↔ path ∈ context :=
        hcontexts row (mem_stageRows.1 hrow).1
          (fun h => absurd ((mem_stageRows.1 hrow).2.symm.trans h) (by decide)) path
      rw [Set.mem_ofPred_eq, List.mem_flatMap]
      constructor
      · intro hpath
        obtain ⟨row, hrow⟩ := List.exists_mem_of_ne_nil _ hsyn.nonempty
        exact ⟨row, hrow, (hsame row hrow).2 hpath⟩
      · rintro ⟨row, hrow, hpath⟩
        exact (hsame row hrow).1 hpath
    subst howned hcontext
    refine ⟨typed, htyped, ?_, hchunks, hsyn, hsemantic, (forall_rows htyped).1 hjoined.status,
      ⟨?_, ?_, ?_, ?_⟩, ?_, ?_, (fingerprints_iff htyped hsemantic.nonempty).2 hbound⟩
    · intro _ row hrow
      exact hjoined.adapter row (mem_stageRows.1 hrow).1 (mem_stageRows.1 hrow).2
    · intro path hpath
      exact mem_btreeSet.2 (hsub (mem_btreeSet.1 hpath))
    · exact (partitionsSources_iff.2 hsemSources).1
    · exact (partitionsSources_iff.2 hsynSources).2
    · exact (partitionsSources_iff.2 hsemSources).2
    · intro row hrow
      refine context_iff.2 ?_
      obtain hrow | hrow := List.mem_append.1 hrow
      · exact hcontexts row (mem_stageRows.1 hrow).1 fun h =>
          absurd ((mem_stageRows.1 hrow).2.symm.trans h) (by decide)
      · exact hcontexts row (mem_stageRows.1 hrow).1 fun h =>
          absurd ((mem_stageRows.1 hrow).2.symm.trans h) (by decide)
    · intro hexpected
      refine ⟨fun row hrow => context_iff.2 ?_, partitionsSources_iff.2 (htypedSources hexpected)⟩
      exact htypedContexts row (mem_stageRows.1 hrow).1 (mem_stageRows.1 hrow).2

end JoinV2

/-! ### What the first contract accepts -/

/-- A syntax row and a semantic row of the first contract. -/
structure JoinedPair (syntaxRow semanticRow : AnalysisUnitLedgerRecord) : Prop where
  stages : syntaxRow.stage = "syntax" ∧ semanticRow.stage = "semantic"
  status : syntaxRow.status = "completed" ∧ semanticRow.status = "completed"
  chunks : syntaxRow.chunkId = "" ∧ semanticRow.chunkId = "" ∧ syntaxRow.chunkIndex = none ∧
    semanticRow.chunkIndex = none ∧ syntaxRow.chunkCount = none ∧ semanticRow.chunkCount = none
  context : syntaxRow.contextPaths = semanticRow.contextPaths ∧
    syntaxRow.contextFingerprint = semanticRow.contextFingerprint ∧
    syntaxRow.sourcePaths = semanticRow.sourcePaths

/-- The rows of the two stages, when there are exactly two rows. -/
theorem pair_of_stages {rows : List AnalysisUnitLedgerRecord}
    (hstages : btreeSet (rows.map (·.stage)) = btreeSet ["semantic", "syntax"])
    (hlength : rows.length = 2) : ∃ syntaxRow semanticRow,
      rows.Perm [syntaxRow, semanticRow] ∧ syntaxRow.stage = "syntax" ∧
        semanticRow.stage = "semantic" := by
  obtain ⟨a, b, rfl⟩ := List.length_eq_two.1 hlength
  rw [btreeSet_eq_iff] at hstages
  have ha := (hstages a.stage).1 (by simp)
  have hsyn := (hstages "syntax").2 (by simp)
  have hsemantic := (hstages "semantic").2 (by simp)
  rw [List.map_cons, List.map_cons, List.map_nil, List.mem_pair] at hsyn hsemantic
  rw [List.mem_pair] at ha
  rcases ha with ha | ha
  · refine ⟨b, a, List.Perm.swap _ _ _, ?_, ha⟩
    exact (hsyn.resolve_left fun h => absurd (h.trans ha) (by decide)).symm
  · refine ⟨a, b, List.Perm.refl _, ha, ?_⟩
    exact (hsemantic.resolve_left fun h => absurd (h.trans ha) (by decide)).symm

/-- **The first contract joins** a syntax row with a semantic row that says the same. -/
theorem joinV1_eq_ok {rows : List AnalysisUnitLedgerRecord} :
    joinV1 rows (btreeSet (rows.map (·.stage))) = .ok () ↔
      ∃ syntaxRow semanticRow, rows.Perm [syntaxRow, semanticRow] ∧
        JoinedPair syntaxRow semanticRow := by
  have hfound {syntaxRow semanticRow : AnalysisUnitLedgerRecord}
      (hperm : rows.Perm [syntaxRow, semanticRow]) (hsyn : syntaxRow.stage = "syntax")
      (hsemantic : semanticRow.stage = "semantic") :
      rows.find? (fun row => row.stage = "syntax") = some syntaxRow ∧
        rows.find? (fun row => row.stage = "semantic") = some semanticRow := by
    obtain rfl | rfl := List.perm_pair.1 hperm
    · simp [hsyn, hsemantic]
    · simp [hsyn, hsemantic]
  unfold joinV1 sameContext
  simp only [bind_eq_ok, check_eq_ok, required_eq_ok, exists_const]
  constructor
  · rintro ⟨⟨hstages, hlength⟩, syntaxRow, hs, semanticRow, ht, hstatus, hchunks, hcontext⟩
    obtain ⟨syntaxRow', semanticRow', hperm, hsyn, hsemantic⟩ := pair_of_stages hstages hlength
    obtain ⟨hs', ht'⟩ := hfound hperm hsyn hsemantic
    obtain rfl := Option.some.inj (hs.symm.trans hs')
    obtain rfl := Option.some.inj (ht.symm.trans ht')
    exact ⟨syntaxRow, semanticRow, hperm, ⟨hsyn, hsemantic⟩,
      ⟨hstatus _ (hperm.mem_iff.2 (by simp)), hstatus _ (hperm.mem_iff.2 (by simp))⟩, hchunks,
      hcontext⟩
  · rintro ⟨syntaxRow, semanticRow, hperm, ⟨hsyn, hsemantic⟩, hstatus, hchunks, hcontext⟩
    obtain ⟨hs, ht⟩ := hfound hperm hsyn hsemantic
    refine ⟨⟨btreeSet_eq_iff.2 fun stage => ?_, hperm.length_eq⟩, syntaxRow, hs, semanticRow, ht,
      fun row hrow => ?_, hchunks, hcontext⟩
    · rw [(hperm.map _).mem_iff]
      simp [hsyn, hsemantic, or_comm]
    · obtain rfl | rfl := List.mem_pair.1 (hperm.mem_iff.1 hrow)
      · exact hstatus.1
      · exact hstatus.2

/-! ### The outcome in every order of the rows -/

theorem reported_fst {joined : Except String Unit} :
    (reported joined).1 = true ↔ joined = .ok () := by
  cases joined with
  | ok u => simp [reported]
  | error reason => simp [reported]

section Order

variable {rows rows' : List AnalysisUnitLedgerRecord}

theorem btreeSet_map_perm {α : Type} [LinearOrder α] (hperm : rows.Perm rows')
    (field : AnalysisUnitLedgerRecord → α) :
    btreeSet (rows.map field) = btreeSet (rows'.map field) :=
  btreeSet_eq_iff.2 fun _ => (hperm.map field).mem_iff

theorem stageRows_perm (hperm : rows.Perm rows') (stage : String) :
    (stageRows rows stage).Perm (stageRows rows' stage) := hperm.filter _

theorem JoinedStages.perm (h : JoinedStages rows) (hperm : rows.Perm rows') :
    JoinedStages rows' where
  status row hrow := h.status row (hperm.mem_iff.2 hrow)
  stages := h.stages.imp (fun hmem stage => (hperm.map _).mem_iff.symm.trans (hmem stage))
    fun hmem stage => (hperm.map _).mem_iff.symm.trans (hmem stage)
  adapter row hrow := h.adapter row (hperm.mem_iff.2 hrow)
  chunks stage hstage :=
    (h.chunks stage ((hperm.map _).mem_iff.2 hstage)).perm (stageRows_perm hperm stage)
  scope := by
    obtain ⟨owned, context, hsub, hpartitions, hcontexts, htyped⟩ := h.scope
    refine ⟨owned, context, hsub, fun stage hstage => ?_,
      fun row hrow => hcontexts row (hperm.mem_iff.2 hrow),
      fun row hrow => htyped row (hperm.mem_iff.2 hrow)⟩
    obtain ⟨hdisjoint, hcovers⟩ := hpartitions stage ((hperm.map _).mem_iff.2 hstage)
    have hsources := (stageRows_perm hperm stage).flatMap_right (·.sourcePaths)
    exact ⟨hsources.nodup_iff.1 hdisjoint, fun path => hsources.mem_iff.symm.trans (hcovers path)⟩

/-- A join succeeds in every order of the rows or in none. -/
theorem joinUnit_perm (hperm : rows.Perm rows') (contract : String)
    (h : (joinUnit contract rows).1 = true) : (joinUnit contract rows').1 = true := by
  unfold joinUnit at h ⊢
  have hstages : btreeSet (rows'.map (·.stage)) = btreeSet (rows.map (·.stage)) :=
    (btreeSet_map_perm hperm _).symm
  dsimp only at h ⊢
  split_ifs at h with hv1 hv2 hrepository
  · rw [if_pos hv1, reported_fst]
    obtain ⟨syntaxRow, semanticRow, hpair, hjoined⟩ := joinV1_eq_ok.1 (reported_fst.1 h)
    exact joinV1_eq_ok.2 ⟨syntaxRow, semanticRow, hperm.symm.trans hpair, hjoined⟩
  · rw [if_neg hv1, if_pos hv2, reported_fst]
    obtain ⟨hjoined, fingerprint, hbound⟩ := joinV2_eq_ok.1 (reported_fst.1 h)
    exact joinV2_eq_ok.2 ⟨hjoined.perm hperm, fingerprint,
      fun row hrow => hbound row (hperm.mem_iff.2 hrow)⟩
  · rw [if_neg hv1, if_neg hv2, if_pos (hstages.trans hrepository)]
    rw [Bool.and_eq_true, decide_eq_true_eq] at h
    obtain ⟨row, rfl⟩ := List.length_eq_one_iff.1 h.1
    rw [List.perm_singleton.1 hperm.symm, Bool.and_eq_true, decide_eq_true_eq]
    exact h

/-- A unit is counted the same for every order of its rows. -/
theorem unitOutcome_perm (hperm : rows.Perm rows') (contractVersion : String) :
    (unitOutcome contractVersion rows).1 = (unitOutcome contractVersion rows').1 := by
  have hjoin (contract : String) :
      (joinUnit contract rows).1 = (joinUnit contract rows').1 :=
    Bool.eq_iff_iff.2 ⟨joinUnit_perm hperm contract, joinUnit_perm hperm.symm contract⟩
  unfold unitOutcome
  rw [btreeSet_map_perm hperm, btreeSet_map_perm hperm (·.contractVersion)]
  simp only [hjoin]
  split_ifs <;> rfl

end Order

/-- **Which units of the second contract count as completed**: those whose stages join under one
fingerprint, where a syntax row may lack it. -/
theorem unitOutcome_completed_iff {contractVersion : String} {rows : List AnalysisUnitLedgerRecord}
    (hv2 : ∃ row ∈ rows, row.contractVersion = "depgraph-analysis-unit-v2") :
    (unitOutcome contractVersion rows).1 = .completed ↔
      CompleteUnit rows ∧ ∃ fingerprint, LooselyBoundTo fingerprint rows := by
  obtain ⟨known, hknown, hcontract⟩ := hv2
  have hone : (btreeSet (rows.map (·.contractVersion))).length = 1 ↔
      btreeSet (rows.map (·.contractVersion)) = ["depgraph-analysis-unit-v2"] := by
    constructor
    · intro hlength
      obtain ⟨contract, hset⟩ := List.length_eq_one_iff.1 hlength
      have hmem : "depgraph-analysis-unit-v2" ∈ btreeSet (rows.map (·.contractVersion)) :=
        mem_btreeSet.2 (List.mem_map.2 ⟨known, hknown, hcontract⟩)
      rw [hset, List.mem_singleton] at hmem
      rw [hset, hmem]
    · intro hset
      rw [hset, List.length_singleton]
  unfold unitOutcome
  simp only [mem_btreeSet]
  constructor
  · intro h
    split_ifs at h with hfailed hcancelled hpending hlength hjoined
    have hset := hone.1 (not_not.1 hlength)
    rw [hset] at hjoined
    obtain ⟨hstages, hbound⟩ := joinV2_eq_ok.1 (reported_fst.1 hjoined)
    refine ⟨⟨hstages, fun row hrow => ?_⟩, hbound⟩
    exact (btreeSet_eq_singleton.1 hset).2 _ (List.mem_map_of_mem hrow)
  · rintro ⟨hcomplete, hbound⟩
    have hstatus (status : String) (hmem : status ∈ rows.map (·.status)) : status = "completed" := by
      obtain ⟨row, hrow, rfl⟩ := List.mem_map.1 hmem
      exact hcomplete.status row hrow
    have hset : btreeSet (rows.map (·.contractVersion)) = ["depgraph-analysis-unit-v2"] := by
      refine btreeSet_eq_singleton.2 ⟨List.ne_nil_of_mem (List.mem_map_of_mem hknown), ?_⟩
      intro contract hmem
      obtain ⟨row, hrow, rfl⟩ := List.mem_map.1 hmem
      exact hcomplete.contract row hrow
    rw [if_neg fun h => absurd (hstatus _ h) (by decide),
      if_neg fun h => absurd (hstatus _ h) (by decide), if_neg, if_neg, if_pos]
    · rw [hset]
      exact reported_fst.2 (joinV2_eq_ok.2 ⟨hcomplete.toJoinedStages, hbound⟩)
    · exact not_not.2 (hone.2 hset)
    · rintro ⟨status, hmem, hpending⟩
      rw [hstatus status hmem] at hpending
      exact absurd hpending (by decide)

/-! ### The counters -/

/-- The units of a ledger. -/
def unitNames (records : List AnalysisUnitLedgerRecord) : List (String ×ₗ String) :=
  (records.map unitOf).dedup

/-- The rows of a unit. -/
def unitRows (records : List AnalysisUnitLedgerRecord) (unit : String ×ₗ String) :
    List AnalysisUnitLedgerRecord :=
  records.filter fun row => unitOf row = unit

/-- The number of the units with an outcome. -/
def unitCount (contractVersion : String) (records : List AnalysisUnitLedgerRecord)
    (outcome : UnitOutcome) : Nat :=
  (unitNames records).countP fun unit =>
    (unitOutcome contractVersion (unitRows records unit)).1 = outcome

/-- A completed unit all of whose dependencies are known. -/
def isSemanticComplete (contractVersion : String) (rows : List AnalysisUnitLedgerRecord) : Bool :=
  decide ((unitOutcome contractVersion rows).1 = .completed) &&
    !rows.any (·.unknownDependencies)

/-- The counters of a tally by outcome. -/
def UnitTally.of (tally : UnitTally) : UnitOutcome → Nat
  | .completed => tally.completed
  | .failed => tally.failed
  | .cancelled => tally.cancelled
  | .unanalysed => tally.unanalysed

/-- A unit counts for its outcome only. -/
theorem UnitTally.count_of (contractVersion : String) (tally : UnitTally)
    (rows : List AnalysisUnitLedgerRecord) (outcome : UnitOutcome) :
    (tally.count contractVersion rows).of outcome =
      tally.of outcome + if (unitOutcome contractVersion rows).1 = outcome then 1 else 0 := by
  unfold UnitTally.count
  dsimp only
  cases (unitOutcome contractVersion rows).1 <;> cases outcome <;> try rfl
  all_goals cases rows.any (·.unknownDependencies) <;> rfl

theorem UnitTally.count_semanticComplete (contractVersion : String) (tally : UnitTally)
    (rows : List AnalysisUnitLedgerRecord) :
    (tally.count contractVersion rows).semanticComplete =
      tally.semanticComplete + if isSemanticComplete contractVersion rows then 1 else 0 := by
  unfold UnitTally.count isSemanticComplete
  dsimp only
  cases (unitOutcome contractVersion rows).1 <;> try rfl
  cases rows.any (·.unknownDependencies) <;> rfl

/-- The loop over the units counts those with an outcome. -/
theorem foldl_count (contractVersion : String) (units : List (List AnalysisUnitLedgerRecord))
    (tally : UnitTally) (outcome : UnitOutcome) :
    (units.foldl (UnitTally.count contractVersion) tally).of outcome = tally.of outcome +
      units.countP fun rows => (unitOutcome contractVersion rows).1 = outcome := by
  induction units generalizing tally with
  | nil => rfl
  | cons rows units ih =>
    rw [List.foldl_cons, ih, UnitTally.count_of, List.countP_cons]
    simp only [decide_eq_true_eq]
    omega

theorem foldl_semanticComplete (contractVersion : String)
    (units : List (List AnalysisUnitLedgerRecord)) (tally : UnitTally) :
    (units.foldl (UnitTally.count contractVersion) tally).semanticComplete =
      tally.semanticComplete + units.countP (isSemanticComplete contractVersion) := by
  induction units generalizing tally with
  | nil => rfl
  | cons rows units ih =>
    rw [List.foldl_cons, ih, UnitTally.count_semanticComplete, List.countP_cons]
    omega

/-- The groups are the rows of the units. -/
theorem values_ledgerUnits (records : List AnalysisUnitLedgerRecord) :
    (values (ledgerUnits records)).Perm ((unitNames records).map (unitRows records)) := by
  have hentry {unit : String ×ₗ String} {rows : List AnalysisUnitLedgerRecord} :
      (unit, rows) ∈ (ledgerUnits records).toList ↔
        rows = unitRows records unit ∧ unitRows records unit ≠ [] := by
    rw [mem_toList, ledgerUnits, getElem?_groupBy, inhabitedList_eq_some]
    simp only [Option.some.injEq]
    rfl
  have hrows : values (ledgerUnits records) =
      ((ledgerUnits records).toList.map Prod.fst).map (unitRows records) := by
    rw [values, List.map_map]
    exact List.map_congr_left fun entry hmem => (hentry.1 hmem).1
  rw [hrows]
  refine List.Perm.map _ ((List.perm_ext_iff_of_nodup keys_nodup (List.nodup_dedup _)).2 ?_)
  intro unit
  rw [List.mem_map, List.mem_dedup, List.mem_map]
  constructor
  · rintro ⟨entry, hmem, rfl⟩
    obtain ⟨row, hrow⟩ := List.exists_mem_of_ne_nil _ (hentry.1 hmem).2
    rw [unitRows, List.mem_filter, decide_eq_true_eq] at hrow
    exact ⟨row, hrow⟩
  · rintro ⟨row, hrow, rfl⟩
    have hne : unitRows records (unitOf row) ≠ [] :=
      List.ne_nil_of_mem (List.mem_filter.2 ⟨hrow, decide_eq_true rfl⟩)
    exact ⟨(unitOf row, _), hentry.2 ⟨rfl, hne⟩, rfl⟩

/-- The counters of a summary. -/
def AnalysisCoverageSummary.counts (summary : AnalysisCoverageSummary) : List Nat :=
  [summary.expectedUnits, summary.completedUnits, summary.failedUnits, summary.unanalysedUnits,
    summary.cancelledUnits, summary.semanticCompleteUnits]

section Aggregate

variable (contractVersion : String) (planId inputDigest : Option String)
variable (records : List AnalysisUnitLedgerRecord)

/-- **The counters are the numbers of the units by outcome.** -/
theorem aggregateAnalysisCoverage_counts :
    (aggregateAnalysisCoverage contractVersion planId inputDigest records).counts =
      [(unitNames records).length, unitCount contractVersion records .completed,
        unitCount contractVersion records .failed, unitCount contractVersion records .unanalysed,
        unitCount contractVersion records .cancelled,
        (unitNames records).countP fun unit =>
          isSemanticComplete contractVersion (unitRows records unit)] := by
  have hperm := values_ledgerUnits records
  have hsize : (ledgerUnits records).size = (unitNames records).length := by
    rw [← Std.ExtTreeMap.length_toList, ← List.length_map (f := Prod.snd)]
    exact hperm.length_eq.trans (List.length_map _)
  have hof (outcome : UnitOutcome) : ((values (ledgerUnits records)).foldl
      (UnitTally.count contractVersion) ⟨0, 0, 0, 0, 0, []⟩).of outcome =
        unitCount contractVersion records outcome := by
    rw [foldl_count, hperm.countP_eq, List.countP_map]
    cases outcome <;> exact Nat.zero_add _
  have hsemantic : ((values (ledgerUnits records)).foldl
      (UnitTally.count contractVersion) ⟨0, 0, 0, 0, 0, []⟩).semanticComplete =
        (unitNames records).countP fun unit =>
          isSemanticComplete contractVersion (unitRows records unit) := by
    rw [foldl_semanticComplete, hperm.countP_eq, List.countP_map]
    exact Nat.zero_add _
  rw [← hsize, ← hof .completed, ← hof .failed, ← hof .unanalysed, ← hof .cancelled, ← hsemantic]
  rfl

/-- A ledger is complete when all of its units are. -/
theorem aggregateAnalysisCoverage_complete :
    let summary := aggregateAnalysisCoverage contractVersion planId inputDigest records
    summary.complete =
      (decide (summary.expectedUnits = 0) ||
        decide (summary.completedUnits = summary.expectedUnits)) := rfl

/-- Every unit is counted once. -/
theorem unitCount_sum : unitCount contractVersion records .completed +
    unitCount contractVersion records .failed + unitCount contractVersion records .cancelled +
      unitCount contractVersion records .unanalysed = (unitNames records).length := by
  have hnodup : [UnitOutcome.completed, .failed, .cancelled, .unanalysed].Nodup := by decide
  have hall (unit : String ×ₗ String) (_ : unit ∈ unitNames records) :
      (unitOutcome contractVersion (unitRows records unit)).1 ∈
        [UnitOutcome.completed, .failed, .cancelled, .unanalysed] := by
    cases (unitOutcome contractVersion (unitRows records unit)).1 <;> decide
  have hsum := Counting.countP_sum _ hnodup hall
  simpa [unitCount, add_assoc] using hsum

variable {records}

/-- The counters do not depend on the order of the records. -/
theorem aggregateAnalysisCoverage_perm {records' : List AnalysisUnitLedgerRecord}
    (hperm : records.Perm records') :
    (aggregateAnalysisCoverage contractVersion planId inputDigest records).counts =
      (aggregateAnalysisCoverage contractVersion planId inputDigest records').counts := by
  have hnames : (unitNames records).Perm (unitNames records') := (hperm.map unitOf).dedup
  have hrows (unit : String ×ₗ String) : (unitRows records unit).Perm (unitRows records' unit) :=
    hperm.filter _
  have hcount (outcome : UnitOutcome) : unitCount contractVersion records outcome =
      unitCount contractVersion records' outcome := by
    unfold unitCount
    simp only [unitOutcome_perm (hrows _)]
    exact hnames.countP_eq _
  have hsemantic : (unitNames records).countP
      (fun unit => isSemanticComplete contractVersion (unitRows records unit)) =
        (unitNames records').countP
          fun unit => isSemanticComplete contractVersion (unitRows records' unit) := by
    unfold isSemanticComplete
    simp only [unitOutcome_perm (hrows _), (hrows _).any_eq]
    exact hnames.countP_eq _
  rw [aggregateAnalysisCoverage_counts, aggregateAnalysisCoverage_counts, hnames.length_eq,
    hcount, hcount, hcount, hcount, hsemantic]

end Aggregate

/-! ### The contract of the aggregate -/

/-- The aggregate counts every unit once, does not depend on the order of the records, and counts a
unit of the second contract as completed when its stages join under one fingerprint. -/
structure AggregateExact (contractVersion : String) (planId inputDigest : Option String)
    (records : List AnalysisUnitLedgerRecord) : Prop where
  counts : (aggregateAnalysisCoverage contractVersion planId inputDigest records).counts =
    [(unitNames records).length, unitCount contractVersion records .completed,
      unitCount contractVersion records .failed, unitCount contractVersion records .unanalysed,
      unitCount contractVersion records .cancelled,
      (unitNames records).countP fun unit =>
        isSemanticComplete contractVersion (unitRows records unit)]
  total : unitCount contractVersion records .completed +
    unitCount contractVersion records .failed + unitCount contractVersion records .cancelled +
      unitCount contractVersion records .unanalysed = (unitNames records).length
  order : ∀ records', records.Perm records' →
    (aggregateAnalysisCoverage contractVersion planId inputDigest records).counts =
      (aggregateAnalysisCoverage contractVersion planId inputDigest records').counts ∧
    (aggregateAnalysisCoverage contractVersion planId inputDigest records).complete =
      (aggregateAnalysisCoverage contractVersion planId inputDigest records').complete
  completed : ∀ unit,
    (∃ row ∈ unitRows records unit, row.contractVersion = "depgraph-analysis-unit-v2") →
      ((unitOutcome contractVersion (unitRows records unit)).1 = .completed ↔
        CompleteUnit (unitRows records unit) ∧
          ∃ fingerprint, BoundTo fingerprint (unitRows records unit))

/-- **The aggregate is exact when no unit joins while a syntax row lacks the fingerprint.** -/
theorem aggregateExact_iff (contractVersion : String) (planId inputDigest : Option String)
    (records : List AnalysisUnitLedgerRecord) :
    AggregateExact contractVersion planId inputDigest records ↔
      ∀ unit, CompleteUnit (unitRows records unit) →
        (∃ fingerprint, LooselyBoundTo fingerprint (unitRows records unit)) →
          ∀ row ∈ unitRows records unit, row.stage = "syntax" → row.contextFingerprint ≠ none := by
  constructor
  · intro hexact unit hcomplete hloose row hrow _ hnone
    have hv2 : ∃ row ∈ unitRows records unit,
        row.contractVersion = "depgraph-analysis-unit-v2" :=
      ⟨row, hrow, hcomplete.contract row hrow⟩
    obtain ⟨-, fingerprint, hbound⟩ :=
      (hexact.completed unit hv2).1 ((unitOutcome_completed_iff hv2).2 ⟨hcomplete, hloose⟩)
    exact absurd ((hbound row hrow).symm.trans hnone) (Option.some_ne_none _)
  · intro hcarried
    refine
      { counts := aggregateAnalysisCoverage_counts contractVersion planId inputDigest records
        total := unitCount_sum contractVersion records
        order := fun records' hperm => ?_
        completed := fun unit hv2 => ?_ }
    · have hcounts := aggregateAnalysisCoverage_perm contractVersion planId inputDigest hperm
      refine ⟨hcounts, ?_⟩
      simp only [AnalysisCoverageSummary.counts, List.cons.injEq] at hcounts
      rw [aggregateAnalysisCoverage_complete, aggregateAnalysisCoverage_complete, hcounts.1,
        hcounts.2.1]
    · rw [unitOutcome_completed_iff hv2]
      refine and_congr_right fun hcomplete => ⟨?_, ?_⟩
      · rintro ⟨fingerprint, hloose⟩
        refine ⟨fingerprint, fun row hrow => (hloose row hrow).resolve_right ?_⟩
        rintro ⟨hstage, hnone⟩
        exact hcarried unit hcomplete ⟨fingerprint, hloose⟩ row hrow hstage hnone
      · rintro ⟨fingerprint, hbound⟩
        exact ⟨fingerprint, fun row hrow => .inl (hbound row hrow)⟩

namespace CoverageSample

/-- A row of a unit with one source and one chunk in each stage. -/
def row (stage : String) (contextFingerprint : Option String) : AnalysisUnitLedgerRecord where
  contractVersion := "depgraph-analysis-unit-v2"
  unitId := "unit"
  adapter := "web"
  unitRoot := "app"
  stage := stage
  chunkId := "chunk"
  chunkIndex := some 0
  chunkCount := some 1
  status := "completed"
  sourcePaths := ["app/a.ts"]
  contextPaths := ["app/a.ts"]
  contextFingerprint := contextFingerprint
  unknownDependencies := false

/-- The syntax row carries no fingerprint. -/
def records : List AnalysisUnitLedgerRecord := [row "syntax" none, row "semantic" (some "context")]

end CoverageSample

/-- A unit is counted as completed although its syntax row is bound to no context. -/
theorem aggregateExact_fails :
    (aggregateAnalysisCoverage "depgraph-analysis-unit-v2" none none
        CoverageSample.records).complete = true ∧
      ¬ AggregateExact "depgraph-analysis-unit-v2" none none CoverageSample.records := by
  constructor
  · decide +kernel
  · intro h
    have hrows : unitRows CoverageSample.records (toLex ("unit", "app")) =
        CoverageSample.records := rfl
    have hcounted := (h.completed (toLex ("unit", "app")) (by
      rw [hrows]
      exact ⟨_, List.mem_cons_self, rfl⟩)).1 (by decide +kernel)
    obtain ⟨-, fingerprint, hbound⟩ := hcounted
    rw [hrows] at hbound
    have hnone := hbound _ List.mem_cons_self
    cases hnone

end Store
