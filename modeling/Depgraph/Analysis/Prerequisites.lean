import Depgraph.Library.Fallible
import Depgraph.Library.Grouping

/-!
# Prerequisites of the analysis stages

A later stage of a unit waits for the last chunk of the earlier stages. `stage_prerequisites` finds
the place of that chunk in the work list, and refuses a list where it does not come first.

## Main results

* `prerequisite_spec`: a waiting item waits for every chunk of an earlier stage of its unit.
-/

namespace Analysis

open Fallible OrderedMap

/-- The members of a request that the executor reads. -/
structure UnitRequest where
  unitId : Option String
  stage : Option String
deriving DecidableEq

/-- `AnalysisWorkItem`, with the adapter of its worker. -/
structure AnalysisWorkItem where
  unitId : String
  adapter : String
  request : Option UnitRequest
deriving DecidableEq

/-- The unit and the stage that a request names. -/
def AnalysisWorkItem.unitStage (item : AnalysisWorkItem) : Option (String ×ₗ String) := do
  let request ← item.request
  let unit ← request.unitId
  let stage ← request.stage
  return toLex (unit, stage)

/-- A turn of the first loop: the last place of a stage of a unit. -/
def recordLast (last : Std.ExtTreeMap (String ×ₗ String) Nat) (entry : AnalysisWorkItem × Nat) :
    Std.ExtTreeMap (String ×ₗ String) Nat :=
  match entry.1.unitStage with
  | some key => last.insert key entry.2
  | none => last

/-- The stages that come before a stage. -/
def priorStages (stage : Option String) : List String :=
  if stage = some "typed" then ["syntax"]
  else if stage = some "semantic" then ["syntax", "typed"]
  else []

/-- The place that an item waits for. -/
def prerequisite (last : Std.ExtTreeMap (String ×ₗ String) Nat) (entry : AnalysisWorkItem × Nat) :
    Except String (Option Nat) :=
  match entry.1.request with
  | none => .ok none
  | some request => do
    let unit := request.unitId.getD ""
    let previous := ((priorStages request.stage).filterMap fun stage =>
      last[toLex (unit, stage)]?).max?
    check (∀ place ∈ previous, place < entry.2)
      "analysis schedule has an out-of-order stage prerequisite"
    return previous

def stagePrerequisites (work : List AnalysisWorkItem) : Except String (List (Option Nat)) :=
  work.zipIdx.mapM (prerequisite (work.zipIdx.foldl recordLast ∅))

/-! ### Which chunks an item waits for -/

/-- `before` is a chunk of an earlier stage of the unit of `item`. -/
structure StageBefore (before item : AnalysisWorkItem) : Prop where
  chunk : ∃ unit stage previous, item.request = some ⟨some unit, some stage⟩ ∧
    before.request = some ⟨some unit, some previous⟩ ∧
    (stage = "typed" ∧ previous = "syntax" ∨
      stage = "semantic" ∧ (previous = "syntax" ∨ previous = "typed"))

/-- The recorded place of a stage is not before any of its chunks. -/
theorem foldl_recordLast {entries : List (AnalysisWorkItem × Nat)}
    (hsorted : entries.Pairwise fun a b => a.2 < b.2) {entry : AnalysisWorkItem × Nat}
    (hmem : entry ∈ entries) {key : String ×ₗ String} (hkey : entry.1.unitStage = some key) :
    ∃ recorded, (entries.foldl recordLast ∅)[key]? = some recorded ∧ entry.2 ≤ recorded := by
  induction entries using List.reverseRecOn with
  | nil => cases hmem
  | append_singleton entries latest ih =>
    rw [List.pairwise_append] at hsorted
    obtain ⟨hsorted, -, hlatest⟩ := hsorted
    rw [List.foldl_append, List.foldl_cons, List.foldl_nil]
    obtain hmem | hmem := List.mem_append.1 hmem
    · obtain ⟨recorded, hrecorded, hle⟩ := ih hsorted hmem
      unfold recordLast
      cases hnew : latest.1.unitStage with
      | none => exact ⟨recorded, hrecorded, hle⟩
      | some other =>
        dsimp only
        rw [getElem?_insert]
        by_cases hother : key = other
        · rw [if_pos hother]
          exact ⟨latest.2, rfl, le_of_lt (hlatest entry hmem latest List.mem_cons_self)⟩
        · rw [if_neg hother]
          exact ⟨recorded, hrecorded, hle⟩
    · obtain rfl := List.mem_singleton.1 hmem
      rw [recordLast, hkey]
      dsimp only
      rw [getElem?_insert, if_pos rfl]
      exact ⟨entry.2, rfl, le_rfl⟩

theorem zipIdx_sorted {α : Type} (l : List α) (n : Nat) :
    (l.zipIdx n).Pairwise fun a b => a.2 < b.2 := by
  have hrange : ((l.zipIdx n).map Prod.snd).Pairwise (· < ·) := by
    rw [List.zipIdx_map_snd]
    exact List.pairwise_lt_range'
  exact List.pairwise_map.1 hrange

/-- **An item waits for every chunk of an earlier stage of its unit**, and for none behind it. -/
theorem prerequisite_spec {work : List AnalysisWorkItem} {prerequisites : List (Option Nat)}
    (h : stagePrerequisites work = .ok prerequisites) {index : Nat} {item : AnalysisWorkItem}
    (hitem : work[index]? = some item) :
    ∃ previous, prerequisites[index]? = some previous ∧ (∀ place ∈ previous, place < index) ∧
      ∀ place before, work[place]? = some before → StageBefore before item →
        ∃ last ∈ previous, place ≤ last := by
  have hentry : work.zipIdx[index]? = some (item, index) := by
    rw [List.getElem?_zipIdx, hitem]
    simp
  obtain ⟨previous, hprevious, hfound⟩ := getElem?_of_mapM h hentry
  refine ⟨previous, hprevious, ?_⟩
  unfold prerequisite at hfound
  cases hrequest : item.request with
  | none =>
    rw [hrequest] at hfound
    obtain rfl := Except.ok.inj hfound
    refine ⟨fun place hplace => absurd hplace (Option.not_mem_none place),
      fun place before _ hbefore => ?_⟩
    obtain ⟨unit, stage, earlier, hitem, -, -⟩ := hbefore.chunk
    exact absurd (hrequest.symm.trans hitem) (Option.some_ne_none _).symm
  | some request =>
    rw [hrequest] at hfound
    dsimp only at hfound
    simp only [bind_eq_ok, check_eq_ok, exists_const] at hfound
    obtain ⟨hplaces, hprev⟩ := hfound
    obtain rfl := Except.ok.inj hprev
    refine ⟨hplaces, fun place before hplace hbefore => ?_⟩
    obtain ⟨unit, stage, earlier, hitem, hother, hstages⟩ := hbefore.chunk
    obtain rfl := Option.some.inj (hrequest.symm.trans hitem)
    have hkey : before.unitStage = some (toLex (unit, earlier)) := by
      rw [AnalysisWorkItem.unitStage, hother]
      rfl
    have hchunk : (before, place) ∈ work.zipIdx := by
      rw [List.mk_mem_zipIdx_iff_getElem?]
      exact hplace
    obtain ⟨recorded, hrecorded, hle⟩ := foldl_recordLast (zipIdx_sorted work 0) hchunk hkey
    have hprior : earlier ∈ priorStages (some stage) := by
      rcases hstages with ⟨rfl, rfl⟩ | ⟨rfl, rfl | rfl⟩ <;> decide
    have hmem : recorded ∈ (priorStages (some stage)).filterMap fun stage =>
        (work.zipIdx.foldl recordLast ∅)[toLex (unit, stage)]? :=
      List.mem_filterMap.2 ⟨earlier, hprior, hrecorded⟩
    cases hmax : ((priorStages (some stage)).filterMap fun stage =>
        (work.zipIdx.foldl recordLast ∅)[toLex (unit, stage)]?).max? with
    | none =>
      rw [List.max?_eq_none_iff] at hmax
      exact absurd hmax (List.ne_nil_of_mem hmem)
    | some last =>
      refine ⟨last, hmax, hle.trans ?_⟩
      exact (List.max?_eq_some_iff.1 hmax).2 recorded hmem

end Analysis
