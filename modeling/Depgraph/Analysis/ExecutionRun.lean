import Depgraph.Analysis.ExecutionOrder

/-!
# Runs of the executor

## Main results

* `execution_scheduled`: what holds after any choices, and how many steps a run has at most.
-/

namespace Analysis

open OrderedMap ChoiceRun

variable {E : Type} {limit : Nat} {prerequisites : List (Option Nat)}
variable {work : List AnalysisWorkItem} {started : Nat} {s s' : Executor E} {choice : Choice E}

/-! ### The statuses of the units -/

/-- A unit that is counted. -/
def AnalysisUnitProgress.isCounted (unit : AnalysisUnitProgress) : Prop :=
  unit.status ∈ ["completed", "failed", "cancelled"]

/-- The consumed units are counted. -/
structure Counted (work : List AnalysisWorkItem) (s : Executor E) : Prop where
  length : s.units.length = work.length
  consumed : ∀ index < s.nextIngest, ∀ unit ∈ s.units[index]?, unit.isCounted

/-- A unit keeps its progress while another one changes. -/
theorem getElem?_modify_of_ne {units : List AnalysisUnitProgress} {index other : Nat}
    {change : AnalysisUnitProgress → AnalysisUnitProgress} (h : other ≠ index) :
    (units.modify other change)[index]? = units[index]? := by
  rw [List.getElem?_modify]
  simp [h]

theorem isCounted_ingested (unit : AnalysisUnitProgress) (entry : ReadyOutput E)
    (cancelled complete : Bool) : (unit.ingested entry cancelled complete).isCounted := by
  unfold AnalysisUnitProgress.isCounted AnalysisUnitProgress.ingested
  cases cancelled <;> cases complete <;> simp

theorem counted_initial (work : List AnalysisWorkItem) :
    Counted work (Executor.initial E work) where
  length := List.length_map _
  consumed _ h := absurd h (Nat.not_lt_zero _)

/-- A loop that cancels units leaves the number of the units. -/
theorem length_foldl_modify {entries : List (AnalysisWorkItem × Nat)}
    {units : List AnalysisUnitProgress} {change : AnalysisUnitProgress → AnalysisUnitProgress} :
    (entries.foldl (fun units entry => units.modify entry.2 change) units).length =
      units.length := by
  induction entries generalizing units with
  | nil => rfl
  | cons entry entries ih => rw [List.foldl_cons, ih, List.length_modify]

/-- Each unit is cancelled, or left as it was. -/
theorem getElem?_foldl_cancel {entries : List (AnalysisWorkItem × Nat)}
    {units : List AnalysisUnitProgress} {index : Nat} {unit : AnalysisUnitProgress}
    (h : (entries.foldl (fun units entry =>
      units.modify entry.2 fun unit => { unit with status := "cancelled" }) units)[index]? =
        some unit) :
    (units[index]? = some unit ∧ ∀ entry ∈ entries, entry.2 ≠ index) ∨ unit.isCounted := by
  induction entries generalizing units with
  | nil => exact .inl ⟨h, fun entry hentry => absurd hentry List.not_mem_nil⟩
  | cons entry entries ih =>
    rw [List.foldl_cons] at h
    rcases ih h with ⟨hunit, hrest⟩ | hcounted
    · rw [List.getElem?_modify, Option.map_eq_map, Option.map_eq_some_iff] at hunit
      obtain ⟨before, hbefore, heq⟩ := hunit
      by_cases hindex : entry.2 = index
      · rw [if_pos hindex] at heq
        refine .inr ?_
        rw [← heq]
        exact by simp [AnalysisUnitProgress.isCounted]
      · rw [if_neg hindex] at heq
        obtain rfl : before = unit := heq
        exact .inl ⟨hbefore, List.forall_mem_cons.2 ⟨hindex, hrest⟩⟩
    · exact .inr hcounted

/-- Only an ingest moves the pointer, and it counts the unit. -/
theorem Counted.step (h : Counted work s) (hordered : Ordered limit work started s)
    (htaken : Taken limit prerequisites s choice s') : Counted work s' := by
  cases htaken with
  | cancel forBudget live =>
    unfold Executor.cancel
    split_ifs
    · exact h
    · exact ⟨h.length, h.consumed⟩
  | consume complete phase next =>
    cases complete with
    | error error => exact ⟨h.length, h.consumed⟩
    | ok complete =>
      refine ⟨(List.length_modify _ _ _).trans h.length, fun index hindex unit hunit => ?_⟩
      change unit ∈ (s.units.modify s.nextIngest _)[index]? at hunit
      obtain hold | rfl := Nat.lt_succ_iff_lt_or_eq.1 hindex
      · rw [getElem?_modify_of_ne (ne_of_gt hold)] at hunit
        exact h.consumed index hold unit hunit
      · rw [List.getElem?_modify, Option.map_eq_map, Option.mem_def, Option.map_eq_some_iff]
          at hunit
        obtain ⟨before, -, rfl⟩ := hunit
        rw [if_pos rfl]
        exact isCounted_ingested before _ _ _
  | @start front cached phase may next =>
    cases cached with
    | some output => exact ⟨h.length, h.consumed⟩
    | none =>
      refine ⟨(List.length_modify _ _ _).trans h.length, fun index hindex unit hunit => ?_⟩
      have hne : front.2 ≠ index := by
        rw [(hordered.front next).1]
        have hn := hordered.nextIngest_eq (by simp [phase])
        have hle := hordered.consumed_le
        change index < s.nextIngest at hindex
        omega
      change unit ∈ (s.units.modify front.2 _)[index]? at hunit
      rw [getElem?_modify_of_ne hne] at hunit
      exact h.consumed index hindex unit hunit
  | finish result phase wait task_mem => exact ⟨h.length, h.consumed⟩
  | ingested phase wait => exact ⟨h.length, h.consumed⟩
  | dispatched phase full => exact ⟨h.length, h.consumed⟩
  | again phase next => exact ⟨h.length, h.consumed⟩
  | stop phase wait idle =>
    refine ⟨length_foldl_modify.trans h.length, fun index hindex unit hunit => ?_⟩
    rcases getElem?_foldl_cancel hunit with ⟨hbefore, -⟩ | hcounted
    · exact h.consumed index hindex unit hbefore
    · exact hcounted

/-! ### The end of the loop -/

/-- What was started has been consumed when there is nothing to wait for. -/
theorem Ordered.consumed_eq_started (h : Ordered limit work started s) (hphase : s.phase = .join)
    (hwait : s.nextIngest ∉ s.ready) (hidle : s.running = []) : s.consumed.length = started := by
  refine h.consumed_le.eq_of_not_lt fun hlt => ?_
  rw [h.nextIngest_eq (by simp [hphase])] at hwait
  obtain hready | ⟨task, htask, -⟩ := h.covered _ le_rfl hlt
  · exact hwait hready
  · rw [hidle] at htask
    exact absurd htask List.not_mem_nil

/-- Nothing keeps the unit in front from starting when nothing is running and everything before it
has been consumed, unless the scan is cancelled. -/
theorem mayStart_of_idle (hlimit : 1 ≤ limit) (hwork : stagePrerequisites work = .ok prerequisites)
    (h : Ordered limit work started s) (hphase : s.phase = .join)
    (hwait : s.nextIngest ∉ s.ready) (hidle : s.running = []) (hpending : s.pending ≠ [])
    (hcancelled : s.cancelled = false) : s.mayStart limit prerequisites = true := by
  have hall := h.consumed_eq_started hphase hwait hidle
  have hn := h.nextIngest_eq (by simp [hphase])
  have hfront := List.head?_eq_some_head hpending
  obtain ⟨hindex, hitem, -⟩ := h.front hfront
  obtain ⟨previous, hprevious, hplace, -⟩ := prerequisite_spec hwork hitem
  refine (mayStart_spec hfront).2 ⟨?_, hcancelled, by omega, fun place hmem => ?_⟩
  · rw [hidle]
    exact hlimit
  · rw [hindex, hprevious] at hmem
    have hlt := hplace place hmem
    omega

/-- What holds at the end, and the guard that was false before it. -/
structure Ending (limit : Nat) (prerequisites : List (Option Nat)) (work : List AnalysisWorkItem)
    (s : Executor E) : Prop where
  full : s.phase = .join → s.mayStart limit prerequisites = false
  idle : s.phase = .returned (.ok ()) → s.running = [] ∧
    s.consumed.length + s.pending.length = work.length ∧
    (s.cancelled = false → s.pending = []) ∧ ∀ unit ∈ s.units, unit.isCounted

/-- A phase that is neither of the two says nothing about the end. -/
theorem Ending.of_phase (hjoin : s.phase ≠ .join) (hreturned : s.phase ≠ .returned (.ok ())) :
    Ending limit prerequisites work s :=
  ⟨fun h => absurd h hjoin, fun h => absurd h hreturned⟩

/-- Cancelling starts nothing. -/
theorem mayStart_cancel (forBudget : Bool) (h : s.mayStart limit prerequisites = false) :
    (s.cancel forBudget).mayStart limit prerequisites = false := by
  unfold Executor.cancel
  split_ifs
  · exact h
  · simp [Executor.mayStart]

theorem phase_cancel (forBudget : Bool) : (s.cancel forBudget).phase = s.phase := by
  unfold Executor.cancel
  split_ifs <;> rfl

theorem Ending.step (hlimit : 1 ≤ limit) (hwork : stagePrerequisites work = .ok prerequisites)
    (h : Ending limit prerequisites work s) (hordered : Ordered limit work started s)
    (hcounted : Counted work s) (htaken : Taken limit prerequisites s choice s') :
    Ending limit prerequisites work s' := by
  cases htaken with
  | cancel forBudget live =>
    refine ⟨fun hphase => mayStart_cancel forBudget (h.full ?_), fun hphase => ?_⟩
    · rw [← hphase, phase_cancel]
    · rw [phase_cancel] at hphase
      exact absurd hphase (live _)
  | consume complete phase next =>
    cases complete with
    | error error => exact .of_phase (by simp [Executor.ingest]) (by simp [Executor.ingest])
    | ok complete =>
      exact .of_phase (by simp [Executor.ingest, phase]) (by simp [Executor.ingest, phase])
  | start cached phase may next =>
    cases cached with
    | none => exact .of_phase (by simp [Executor.start, phase]) (by simp [Executor.start, phase])
    | some output =>
      exact .of_phase (by simp [Executor.start, phase]) (by simp [Executor.start, phase])
  | finish result phase wait task_mem =>
    exact .of_phase (by simp [Executor.finish]) (by simp [Executor.finish])
  | ingested phase wait => exact .of_phase (by simp) (by simp)
  | dispatched phase full => exact ⟨fun _ => full, fun h => absurd h (by simp)⟩
  | again phase next => exact .of_phase (by simp) (by simp)
  | stop phase wait idle =>
    refine ⟨fun hphase => absurd hphase (by simp [Executor.stop]), fun _ => ?_⟩
    have hall := hordered.consumed_eq_started phase wait idle
    have hn := hordered.nextIngest_eq (by simp [phase])
    refine ⟨idle, ?_, fun hcancelled => ?_, fun unit hunit => ?_⟩
    · change s.consumed.length + s.pending.length = work.length
      rw [hordered.pending, List.length_drop, List.length_zipIdx]
      have hle := hordered.started_le
      omega
    · by_contra hpending
      have hmay := mayStart_of_idle hlimit hwork hordered phase wait idle hpending hcancelled
      exact absurd (hmay.symm.trans (h.full phase)) (by decide)
    · obtain ⟨index, hunit⟩ := List.getElem?_of_mem hunit
      rcases getElem?_foldl_cancel hunit with ⟨hbefore, hother⟩ | hdone
      · -- A unit that was not cancelled here was started, and so it was consumed.
        have hindex : index < work.length := by
          rw [← hcounted.length]
          exact (List.getElem?_eq_some_iff.1 hbefore).1
        refine hcounted.consumed index ?_ unit hbefore
        by_contra hlt
        refine hother (work[index], index) ?_ rfl
        rw [hordered.pending, List.mem_drop_iff_getElem]
        refine ⟨index - started, ?_, ?_⟩
        · rw [List.length_zipIdx]
          omega
        · rw [List.getElem_zipIdx]
          have hadd : started + (index - started) = index := by omega
          simp [hadd]
      · exact hdone

/-! ### Runs -/

/-- The invariant of the runs. -/
structure Kept (limit : Nat) (prerequisites : List (Option Nat)) (work : List AnalysisWorkItem)
    (s : Executor E) : Prop where
  ordered : ∃ started, Ordered limit work started s
  counted : Counted work s
  ending : Ending limit prerequisites work s

theorem kept_initial (limit : Nat) (prerequisites : List (Option Nat))
    (work : List AnalysisWorkItem) :
    Kept limit prerequisites work (Executor.initial E work) where
  ordered := ⟨0, ordered_initial limit work⟩
  counted := counted_initial work
  ending := .of_phase (by simp [Executor.initial]) (by simp [Executor.initial])

theorem Kept.step (hlimit : 1 ≤ limit) (hwork : stagePrerequisites work = .ok prerequisites)
    (h : Kept limit prerequisites work s) (hstep : s.step limit prerequisites choice = some s') :
    Kept limit prerequisites work s' := by
  obtain ⟨started, hordered⟩ := h.ordered
  have htaken := step_taken hstep
  exact ⟨hordered.step htaken, h.counted.step hordered htaken,
    h.ending.step hlimit hwork hordered h.counted htaken⟩

/-- The choices that cost no progress. -/
def Choice.isCancel : Choice E → Bool
  | .cancel _ => true
  | _ => false

/-- What is left to do at a phase: a turn of the loop goes through the three phases, and a turn
without a task is taken only when an output is next in turn. -/
def Executor.phaseWork (s : Executor E) : Nat :=
  match s.phase with
  | .ingest => 3
  | .dispatch => if s.nextIngest ∈ s.ready then 5 else 2
  | .join => if s.nextIngest ∈ s.ready then 4 else 1
  | .returned _ => 0

/-- What is left to do. -/
def Executor.workLeft (s : Executor E) : Nat :=
  6 * s.pending.length + 4 * s.running.length + s.ready.size + s.phaseWork

theorem phaseWork_le (s : Executor E) : s.phaseWork ≤ 5 := by
  unfold Executor.phaseWork
  cases s.phase <;> dsimp only <;> try split_ifs
  all_goals omega

theorem size_erase_lt {index : Nat} (h : index ∈ s.ready) :
    (s.ready.erase index).size < s.ready.size := by
  rw [Std.ExtTreeMap.size_erase, if_pos (Std.ExtTreeMap.mem_iff_contains.1 h)]
  have hpos : 0 < s.ready.size := by
    rw [Nat.pos_iff_ne_zero]
    intro hzero
    rw [Std.ExtTreeMap.eq_empty_iff_size_eq_zero.2 hzero] at h
    exact Std.ExtTreeMap.not_mem_empty h
  omega

/-- Every step but a cancellation leaves less to do. -/
theorem workLeft_lt (htaken : Taken limit prerequisites s choice s')
    (hcancel : choice.isCancel = false) : s'.workLeft < s.workLeft := by
  have hle := phaseWork_le s'
  cases htaken with
  | cancel forBudget live => cases hcancel
  | @consume entry complete phase next =>
    have hsize := size_erase_lt (s := s) (mem_iff.2 ⟨entry, next⟩)
    cases complete with
    | error error =>
      simp only [Executor.workLeft, Executor.phaseWork, Executor.ingest, phase]
      omega
    | ok complete =>
      simp only [Executor.workLeft, Executor.phaseWork, Executor.ingest, phase]
      omega
  | @start front cached phase may next =>
    have hlength : s.pending.tail.length + 1 = s.pending.length := by
      rw [List.length_tail]
      have hpos := List.length_pos_of_ne_nil (List.ne_nil_of_mem (List.mem_of_mem_head? next))
      omega
    cases cached with
    | some output =>
      have hsize := Std.ExtTreeMap.size_insert_le (t := s.ready) (k := front.2)
        (v := ⟨front.1.unitId, output, true⟩)
      have hphase : 2 ≤ s.phaseWork := by
        unfold Executor.phaseWork
        rw [phase]
        dsimp only
        split_ifs <;> omega
      simp only [Executor.workLeft] at hle ⊢
      simp only [Executor.start] at hle ⊢
      omega
    | none =>
      have hphase : (s.start front none).phaseWork = s.phaseWork := rfl
      simp only [Executor.workLeft, hphase]
      simp only [Executor.start, List.length_append, List.length_singleton]
      omega
  | @finish task result phase wait task_mem =>
    have hsize := Std.ExtTreeMap.size_insert_le (t := s.ready) (k := task.2)
      (v := ⟨task.1.unitId, taskOutput task.1.adapter result, false⟩)
    have hlength : (s.running.filter fun other => other.2 ≠ task.2).length < s.running.length :=
      List.length_filter_lt_length_iff_exists.2 ⟨task, task_mem, by simp⟩
    have hphase : s.phaseWork = 1 := by
      rw [Executor.phaseWork, phase]
      exact if_neg wait
    simp only [Executor.workLeft, hphase]
    simp only [Executor.finish, Executor.phaseWork]
    omega
  | ingested phase wait =>
    simp only [Executor.workLeft, Executor.phaseWork, phase, if_neg wait]
    omega
  | dispatched phase full =>
    simp only [Executor.workLeft, Executor.phaseWork, phase]
    split_ifs <;> omega
  | again phase next =>
    simp only [Executor.workLeft, Executor.phaseWork, phase, if_pos next]
    omega
  | stop phase wait idle =>
    simp only [Executor.workLeft, Executor.phaseWork, Executor.stop, phase, if_neg wait]
    omega

theorem workLeft_cancel (forBudget : Bool) : (s.cancel forBudget).workLeft = s.workLeft := by
  unfold Executor.cancel
  split_ifs <;> rfl

/-! ### What every run keeps -/

/-- What holds of the executor in every state of a run. -/
structure Scheduled (limit : Nat) (prerequisites : List (Option Nat))
    (work : List AnalysisWorkItem) (s : Executor E) : Prop where
  /-- The outputs are consumed in the order of the work list, none twice, none skipped. -/
  calls : s.consumed.map (·.index) = List.range s.consumed.length
  /-- What is consumed for a unit is the output that was delivered for it. -/
  outputs : ∀ call ∈ s.consumed, (∃ item, work[call.index]? = some item ∧
    call.unitId = item.unitId) ∧ (call.index, call.output) ∈ s.delivered
  delivered : (s.delivered.map Prod.fst).Nodup
  running_le : s.running.length ≤ limit
  buffered_le : s.running.length + s.ready.size ≤ limit
  window : ∀ index ∈ s.ready, s.consumed.length ≤ index ∧ index < s.consumed.length + limit
  /-- A unit starts when all chunks of the earlier stages of its unit have been consumed. -/
  stages : ∀ cached s', s.step limit prerequisites (.start cached) = some s' →
    ∃ front, s.pending.head? = some front ∧ ∀ place before, work[place]? = some before →
      StageBefore before front.1 → place ∈ s.consumed.map (·.index)
  /-- There is always a step to take but a cancellation. -/
  live : (∀ result, s.phase ≠ .returned result) →
    ∃ choice, choice.isCancel = false ∧ (s.step limit prerequisites choice).isSome
  /-- Any running task may be the one that ends next. -/
  anyOrder : s.phase = .join → s.nextIngest ∉ s.ready → ∀ task ∈ s.running, ∀ result,
    (s.step limit prerequisites (.finish task.2 result)).isSome
  /-- The loop does not end while units wait to be started, unless it is cancelled. -/
  moving : s.phase = .join → s.pending ≠ [] → s.cancelled = false →
    s.nextIngest ∈ s.ready ∨ s.running ≠ []
  /-- At the end every output has been consumed once, and every unit is counted. -/
  done : s.phase = .returned (.ok ()) → s.running = [] ∧
    (s.consumed.map fun call => (call.index, call.output)).Perm s.delivered ∧
    s.consumed.length + s.pending.length = work.length ∧ (s.cancelled = false → s.pending = []) ∧
    s.units.length = work.length ∧ ∀ unit ∈ s.units, unit.isCounted

/-- There is always a step to take. -/
theorem exists_step (hphase : ∀ result, s.phase ≠ .returned result) :
    ∃ choice, choice.isCancel = false ∧ (s.step limit prerequisites choice).isSome := by
  cases hs : s.phase with
  | ingest =>
    by_cases hready : s.nextIngest ∈ s.ready
    · obtain ⟨entry, hentry⟩ := mem_iff.1 hready
      exact ⟨.consume (.ok true), rfl, by simp [Executor.step, hs, hentry]⟩
    · exact ⟨.proceed, rfl, by simp [Executor.step, hs, hready]⟩
  | dispatch =>
    cases hmay : s.mayStart limit prerequisites with
    | true =>
      have hhead : s.pending.head?.isSome := by
        rw [Executor.mayStart, Bool.and_eq_true, Option.any_eq_true] at hmay
        obtain ⟨-, front, hfront, -⟩ := hmay
        rw [hfront]
        rfl
      exact ⟨.start none, rfl, by simpa [Executor.step, hs, hmay] using hhead⟩
    | false => exact ⟨.proceed, rfl, by simp [Executor.step, hs, hmay]⟩
  | join =>
    by_cases hready : s.nextIngest ∈ s.ready
    · exact ⟨.proceed, rfl, by simp [Executor.step, hs, hready]⟩
    · by_cases hidle : s.running = []
      · exact ⟨.proceed, rfl, by simp [Executor.step, hs, hready, hidle]⟩
      · obtain ⟨task, htask⟩ := List.exists_mem_of_ne_nil _ hidle
        refine ⟨.finish task.2 (.error ⟨"", true⟩), rfl, ?_⟩
        simp only [Executor.step, hs, if_neg hready, Option.isSome_map, List.find?_isSome]
        exact ⟨task, htask, by simp⟩
  | returned result => exact absurd hs (hphase result)

/-- At the end the calls are the deliveries. -/
theorem Ordered.calls_perm (h : Ordered limit work started s)
    (hall : s.consumed.length = started) :
    (s.consumed.map fun call => (call.index, call.output)).Perm s.delivered := by
  have hfst : (s.consumed.map fun call => (call.index, call.output)).map Prod.fst =
      List.range s.consumed.length := by
    rw [List.map_map, ← h.calls]
    rfl
  have hnodup : (s.consumed.map fun call => (call.index, call.output)).Nodup :=
    List.Nodup.of_map Prod.fst (hfst ▸ List.nodup_range)
  refine (List.perm_ext_iff_of_nodup hnodup (List.Nodup.of_map _ h.delivered_nodup)).2 ?_
  intro delivery
  rw [List.mem_map]
  constructor
  · rintro ⟨call, hcall, rfl⟩
    exact (h.outputs call hcall).2
  · intro hdelivery
    have hlt := (h.delivered delivery hdelivery).1
    rw [← hall, ← List.mem_range, ← h.calls, List.mem_map] at hlt
    obtain ⟨call, hcall, hindex⟩ := hlt
    refine ⟨call, hcall, ?_⟩
    have hdone := (h.outputs call hcall).2
    exact List.inj_on_of_nodup_map h.delivered_nodup hdone hdelivery hindex

theorem Kept.scheduled (hlimit : 1 ≤ limit) (hwork : stagePrerequisites work = .ok prerequisites)
    (h : Kept limit prerequisites work s) : Scheduled limit prerequisites work s := by
  obtain ⟨started, hordered⟩ := h.ordered
  refine
    { calls := hordered.calls
      outputs := hordered.outputs
      delivered := hordered.delivered_nodup
      running_le := hordered.running_le
      buffered_le := hordered.buffered_le
      window := fun index hindex => ?_
      stages := fun cached s' hstep => ?_
      live := exists_step
      anyOrder := fun hphase hwait task htask result => ?_
      moving := fun hphase hpending hcancelled => ?_
      done := fun hphase => ?_ }
  · obtain ⟨entry, hentry⟩ := mem_iff.1 hindex
    obtain ⟨hle, hlt, -⟩ := hordered.ready index entry hentry
    exact ⟨hle, hlt.trans_le hordered.window⟩
  · cases step_taken hstep with
    | @start front cached phase may next =>
      obtain ⟨-, -, -, hprevious⟩ := (mayStart_spec next).1 may
      obtain ⟨hindex, hitem, -⟩ := hordered.front next
      refine ⟨front, next, fun place before hplace hbefore => ?_⟩
      obtain ⟨previous, hfound, -, hchunks⟩ := prerequisite_spec hwork hitem
      obtain ⟨last, hlast, hle⟩ := hchunks place before hplace hbefore
      rw [hindex, hfound] at hprevious
      rw [hordered.calls, List.mem_range, ← hordered.nextIngest_eq (by simp [phase])]
      exact hle.trans_lt (hprevious last hlast)
  · simp only [Executor.step, hphase, if_neg hwait, Option.isSome_map, List.find?_isSome]
    exact ⟨task, htask, by simp⟩
  · by_contra hnone
    rw [not_or, not_not] at hnone
    have hmay := mayStart_of_idle hlimit hwork hordered hphase hnone.1 hnone.2 hpending hcancelled
    exact absurd (hmay.symm.trans (h.ending.full hphase)) (by decide)
  · obtain ⟨hidle, htotal, hpending, hcounted⟩ := h.ending.idle hphase
    refine ⟨hidle, hordered.calls_perm ?_, htotal, hpending, h.counted.length, hcounted⟩
    rw [hordered.pending, List.length_drop, List.length_zipIdx] at htotal
    have hle := hordered.started_le
    omega

/-- **The executor keeps its schedule.** After any choices of what finishes when, what a checkpoint
answers and when the scan is cancelled, the outputs have been consumed in order and the window and
the stages have been respected; and a run is never longer than its work. -/
theorem execution_scheduled (hlimit : 1 ≤ limit)
    (hwork : stagePrerequisites work = .ok prerequisites) (choices : List (Choice E))
    (hrun : run (Executor.step limit prerequisites) (Executor.initial E work) choices = some s) :
    Scheduled limit prerequisites work s ∧
      (choices.countP fun choice => !choice.isCancel) ≤ 6 * work.length + 3 := by
  have hkept := kept_initial (E := E) limit prerequisites work
  refine ⟨(run_invariant (fun _ _ _ hstep h => h.step hlimit hwork hstep) hrun
    hkept).scheduled hlimit hwork, ?_⟩
  have hbound := run_measure Choice.isCancel Executor.workLeft
    (fun _ _ _ hstep h => Kept.step hlimit hwork h hstep)
    (fun s choice s' hstep _ hfree => ?_)
    (fun _ _ _ hstep _ hcancel => workLeft_lt (step_taken hstep) hcancel) hrun hkept
  · have hinitial : (Executor.initial E work).workLeft = 6 * work.length + 3 := by
      simp [Executor.workLeft, Executor.phaseWork, Executor.initial]
    omega
  · cases step_taken hstep with
    | cancel forBudget live => exact (workLeft_cancel forBudget).le
    | _ => cases hfree

namespace ExecutorSample

/-- An item of a unit with two stages. -/
def item (stage : String) : AnalysisWorkItem where
  unitId := "unit"
  adapter := "go"
  request := some ⟨some "unit", some stage⟩

def twoStages : List AnalysisWorkItem := [item "syntax", item "semantic"]

def output : WorkerOutput Unit where
  adapter := "go"
  events := []
  error := none
  failureKind := none
  securityViolation := false

/-- The syntax stage runs, and a checkpoint answers for the semantic one. -/
def choices : List (Choice Unit) :=
  [.proceed, .start none, .proceed, .finish 0 (.ok output), .consume (.ok true), .proceed,
    .start (some output), .proceed, .proceed, .consume (.ok true), .cancel false, .proceed,
    .proceed, .proceed]

end ExecutorSample

/-- A run of two stages with two workers. -/
theorem execution_scheduled_sample :
    ∃ s, run (Executor.step 2 [none, some 0]) (Executor.initial Unit ExecutorSample.twoStages)
        ExecutorSample.choices = some s ∧ Scheduled 2 [none, some 0] ExecutorSample.twoStages s := by
  have hrun : (run (Executor.step 2 [none, some 0])
      (Executor.initial Unit ExecutorSample.twoStages) ExecutorSample.choices).isSome = true := by
    decide +kernel
  obtain ⟨s, hs⟩ := Option.isSome_iff_exists.1 hrun
  exact ⟨s, hs, (execution_scheduled (by decide) (by decide +kernel) _ hs).1⟩

end Analysis
