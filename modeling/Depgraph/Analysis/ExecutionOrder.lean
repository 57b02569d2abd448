import Depgraph.Analysis.Execution
import Mathlib.Data.List.Perm.Subperm

/-!
# The order of the executor

What a step of the executor may do (`Taken`), and what all of its steps keep (`Ordered`): the
outputs are consumed in the order of the work list, and no unit runs ahead of the window.
-/

namespace Analysis

open OrderedMap

variable {E : Type} {limit : Nat} {prerequisites : List (Option Nat)}

/-! ### Steps -/

/-- The steps of the executor. -/
inductive Taken (limit : Nat) (prerequisites : List (Option Nat)) (s : Executor E) :
    Choice E → Executor E → Prop
  | cancel (forBudget : Bool) (live : ∀ result, s.phase ≠ .returned result) :
    Taken limit prerequisites s (.cancel forBudget) (s.cancel forBudget)
  | consume {entry : ReadyOutput E} (complete : Except String Bool) (phase : s.phase = .ingest)
    (next : s.ready[s.nextIngest]? = some entry) :
    Taken limit prerequisites s (.consume complete) (s.ingest entry complete)
  | start {front : AnalysisWorkItem × Nat} (cached : Option (WorkerOutput E))
    (phase : s.phase = .dispatch) (may : s.mayStart limit prerequisites = true)
    (next : s.pending.head? = some front) :
    Taken limit prerequisites s (.start cached) (s.start front cached)
  | finish {task : AnalysisWorkItem × Nat} (result : Except JoinError (WorkerOutput E))
    (phase : s.phase = .join) (wait : s.nextIngest ∉ s.ready) (task_mem : task ∈ s.running) :
    Taken limit prerequisites s (.finish task.2 result) (s.finish task result)
  | ingested (phase : s.phase = .ingest) (wait : s.nextIngest ∉ s.ready) :
    Taken limit prerequisites s .proceed { s with phase := .dispatch }
  | dispatched (phase : s.phase = .dispatch) (full : s.mayStart limit prerequisites = false) :
    Taken limit prerequisites s .proceed { s with phase := .join }
  | again (phase : s.phase = .join) (next : s.nextIngest ∈ s.ready) :
    Taken limit prerequisites s .proceed { s with phase := .ingest }
  | stop (phase : s.phase = .join) (wait : s.nextIngest ∉ s.ready) (idle : s.running = []) :
    Taken limit prerequisites s .proceed s.stop

/-- Everything that a step can do. -/
theorem step_taken {s s' : Executor E} {choice : Choice E}
    (h : s.step limit prerequisites choice = some s') : Taken limit prerequisites s choice s' := by
  unfold Executor.step at h
  cases choice with
  | cancel forBudget =>
    cases hphase : s.phase with
    | returned result => simp [hphase] at h
    | ingest =>
      rw [hphase] at h
      exact Option.some.inj h ▸ .cancel forBudget (by simp [hphase])
    | dispatch =>
      rw [hphase] at h
      exact Option.some.inj h ▸ .cancel forBudget (by simp [hphase])
    | join =>
      rw [hphase] at h
      exact Option.some.inj h ▸ .cancel forBudget (by simp [hphase])
  | consume complete =>
    cases hphase : s.phase with
    | ingest =>
      rw [hphase] at h
      obtain ⟨entry, hentry, rfl⟩ := Option.map_eq_some_iff.1 h
      exact .consume complete hphase hentry
    | dispatch => simp [hphase] at h
    | join => simp [hphase] at h
    | returned result => simp [hphase] at h
  | start cached =>
    cases hphase : s.phase with
    | dispatch =>
      rw [hphase] at h
      dsimp only at h
      split_ifs at h with hmay
      obtain ⟨front, hfront, rfl⟩ := Option.map_eq_some_iff.1 h
      exact .start cached hphase hmay hfront
    | ingest => simp [hphase] at h
    | join => simp [hphase] at h
    | returned result => simp [hphase] at h
  | finish index result =>
    cases hphase : s.phase with
    | join =>
      rw [hphase] at h
      dsimp only at h
      split_ifs at h with hready
      obtain ⟨task, htask, rfl⟩ := Option.map_eq_some_iff.1 h
      have hfound := List.find?_some htask
      obtain rfl : task.2 = index := of_decide_eq_true hfound
      exact .finish result hphase hready (List.mem_of_find?_eq_some htask)
    | ingest => simp [hphase] at h
    | dispatch => simp [hphase] at h
    | returned result => simp [hphase] at h
  | proceed =>
    cases hphase : s.phase with
    | ingest =>
      rw [hphase] at h
      dsimp only at h
      split_ifs at h with hready
      exact Option.some.inj h ▸ .ingested hphase hready
    | dispatch =>
      rw [hphase] at h
      dsimp only at h
      split_ifs at h with hmay
      exact Option.some.inj h ▸ .dispatched hphase (Bool.eq_false_of_not_eq_true hmay)
    | join =>
      rw [hphase] at h
      dsimp only at h
      split_ifs at h with hready hidle
      · exact Option.some.inj h ▸ .again hphase hready
      · exact Option.some.inj h ▸ .stop hphase hready hidle
    | returned result => simp [hphase] at h

/-! ### The invariant -/

/-- The work list before `started` has been started. Of it, the outputs before the number of the
calls have been consumed, and each other unit is running or its output waits. -/
structure Ordered (limit : Nat) (work : List AnalysisWorkItem) (started : Nat)
    (s : Executor E) : Prop where
  pending : s.pending = work.zipIdx.drop started
  started_le : started ≤ work.length
  consumed_le : s.consumed.length ≤ started
  window : started ≤ s.consumed.length + limit
  pointer : s.nextIngest = s.consumed.length ∨
    ∃ error, s.phase = .returned (.error error) ∧ s.nextIngest < s.consumed.length
  running : ∀ task ∈ s.running, work[task.2]? = some task.1 ∧ s.consumed.length ≤ task.2 ∧
    task.2 < started ∧ task.2 ∉ s.ready
  running_nodup : (s.running.map Prod.snd).Nodup
  running_le : s.running.length ≤ limit
  ready : ∀ index entry, s.ready[index]? = some entry → s.consumed.length ≤ index ∧
    index < started ∧ (∃ item, work[index]? = some item ∧ entry.unitId = item.unitId) ∧
      (index, entry.output) ∈ s.delivered
  covered : ∀ index, s.consumed.length ≤ index → index < started →
    index ∈ s.ready ∨ ∃ task ∈ s.running, task.2 = index
  calls : s.consumed.map (·.index) = List.range s.consumed.length
  outputs : ∀ call ∈ s.consumed, (∃ item, work[call.index]? = some item ∧
    call.unitId = item.unitId) ∧ (call.index, call.output) ∈ s.delivered
  delivered : ∀ delivery ∈ s.delivered, delivery.1 < started ∧
    ∀ task ∈ s.running, task.2 ≠ delivery.1
  delivered_nodup : (s.delivered.map Prod.fst).Nodup

theorem ordered_initial (limit : Nat) (work : List AnalysisWorkItem) :
    Ordered limit work 0 (Executor.initial E work) where
  pending := rfl
  started_le := Nat.zero_le _
  consumed_le := le_rfl
  window := Nat.zero_le _
  pointer := .inl rfl
  running task h := absurd h List.not_mem_nil
  running_nodup := List.nodup_nil
  running_le := Nat.zero_le _
  ready index entry h := absurd h (by simp [Executor.initial])
  covered index _ h := absurd h (Nat.not_lt_zero _)
  calls := rfl
  outputs call h := absurd h List.not_mem_nil
  delivered delivery h := absurd h List.not_mem_nil
  delivered_nodup := List.nodup_nil

section Steps

variable {work : List AnalysisWorkItem} {started : Nat} {s : Executor E}

/-- Only the variables that the invariant mentions matter. -/
theorem Ordered.of_eq {s' : Executor E} (h : Ordered limit work started s)
    (hphase : ∀ error, s.phase ≠ .returned (.error error)) (hpending : s'.pending = s.pending)
    (hrunning : s'.running = s.running) (hready : s'.ready = s.ready)
    (hnext : s'.nextIngest = s.nextIngest) (hconsumed : s'.consumed = s.consumed)
    (hdelivered : s'.delivered = s.delivered) : Ordered limit work started s' where
  pending := hpending ▸ h.pending
  started_le := h.started_le
  consumed_le := hconsumed ▸ h.consumed_le
  window := hconsumed ▸ h.window
  pointer := .inl <| by
    rw [hnext, hconsumed]
    refine h.pointer.resolve_right ?_
    rintro ⟨error, herror, -⟩
    exact hphase error herror
  running := by
    rw [hrunning, hconsumed, hready]
    exact h.running
  running_nodup := hrunning ▸ h.running_nodup
  running_le := hrunning ▸ h.running_le
  ready := by
    rw [hready, hconsumed, hdelivered]
    exact h.ready
  covered := by
    rw [hready, hconsumed, hrunning]
    exact h.covered
  calls := hconsumed ▸ h.calls
  outputs := by
    rw [hconsumed, hdelivered]
    exact h.outputs
  delivered := by
    rw [hdelivered, hrunning]
    exact h.delivered
  delivered_nodup := hdelivered ▸ h.delivered_nodup

/-- Before the end the pointer is the number of the calls. -/
theorem Ordered.nextIngest_eq (h : Ordered limit work started s)
    (hphase : ∀ error, s.phase ≠ .returned (.error error)) :
    s.nextIngest = s.consumed.length := by
  refine h.pointer.resolve_right ?_
  rintro ⟨error, herror, -⟩
  exact hphase error herror

/-- The output that is next in turn is consumed. -/
theorem Ordered.consume (h : Ordered limit work started s) (hphase : s.phase = .ingest)
    {entry : ReadyOutput E} (hnext : s.ready[s.nextIngest]? = some entry)
    (complete : Except String Bool) : Ordered limit work started (s.ingest entry complete) := by
  have hn : s.nextIngest = s.consumed.length := h.nextIngest_eq (by simp [hphase])
  obtain ⟨-, hlt, hitem, hdelivered⟩ := h.ready _ _ hnext
  have hmem : s.nextIngest ∈ s.ready := mem_iff.2 ⟨entry, hnext⟩
  have hlength (call : ConsumeCall E) : (s.consumed ++ [call]).length = s.consumed.length + 1 := by
    simp
  have key {s' : Executor E} (hpending : s'.pending = s.pending)
      (hrunning : s'.running = s.running) (hready : s'.ready = s.ready.erase s.nextIngest)
      (hconsumed : s'.consumed = s.consumed ++ [⟨s.nextIngest, entry.unitId, entry.output⟩])
      (hdeliv : s'.delivered = s.delivered)
      (hpointer : s'.nextIngest = s.nextIngest + 1 ∨
        ∃ error, s'.phase = .returned (.error error) ∧ s'.nextIngest = s.nextIngest) :
      Ordered limit work started s' := by
    refine
      { pending := hpending ▸ h.pending
        started_le := h.started_le
        consumed_le := ?_
        window := ?_
        pointer := ?_
        running := ?_
        running_nodup := hrunning ▸ h.running_nodup
        running_le := hrunning ▸ h.running_le
        ready := ?_
        covered := ?_
        calls := ?_
        outputs := ?_
        delivered := by
          rw [hdeliv, hrunning]
          exact h.delivered
        delivered_nodup := hdeliv ▸ h.delivered_nodup }
    · rw [hconsumed, hlength]
      omega
    · rw [hconsumed, hlength]
      exact h.window.trans (by omega)
    · rw [hconsumed, hlength]
      refine hpointer.imp (fun heq => by omega) ?_
      rintro ⟨error, herror, heq⟩
      exact ⟨error, herror, by omega⟩
    · intro task htask
      rw [hrunning] at htask
      obtain ⟨hwork, hle, hstarted, hidle⟩ := h.running task htask
      have hne : task.2 ≠ s.nextIngest := fun heq => hidle (heq ▸ hmem)
      refine ⟨hwork, ?_, hstarted, ?_⟩
      · rw [hconsumed, hlength]
        omega
      · rw [hready, mem_iff, getElem?_erase, if_neg hne, ← mem_iff]
        exact hidle
    · intro index other hother
      rw [hready, getElem?_erase] at hother
      split_ifs at hother with hindex
      obtain ⟨hle, hstarted, hunit, hdone⟩ := h.ready index other hother
      rw [hconsumed, hlength, hdeliv]
      exact ⟨by omega, hstarted, hunit, hdone⟩
    · intro index hle hstarted
      rw [hconsumed, hlength] at hle
      rw [hrunning, hready, mem_iff, getElem?_erase, if_neg (by omega), ← mem_iff]
      exact h.covered index (by omega) hstarted
    · rw [hconsumed, hlength, List.map_append, h.calls, List.range_succ, List.map_singleton, hn]
    · intro call hcall
      rw [hconsumed] at hcall
      rw [hdeliv]
      obtain hcall | hcall := List.mem_append.1 hcall
      · exact h.outputs call hcall
      · obtain rfl := List.mem_singleton.1 hcall
        exact ⟨hitem, hdelivered⟩
  cases complete with
  | error error => exact key rfl rfl rfl rfl rfl (.inr ⟨error, rfl, rfl⟩)
  | ok complete => exact key rfl rfl rfl rfl rfl (.inl rfl)

/-- The unit in front of the queue. -/
theorem Ordered.front (h : Ordered limit work started s) {front : AnalysisWorkItem × Nat}
    (hfront : s.pending.head? = some front) :
    front.2 = started ∧ work[started]? = some front.1 ∧
      s.pending.tail = work.zipIdx.drop (started + 1) := by
  rw [h.pending, List.head?_drop, List.getElem?_zipIdx, Option.map_eq_some_iff] at hfront
  obtain ⟨item, hitem, rfl⟩ := hfront
  rw [h.pending, List.tail_drop]
  exact ⟨Nat.zero_add _, hitem, rfl⟩

/-- What the guard of the dispatch loop says. -/
theorem mayStart_spec {front : AnalysisWorkItem × Nat} (hfront : s.pending.head? = some front) :
    s.mayStart limit prerequisites = true ↔ s.running.length < limit ∧ s.cancelled = false ∧
      front.2 < s.nextIngest + limit ∧
        ∀ previous ∈ prerequisites[front.2]?.getD none, previous < s.nextIngest := by
  rw [Executor.mayStart, hfront, Option.any_some]
  simp only [Bool.and_eq_true, decide_eq_true_eq, Bool.not_eq_true', and_assoc,
    Option.all_eq_true, Option.mem_def]

/-- The unit in front is started: a worker runs it, or a checkpoint answers for it. -/
theorem Ordered.start (h : Ordered limit work started s) (hphase : s.phase = .dispatch)
    (hmay : s.mayStart limit prerequisites = true) {front : AnalysisWorkItem × Nat}
    (hfront : s.pending.head? = some front) (cached : Option (WorkerOutput E)) :
    Ordered limit work (started + 1) (s.start front cached) := by
  have hn : s.nextIngest = s.consumed.length := h.nextIngest_eq (by simp [hphase])
  obtain ⟨hrun, -, hwindow, -⟩ := (mayStart_spec hfront).1 hmay
  obtain ⟨hindex, hitem, htail⟩ := h.front hfront
  have hlt : started < work.length := (List.getElem?_eq_some_iff.1 hitem).1
  have hfresh : started ∉ s.ready := by
    rw [mem_iff]
    rintro ⟨entry, hentry⟩
    exact absurd (h.ready _ _ hentry).2.1 (lt_irrefl _)
  have hidle : ∀ task ∈ s.running, task.2 ≠ started := fun task htask =>
    ne_of_lt (h.running task htask).2.2.1
  have hle := h.consumed_le
  rw [hindex, hn] at hwindow
  cases cached with
  | none =>
    refine
      { pending := htail
        started_le := hlt
        consumed_le := hle.trans (Nat.le_succ _)
        window := hwindow
        pointer := .inl hn
        running := ?_
        running_nodup := ?_
        running_le := ?_
        ready := fun index entry hentry => ?_
        covered := fun index hindexLe hindexLt => ?_
        calls := h.calls
        outputs := h.outputs
        delivered := fun delivery hdelivery => ?_
        delivered_nodup := h.delivered_nodup }
    · intro task htask
      obtain htask | htask := List.mem_append.1 htask
      · obtain ⟨hwork, hconsumed, hstarted, hready⟩ := h.running task htask
        exact ⟨hwork, hconsumed, hstarted.trans (Nat.lt_succ_self _), hready⟩
      · obtain rfl := List.mem_singleton.1 htask
        rw [hindex]
        exact ⟨hitem, hle, Nat.lt_succ_self _, hfresh⟩
    · change ((s.running ++ [front]).map Prod.snd).Nodup
      rw [List.map_append, List.map_singleton, hindex]
      refine List.nodup_append'.2 ⟨h.running_nodup, List.nodup_singleton _, ?_⟩
      rw [List.disjoint_singleton, List.mem_map]
      rintro ⟨task, htask, heq⟩
      exact hidle task htask heq
    · change (s.running ++ [front]).length ≤ limit
      rw [List.length_append, List.length_singleton]
      exact hrun
    · obtain ⟨hconsumed, hstarted, hrest⟩ := h.ready index entry hentry
      exact ⟨hconsumed, hstarted.trans (Nat.lt_succ_self _), hrest⟩
    · obtain hold | rfl := Nat.lt_succ_iff_lt_or_eq.1 hindexLt
      · refine (h.covered index hindexLe hold).imp_right ?_
        rintro ⟨task, htask, heq⟩
        exact ⟨task, List.mem_append_left _ htask, heq⟩
      · exact .inr ⟨front, List.mem_append_right _ List.mem_cons_self, hindex⟩
    · obtain ⟨hstarted, hother⟩ := h.delivered delivery hdelivery
      refine ⟨hstarted.trans (Nat.lt_succ_self _), fun task htask => ?_⟩
      obtain htask | htask := List.mem_append.1 htask
      · exact hother task htask
      · obtain rfl := List.mem_singleton.1 htask
        rw [hindex]
        exact ne_of_gt hstarted
  | some output =>
    refine
      { pending := htail
        started_le := hlt
        consumed_le := hle.trans (Nat.le_succ _)
        window := hwindow
        pointer := .inl hn
        running := fun task htask => ?_
        running_nodup := h.running_nodup
        running_le := h.running_le
        ready := fun index entry hentry => ?_
        covered := fun index hindexLe hindexLt => ?_
        calls := h.calls
        outputs := fun call hcall => ?_
        delivered := fun delivery hdelivery => ?_
        delivered_nodup := ?_ }
    · obtain ⟨hwork, hconsumed, hstarted, hready⟩ := h.running task htask
      refine ⟨hwork, hconsumed, hstarted.trans (Nat.lt_succ_self _), ?_⟩
      change task.2 ∉ s.ready.insert front.2 ⟨front.1.unitId, output, true⟩
      rw [mem_iff, getElem?_insert, hindex, if_neg (hidle task htask), ← mem_iff]
      exact hready
    · change (s.ready.insert front.2 ⟨front.1.unitId, output, true⟩)[index]? = some entry at hentry
      change _ ∧ _ ∧ _ ∧ (index, entry.output) ∈ s.delivered ++ [(front.2, output)]
      rw [getElem?_insert, hindex] at hentry
      split_ifs at hentry with heq
      · obtain rfl := Option.some.inj hentry
        rw [heq, hindex]
        exact ⟨hle, Nat.lt_succ_self _, ⟨front.1, hitem, rfl⟩,
          List.mem_append_right _ List.mem_cons_self⟩
      · obtain ⟨hconsumed, hstarted, hunit, hdone⟩ := h.ready index entry hentry
        exact ⟨hconsumed, hstarted.trans (Nat.lt_succ_self _), hunit,
          List.mem_append_left _ hdone⟩
    · change index ∈ s.ready.insert front.2 ⟨front.1.unitId, output, true⟩ ∨ _
      rw [mem_iff, getElem?_insert, hindex]
      obtain hold | rfl := Nat.lt_succ_iff_lt_or_eq.1 hindexLt
      · rw [if_neg (ne_of_lt hold), ← mem_iff]
        exact h.covered index hindexLe hold
      · exact .inl ⟨_, if_pos rfl⟩
    · obtain ⟨hunit, hdone⟩ := h.outputs call hcall
      exact ⟨hunit, List.mem_append_left _ hdone⟩
    · obtain hdelivery | hdelivery := List.mem_append.1 hdelivery
      · obtain ⟨hstarted, hother⟩ := h.delivered delivery hdelivery
        exact ⟨hstarted.trans (Nat.lt_succ_self _), hother⟩
      · obtain rfl := List.mem_singleton.1 hdelivery
        rw [hindex]
        exact ⟨Nat.lt_succ_self _, hidle⟩
    · change ((s.delivered ++ [(front.2, output)]).map Prod.fst).Nodup
      rw [List.map_append, List.map_singleton, hindex]
      refine List.nodup_append'.2 ⟨h.delivered_nodup, List.nodup_singleton _, ?_⟩
      rw [List.disjoint_singleton, List.mem_map]
      rintro ⟨delivery, hdelivery, heq⟩
      exact absurd (h.delivered delivery hdelivery).1 (by rw [heq]; exact lt_irrefl _)

/-- A task ends: its output waits for its turn. -/
theorem Ordered.finish (h : Ordered limit work started s) (hphase : s.phase = .join)
    {task : AnalysisWorkItem × Nat} (htask : task ∈ s.running)
    (result : Except JoinError (WorkerOutput E)) :
    Ordered limit work started (s.finish task result) := by
  have hn : s.nextIngest = s.consumed.length := h.nextIngest_eq (by simp [hphase])
  obtain ⟨hwork, hconsumed, hstarted, hidle⟩ := h.running task htask
  have hother {other : AnalysisWorkItem × Nat}
      (hmem : other ∈ s.running.filter fun other => other.2 ≠ task.2) :
      other ∈ s.running ∧ other.2 ≠ task.2 := by
    rw [List.mem_filter, decide_eq_true_eq] at hmem
    exact hmem
  have key (output : WorkerOutput E) {s' : Executor E} (hpending : s'.pending = s.pending)
      (hrunning : s'.running = s.running.filter fun other => other.2 ≠ task.2)
      (hready : s'.ready = s.ready.insert task.2 ⟨task.1.unitId, output, false⟩)
      (hcalls : s'.consumed = s.consumed)
      (hdeliv : s'.delivered = s.delivered ++ [(task.2, output)])
      (hpointer : s'.nextIngest = s.nextIngest) : Ordered limit work started s' := by
    refine
      { pending := hpending ▸ h.pending
        started_le := h.started_le
        consumed_le := hcalls ▸ h.consumed_le
        window := hcalls ▸ h.window
        pointer := .inl (by rw [hpointer, hcalls, hn])
        running := fun other hmem => ?_
        running_nodup := ?_
        running_le := ?_
        ready := fun index entry hentry => ?_
        covered := fun index hle hlt => ?_
        calls := hcalls ▸ h.calls
        outputs := fun call hcall => ?_
        delivered := fun delivery hdelivery => ?_
        delivered_nodup := ?_ }
    · rw [hrunning] at hmem
      obtain ⟨hmem, hne⟩ := hother hmem
      obtain ⟨hitem, hle, hlt, hnot⟩ := h.running other hmem
      rw [hcalls, hready, mem_iff, getElem?_insert, if_neg hne, ← mem_iff]
      exact ⟨hitem, hle, hlt, hnot⟩
    · rw [hrunning]
      exact h.running_nodup.sublist (List.filter_sublist.map Prod.snd)
    · rw [hrunning]
      exact (List.length_filter_le _ _).trans h.running_le
    · rw [hready, getElem?_insert] at hentry
      rw [hcalls, hdeliv]
      split_ifs at hentry with heq
      · obtain rfl := Option.some.inj hentry
        rw [heq]
        exact ⟨hconsumed, hstarted, ⟨task.1, hwork, rfl⟩,
          List.mem_append_right _ List.mem_cons_self⟩
      · obtain ⟨hle, hlt, hunit, hdone⟩ := h.ready index entry hentry
        exact ⟨hle, hlt, hunit, List.mem_append_left _ hdone⟩
    · rw [hcalls] at hle
      rw [hready, mem_iff, getElem?_insert]
      by_cases heq : index = task.2
      · exact .inl ⟨_, if_pos heq⟩
      · rw [if_neg heq, ← mem_iff]
        refine (h.covered index hle hlt).imp_right ?_
        rintro ⟨other, hmem, rfl⟩
        refine ⟨other, ?_, rfl⟩
        rw [hrunning, List.mem_filter, decide_eq_true_eq]
        exact ⟨hmem, heq⟩
    · rw [hcalls] at hcall
      obtain ⟨hunit, hdone⟩ := h.outputs call hcall
      rw [hdeliv]
      exact ⟨hunit, List.mem_append_left _ hdone⟩
    · rw [hdeliv] at hdelivery
      rw [hrunning]
      obtain hdelivery | hdelivery := List.mem_append.1 hdelivery
      · obtain ⟨hlt, hnone⟩ := h.delivered delivery hdelivery
        exact ⟨hlt, fun other hmem => hnone other (hother hmem).1⟩
      · obtain rfl := List.mem_singleton.1 hdelivery
        exact ⟨hstarted, fun other hmem => (hother hmem).2⟩
    · rw [hdeliv, List.map_append, List.map_singleton]
      refine List.nodup_append'.2 ⟨h.delivered_nodup, List.nodup_singleton _, ?_⟩
      rw [List.disjoint_singleton, List.mem_map]
      rintro ⟨delivery, hdelivery, heq⟩
      exact (h.delivered delivery hdelivery).2 task htask heq.symm
  exact key _ rfl rfl rfl rfl rfl rfl

/-- **Every step keeps the order.** Only a start moves the front of the queue. -/
theorem Ordered.step {s' : Executor E} {choice : Choice E} (h : Ordered limit work started s)
    (htaken : Taken limit prerequisites s choice s') : ∃ started', Ordered limit work started' s' := by
  cases htaken with
  | cancel forBudget live =>
    refine ⟨started, h.of_eq (fun error => live _) ?_ ?_ ?_ ?_ ?_ ?_⟩ <;>
      · unfold Executor.cancel
        split_ifs <;> rfl
  | consume complete phase next => exact ⟨started, h.consume phase next complete⟩
  | start cached phase may next => exact ⟨started + 1, h.start phase may next cached⟩
  | finish result phase wait task_mem => exact ⟨started, h.finish phase task_mem result⟩
  | ingested phase wait =>
    exact ⟨started, h.of_eq (by simp [phase]) rfl rfl rfl rfl rfl rfl⟩
  | dispatched phase full =>
    exact ⟨started, h.of_eq (by simp [phase]) rfl rfl rfl rfl rfl rfl⟩
  | again phase next =>
    exact ⟨started, h.of_eq (by simp [phase]) rfl rfl rfl rfl rfl rfl⟩
  | stop phase wait idle =>
    exact ⟨started, h.of_eq (by simp [phase]) rfl rfl rfl rfl rfl rfl⟩

/-- Running units and buffered outputs together fill no more than the window. -/
theorem Ordered.buffered_le (h : Ordered limit work started s) :
    s.running.length + s.ready.size ≤ limit := by
  have hready : ∀ index ∈ s.ready.toList.map Prod.fst, s.consumed.length ≤ index ∧
      index < started ∧ index ∈ s.ready := by
    intro index hindex
    obtain ⟨entry, hmem, rfl⟩ := List.mem_map.1 hindex
    have hentry := mem_toList.1 hmem
    exact ⟨(h.ready _ _ hentry).1, (h.ready _ _ hentry).2.1, mem_iff.2 ⟨_, hentry⟩⟩
  have hnodup : (s.running.map Prod.snd ++ s.ready.toList.map Prod.fst).Nodup := by
    refine List.nodup_append'.2 ⟨h.running_nodup, keys_nodup, ?_⟩
    intro index hrunning hmem
    obtain ⟨task, htask, rfl⟩ := List.mem_map.1 hrunning
    exact (h.running task htask).2.2.2 (hready _ hmem).2.2
  have hsub : s.running.map Prod.snd ++ s.ready.toList.map Prod.fst ⊆
      List.range' s.consumed.length (started - s.consumed.length) := by
    intro index hindex
    have hle := h.consumed_le
    rw [List.mem_range'_1]
    obtain hindex | hindex := List.mem_append.1 hindex
    · obtain ⟨task, htask, rfl⟩ := List.mem_map.1 hindex
      obtain ⟨-, hlow, hhigh, -⟩ := h.running task htask
      exact ⟨hlow, by omega⟩
    · obtain ⟨hlow, hhigh, -⟩ := hready _ hindex
      exact ⟨hlow, by omega⟩
  have hlength := (hnodup.subperm hsub).length_le
  rw [List.length_append, List.length_map, List.length_map, List.length_range',
    Std.ExtTreeMap.length_toList] at hlength
  exact hlength.trans (by have := h.window; omega)

end Steps

end Analysis
