import Depgraph.Analysis.Split

/-!
# The waves of a split plan

`decide_parallelism` deals the execution units, in their order, into waves. It appends to the last
wave or opens the next one and never goes back, so the waves cut the sequence of units into
consecutive groups. A unit whose prerequisite stands in the last wave opens a new wave, and so does
a unit that finds the last wave full.
-/

namespace Analysis

open OrderedMap

/-- An execution unit with the fields of `AnalysisExecutionUnit` that its wave depends on. -/
structure ScheduledUnit extends AnalysisExecutionUnit where
  prerequisiteIds : List String
  weight : Nat

structure AnalysisExecutionWave where
  index : Nat
  executionUnitIds : List String
  estimatedWeight : Nat
deriving DecidableEq

structure AnalysisParallelism where
  maxConcurrentUnits : Nat
  effectiveConcurrency : Nat
  admittedMemoryBytes : Nat
  waves : List AnalysisExecutionWave

def saturatingAdd (a b : Nat) : Nat := min (a + b) (2 ^ 64 - 1)

def saturatingMul (a b : Nat) : Nat := min (a * b) (2 ^ 64 - 1)

/-- A wave without units. -/
def AnalysisExecutionWave.opened (index : Nat) : AnalysisExecutionWave := ⟨index, [], 0⟩

/-- The wave with one more unit. -/
def AnalysisExecutionWave.push (wave : AnalysisExecutionWave) (unit : ScheduledUnit) :
    AnalysisExecutionWave :=
  { wave with
    executionUnitIds := wave.executionUnitIds ++ [unit.id]
    estimatedWeight := saturatingAdd wave.estimatedWeight unit.weight }

/-- The variables of the loop of `decide_parallelism`. -/
structure Waves where
  waves : List AnalysisExecutionWave
  waveOf : Std.ExtTreeMap String Nat

/-- The first wave after those of the prerequisites that have one. -/
def Waves.earliest (state : Waves) (unit : ScheduledUnit) : Nat :=
  ((unit.prerequisiteIds.filterMap (state.waveOf[·]?)).max?).elim 0 (· + 1)

/-- The waves with the one that the unit joins in the last place. -/
def Waves.target (limit : Nat) (state : Waves) (unit : ScheduledUnit) :
    List AnalysisExecutionWave :=
  match state.waves.getLast? with
  | some last =>
    if state.earliest unit ≤ last.index ∧ last.executionUnitIds.length < limit then state.waves
    else state.waves ++ [.opened (max (last.index + 1) (state.earliest unit))]
  | none => [.opened (state.earliest unit)]

/-- One turn of the loop: the unit joins the last of the target waves. -/
def Waves.place (limit : Nat) (state : Waves) (unit : ScheduledUnit) : Waves :=
  match (state.target limit unit).getLast? with
  | some last =>
    ⟨(state.target limit unit).dropLast ++ [last.push unit], state.waveOf.insert unit.id last.index⟩
  | none => state

/-- `budget.max_concurrent_units.max(1)`. -/
def AnalysisSplitBudget.unitLimit (budget : AnalysisSplitBudget) : Nat :=
  max budget.maxConcurrentUnits 1

/-- The loop of `decide_parallelism`. -/
def placeUnits (limit : Nat) (units : List ScheduledUnit) : Waves :=
  units.foldl (Waves.place limit) ⟨[], ∅⟩

def decideParallelism (units : List ScheduledUnit) (budget : AnalysisSplitBudget) :
    AnalysisParallelism :=
  let waves := (placeUnits budget.unitLimit units).waves
  let effective :=
    min ((waves.map (·.executionUnitIds.length)).max?.getD 0) budget.unitLimit
  { maxConcurrentUnits := budget.maxConcurrentUnits
    effectiveConcurrency := effective
    admittedMemoryBytes := saturatingMul budget.maxWorkerMemoryBytes effective
    waves }

/-! ### Schedules -/

/-- Every prerequisite of a unit is the id of a unit that stands before it. -/
def PrerequisitesEarlier (units : List ScheduledUnit) : Prop :=
  ∀ before unit after, units = before ++ unit :: after →
    ∀ id ∈ unit.prerequisiteIds, id ∈ before.map (·.id)

/-- The groups cut the units into consecutive runs of at most `limit` units, and no unit stands in
a group behind one of its own prerequisites. -/
structure Schedule (limit : Nat) (units : List ScheduledUnit)
    (groups : List (List ScheduledUnit)) : Prop where
  flatten_eq : groups.flatten = units
  ne_nil : ∀ group ∈ groups, group ≠ []
  length_le : ∀ group ∈ groups, group.length ≤ limit
  apart : ∀ group ∈ groups, group.Pairwise fun prior unit => prior.id ∉ unit.prerequisiteIds

namespace Schedule

variable {limit : Nat} {units : List ScheduledUnit} {groups : List (List ScheduledUnit)}

theorem nil : Schedule limit [] [] :=
  ⟨rfl, by simp, by simp, by simp⟩

/-- A unit may open a new group. -/
theorem push_new (h : Schedule limit units groups) (positive : 0 < limit) (unit : ScheduledUnit) :
    Schedule limit (units ++ [unit]) (groups ++ [[unit]]) where
  flatten_eq := by simp [h.flatten_eq]
  ne_nil := by
    intro group member
    rcases List.mem_append.1 member with member | member
    · exact h.ne_nil group member
    · simp_all
  length_le := by
    intro group member
    rcases List.mem_append.1 member with member | member
    · exact h.length_le group member
    · have : group = [unit] := by simpa using member
      rw [this]
      exact positive
  apart := by
    intro group member
    rcases List.mem_append.1 member with member | member
    · exact h.apart group member
    · have : group = [unit] := by simpa using member
      simp [this]

/-- A unit joins the last group when there is room and no prerequisite of it stands there. -/
theorem push_last {group : List ScheduledUnit} (h : Schedule limit units (groups ++ [group]))
    (unit : ScheduledUnit) (room : group.length < limit)
    (free : ∀ prior ∈ group, prior.id ∉ unit.prerequisiteIds) :
    Schedule limit (units ++ [unit]) (groups ++ [group ++ [unit]]) where
  flatten_eq := by simp [← h.flatten_eq]
  ne_nil := by
    intro other member
    rcases List.mem_append.1 member with member | member
    · exact h.ne_nil other (List.mem_append_left _ member)
    · simp_all
  length_le := by
    intro other member
    rcases List.mem_append.1 member with member | member
    · exact h.length_le other (List.mem_append_left _ member)
    · have : other = group ++ [unit] := by simpa using member
      rw [this, List.length_append]
      exact room
  apart := by
    intro other member
    rcases List.mem_append.1 member with member | member
    · exact h.apart other (List.mem_append_left _ member)
    · have : other = group ++ [unit] := by simpa using member
      rw [this, List.pairwise_append]
      refine ⟨h.apart group (by simp), List.pairwise_singleton _ _, ?_⟩
      intro prior held last isLast
      rw [List.mem_singleton.1 isLast]
      exact free prior held

/-- A prerequisite that stands before its unit stands in an earlier group. -/
theorem earlier (h : Schedule limit units groups) (ordered : PrerequisitesEarlier units)
    {before after : List (List ScheduledUnit)} {group : List ScheduledUnit}
    (cut : groups = before ++ group :: after) {unit : ScheduledUnit} (member : unit ∈ group)
    {id : String} (needed : id ∈ unit.prerequisiteIds) : id ∈ before.flatten.map (·.id) := by
  obtain ⟨front, back, rfl⟩ := List.append_of_mem member
  have place : units = (before.flatten ++ front) ++ unit :: (back ++ after.flatten) := by
    rw [← h.flatten_eq, cut]
    simp
  have found := ordered _ _ _ place id needed
  rw [List.map_append, List.mem_append] at found
  rcases found with found | found
  · exact found
  · -- the prerequisite would stand in the unit's own group
    obtain ⟨prior, held, rfl⟩ := List.mem_map.1 found
    have apart := h.apart (front ++ unit :: back) (by rw [cut]; simp)
    rw [List.pairwise_append] at apart
    exact absurd needed (apart.2.2 prior held unit (by simp))

end Schedule

/-! ### The loop -/

theorem Waves.lt_earliest {state : Waves} {unit : ScheduledUnit} {id : String} {wave : Nat}
    (needed : id ∈ unit.prerequisiteIds) (seen : state.waveOf[id]? = some wave) :
    wave < state.earliest unit := by
  have member : wave ∈ unit.prerequisiteIds.filterMap (state.waveOf[·]?) :=
    List.mem_filterMap.2 ⟨id, needed, seen⟩
  obtain ⟨top, isTop⟩ := List.isSome_max?_of_mem member |> Option.isSome_iff_exists.1
  have := List.le_max?_get_of_mem member
  simp only [earliest, isTop, Option.elim_some]
  simp only [isTop, Option.get_some] at this
  omega

theorem Waves.earliest_le {state : Waves} {unit : ScheduledUnit} {bound : Nat}
    (below : ∀ (id : String) (wave : Nat), state.waveOf[id]? = some wave → wave < bound) :
    state.earliest unit ≤ bound := by
  unfold earliest
  cases isTop : (unit.prerequisiteIds.filterMap (state.waveOf[·]?)).max? with
  | none => exact Nat.zero_le _
  | some top =>
    obtain ⟨id, -, seen⟩ := List.mem_filterMap.1 (List.max?_mem isTop)
    exact below id top seen

theorem Waves.place_of_target {limit : Nat} {state : Waves} {unit : ScheduledUnit}
    {init : List AnalysisExecutionWave} {last : AnalysisExecutionWave}
    (h : state.target limit unit = init ++ [last]) :
    state.place limit unit =
      ⟨init ++ [last.push unit], state.waveOf.insert unit.id last.index⟩ := by
  simp [place, h]

/-- The loop has dealt `units` into `groups`: the waves list the groups in their order, the waves
are numbered from zero, and `waveOf` knows the units of the last group. -/
structure Waves.Placed (limit : Nat) (units : List ScheduledUnit)
    (groups : List (List ScheduledUnit)) (state : Waves) : Prop where
  schedule : Schedule limit units groups
  ids_eq : state.waves.map (·.executionUnitIds) = groups.map (·.map (·.id))
  index_eq : state.waves.map (·.index) = List.range groups.length
  below : ∀ (id : String) (wave : Nat), state.waveOf[id]? = some wave → wave < groups.length
  last : ∀ init group, groups = init ++ [group] →
    ∀ unit ∈ group, state.waveOf[unit.id]? = some init.length

namespace Waves.Placed

variable {limit : Nat} {units : List ScheduledUnit} {groups : List (List ScheduledUnit)}
  {state : Waves}

/-- The unit opens the next wave. -/
theorem open_wave (h : Placed limit units groups state) (positive : 0 < limit)
    {unit : ScheduledUnit}
    (target : state.target limit unit = state.waves ++ [.opened groups.length]) :
    Placed limit (units ++ [unit]) (groups ++ [[unit]]) (state.place limit unit) := by
  rw [place_of_target target]
  refine ⟨h.schedule.push_new positive unit, ?_, ?_, ?_, ?_⟩
  · simp [h.ids_eq, AnalysisExecutionWave.push, AnalysisExecutionWave.opened]
  · simp [h.index_eq, AnalysisExecutionWave.push, AnalysisExecutionWave.opened, List.range_succ]
  · intro id wave seen
    rw [Std.ExtTreeMap.getElem?_insert] at seen
    split_ifs at seen with same
    · simp only [AnalysisExecutionWave.opened, Option.some.injEq] at seen
      simp [← seen]
    · have := h.below id wave seen
      simp only [List.length_append, List.length_singleton]
      omega
  · intro init group cut other member
    obtain ⟨rfl, one⟩ := List.append_inj' cut rfl
    obtain rfl : other = unit := by simpa [← List.singleton_inj.1 one] using member
    simp [AnalysisExecutionWave.opened]

/-- The last wave is that of the last group. -/
theorem last_wave {init : List (List ScheduledUnit)} {group : List ScheduledUnit}
    (h : Placed limit units (init ++ [group]) state) : ∃ front last,
    state.waves = front ++ [last] ∧
    front.map (·.executionUnitIds) = init.map (·.map (·.id)) ∧
    front.map (·.index) = List.range init.length ∧
    last.executionUnitIds = group.map (·.id) ∧ last.index = init.length := by
  have indexes := h.index_eq
  have ids := h.ids_eq
  rcases List.eq_nil_or_concat state.waves with none | ⟨front, last, shape⟩
  · simp [none] at ids
  · rw [List.concat_eq_append] at shape
    simp only [shape, List.map_append, List.map_cons, List.map_nil, List.length_append,
      List.length_singleton, List.range_succ] at indexes ids
    obtain ⟨frontIndexes, lastIndex⟩ := List.append_inj' indexes rfl
    obtain ⟨frontIds, lastIds⟩ := List.append_inj' ids rfl
    exact ⟨front, last, shape, frontIds, frontIndexes, List.singleton_inj.1 lastIds,
      List.singleton_inj.1 lastIndex⟩

/-- The unit joins the last wave. -/
theorem join_wave {init : List (List ScheduledUnit)} {group : List ScheduledUnit}
    (h : Placed limit units (init ++ [group]) state)
    {unit : ScheduledUnit} (target : state.target limit unit = state.waves)
    (early : state.earliest unit ≤ init.length) (room : group.length < limit) :
    Placed limit (units ++ [unit]) (init ++ [group ++ [unit]]) (state.place limit unit) := by
  obtain ⟨front, last, shape, frontIds, frontIndexes, lastIds, lastIndex⟩ := h.last_wave
  -- a prerequisite in the last group would put the unit behind it
  have free : ∀ prior ∈ group, prior.id ∉ unit.prerequisiteIds := by
    intro prior held needed
    have := lt_earliest needed (h.last init group rfl prior held)
    omega
  rw [place_of_target (target.trans shape)]
  refine ⟨h.schedule.push_last unit room free, ?_, ?_, ?_, ?_⟩
  · simp [AnalysisExecutionWave.push, frontIds, lastIds]
  · simp [AnalysisExecutionWave.push, frontIndexes, lastIndex, List.range_succ]
  · intro id wave seen
    rw [Std.ExtTreeMap.getElem?_insert] at seen
    split_ifs at seen with same
    · rw [← Option.some.inj seen, lastIndex]
      simp
    · simpa using h.below id wave seen
  · intro init' group' cut other member
    obtain ⟨rfl, one⟩ := List.append_inj' cut rfl
    rw [← List.singleton_inj.1 one] at member
    rw [Std.ExtTreeMap.getElem?_insert, lastIndex]
    split_ifs with same
    · rfl
    · rcases List.mem_append.1 member with held | isUnit
      · exact h.last init group rfl other held
      · rw [List.mem_singleton.1 isUnit] at same
        simp at same

/-- A turn of the loop deals one more unit. -/
theorem place (h : Placed limit units groups state) (positive : 0 < limit)
    (unit : ScheduledUnit) :
    ∃ next, Placed limit (units ++ [unit]) next (state.place limit unit) := by
  have early : state.earliest unit ≤ groups.length := earliest_le h.below
  rcases List.eq_nil_or_concat groups with rfl | ⟨init, group, shape⟩
  · have none : state.waves = [] := by simpa using h.ids_eq
    refine ⟨_, h.open_wave positive ?_⟩
    rw [List.length_nil, Nat.le_zero] at early
    simp [target, none, early]
  · rw [List.concat_eq_append] at shape
    subst shape
    obtain ⟨front, last, shape, -, -, lastIds, lastIndex⟩ := h.last_wave
    have lastLength : last.executionUnitIds.length = group.length := by simp [lastIds]
    rw [List.length_append, List.length_singleton] at early
    by_cases joins : state.earliest unit ≤ last.index ∧ last.executionUnitIds.length < limit
    · refine ⟨_, h.join_wave ?_ (by omega) (by omega)⟩
      simp [target, shape, joins]
    · refine ⟨_, h.open_wave positive ?_⟩
      have next : max (last.index + 1) (state.earliest unit) = (init ++ [group]).length := by
        simp only [List.length_append, List.length_singleton]
        omega
      rw [← next]
      simp [target, shape, joins]

end Waves.Placed

/-- After the whole loop every unit has been dealt. -/
theorem placeUnits_placed {limit : Nat} (positive : 0 < limit) (units : List ScheduledUnit) :
    ∃ groups, (placeUnits limit units).Placed limit units groups := by
  induction units using List.reverseRecOn with
  | nil => exact ⟨[], Schedule.nil, rfl, rfl, by simp [placeUnits], by simp⟩
  | append_singleton units unit ih =>
    obtain ⟨groups, placed⟩ := ih
    rw [placeUnits, List.foldl_append]
    exact placed.place positive unit

/-! ### The decision -/

/-- The waves of a sequence of units in which every prerequisite stands before its unit: they deal
every unit once and in order, a prerequisite is always found in an earlier wave and never next to
its unit, the waves are numbered from zero, no wave is larger than the limit, and the effective
concurrency is the size of the largest wave. -/
theorem decideParallelism_schedules (units : List ScheduledUnit) (budget : AnalysisSplitBudget)
    (ordered : PrerequisitesEarlier units) :
    ∃ groups : List (List ScheduledUnit),
      groups.flatten = units ∧
      (decideParallelism units budget).waves.map (·.executionUnitIds) =
        groups.map (·.map (·.id)) ∧
      (∀ before group after, groups = before ++ group :: after → ∀ unit ∈ group,
        ∀ id ∈ unit.prerequisiteIds, id ∈ before.flatten.map (·.id)) ∧
      (∀ group ∈ groups, group.Pairwise fun prior unit => prior.id ∉ unit.prerequisiteIds) ∧
      (decideParallelism units budget).waves.map (·.index) =
        List.range (decideParallelism units budget).waves.length ∧
      (∀ wave ∈ (decideParallelism units budget).waves, wave.executionUnitIds ≠ [] ∧
        wave.executionUnitIds.length ≤ max budget.maxConcurrentUnits 1) ∧
      (decideParallelism units budget).effectiveConcurrency =
        ((decideParallelism units budget).waves.map (·.executionUnitIds.length)).max?.getD 0 := by
  have positive : 0 < budget.unitLimit := by
    unfold AnalysisSplitBudget.unitLimit
    omega
  obtain ⟨groups, placed⟩ := placeUnits_placed positive units
  have size : ∀ wave ∈ (decideParallelism units budget).waves,
      wave.executionUnitIds ≠ [] ∧ wave.executionUnitIds.length ≤ budget.unitLimit := by
    intro wave member
    have listed : wave.executionUnitIds ∈ groups.map (·.map (·.id)) := by
      rw [← placed.ids_eq]
      exact List.mem_map_of_mem member
    obtain ⟨group, held, same⟩ := List.mem_map.1 listed
    rw [← same, List.length_map]
    exact ⟨by simpa using placed.schedule.ne_nil group held, placed.schedule.length_le group held⟩
  have count : (decideParallelism units budget).waves.length = groups.length := by
    change (placeUnits budget.unitLimit units).waves.length = groups.length
    simpa using congrArg List.length placed.ids_eq
  refine ⟨groups, placed.schedule.flatten_eq, placed.ids_eq, ?_, placed.schedule.apart, ?_, size, ?_⟩
  · intro before group after cut unit member id needed
    exact placed.schedule.earlier ordered cut member needed
  · rw [count]
    exact placed.index_eq
  · -- the cut at the limit changes nothing, since no wave exceeds it
    refine Nat.min_eq_left ?_
    cases isTop : ((placeUnits budget.unitLimit units).waves.map
        (·.executionUnitIds.length)).max? with
    | none => exact Nat.zero_le _
    | some top =>
      obtain ⟨wave, member, rfl⟩ := List.mem_map.1 (List.max?_mem isTop)
      exact (size wave member).2

namespace WaveSample

/-- A unit that nothing but its id and its prerequisites tells apart. -/
def unit (id : String) (prerequisiteIds : List String) : ScheduledUnit where
  id
  unitId := "unit"
  stage := .typed
  batchIndex := 0
  batchCount := 1
  ownedPaths := []
  loaderKind := .files
  loaderPaths := []
  referenceDepth := .pathsOnly
  referencePaths := []
  prerequisiteIds
  weight := 1

/-- A budget with the given number of concurrent units. -/
def budget (maxConcurrentUnits : Nat) : AnalysisSplitBudget where
  maxConcurrentUnits
  maxUnitSourceFiles := 1
  maxUnitSourceBytes := 1
  maxContextSourceBytes := 1
  workerTimeoutSeconds := 1
  maxWorkerMemoryBytes := 1

/-- Two units of which the second waits for the first. -/
def units : List ScheduledUnit := [unit "first" [], unit "second" ["first"]]

theorem units_ordered : PrerequisitesEarlier units := by
  intro before unit after cut id needed
  rcases before with _ | ⟨first, _ | ⟨second, rest⟩⟩
  · obtain ⟨rfl, -⟩ : _ ∧ _ := by simpa [units] using cut
    simp [WaveSample.unit] at needed
  · obtain ⟨rfl, rfl, -⟩ : _ ∧ _ ∧ _ := by simpa [units] using cut
    simpa [WaveSample.unit] using needed
  · simp [units] at cut

theorem single_ordered : PrerequisitesEarlier [unit "first" []] := by
  intro before unit after cut id needed
  rcases before with _ | ⟨first, rest⟩
  · obtain ⟨rfl, -⟩ : _ ∧ _ := by simpa using cut
    simp [WaveSample.unit] at needed
  · simp at cut

end WaveSample

theorem decideParallelism_schedules_units :
    PrerequisitesEarlier WaveSample.units ∧
    ((decideParallelism WaveSample.units (WaveSample.budget 2)).waves.map
      (·.executionUnitIds)) = [["first"], ["second"]] ∧
    ∃ groups : List (List ScheduledUnit), groups.flatten = WaveSample.units ∧
      (decideParallelism WaveSample.units (WaveSample.budget 2)).waves.map
        (·.executionUnitIds) = groups.map (·.map (·.id)) := by
  obtain ⟨groups, flatten, waves, -⟩ :=
    decideParallelism_schedules WaveSample.units (WaveSample.budget 2) WaveSample.units_ordered
  exact ⟨WaveSample.units_ordered, by decide +kernel, groups, flatten, waves⟩

/-- A budget for no unit at all still lets one unit into a wave. -/
theorem decideParallelism_exceeds_zero :
    PrerequisitesEarlier [WaveSample.unit "first" []] ∧
    ∃ wave ∈ (decideParallelism [WaveSample.unit "first" []] (WaveSample.budget 0)).waves,
      (WaveSample.budget 0).maxConcurrentUnits < wave.executionUnitIds.length :=
  ⟨WaveSample.single_ordered, ⟨0, ["first"], 1⟩, by decide +kernel, by decide⟩

end Analysis
