import Depgraph.Analysis.Split
import Depgraph.Library.DepthFirst
import Depgraph.Library.ListMap

/-!
# Context groups

`context_groups`: the units of a plan whose resolved input dependencies lead from each to the others
are kept together. The groups are found by two searches over explicit stacks: one lists the units in
the order in which it finishes them, and the other follows the dependencies backwards from the unit
that was finished last.
-/

namespace Analysis

open Relation Connected DepthFirst OrderedMap SortDedup Json Protocol Std

inductive AnalysisDependencyKind
  | workspaceMember
  | localPath
  | manifestDependency
  | sourceImport
  | context
deriving DecidableEq

inductive AnalysisDependencyResolution
  | resolved
  | external
  | unknown
deriving DecidableEq

/-- The fields of `AnalysisDependencyReference` that the groups depend on. -/
structure AnalysisDependencyReference where
  targetUnitId : Option String
  kind : AnalysisDependencyKind
  resolution : AnalysisDependencyResolution

/-- A unit with its references. -/
structure ReferringUnit extends AnalysisUnit where
  dependencyReferences : List AnalysisDependencyReference

/-- The units of `AnalysisPlan`. Plans with two units of one id are refused when they are read. -/
structure AnalysisPlan where
  units : List ReferringUnit
  nodup : (units.map fun unit => unit.id).Nodup

def AnalysisPlan.unit (plan : AnalysisPlan) (id : String) : Option ReferringUnit :=
  plan.units.find? fun unit => unit.id = id

def inputDependencyIds (unit : ReferringUnit) : List String :=
  (unit.dependencyReferences.filter fun reference =>
    reference.kind ≠ .workspaceMember ∧ reference.resolution = .resolved).filterMap
      (·.targetUnitId)

/-- The units that each unit depends on. -/
def adjacencyOf (plan : AnalysisPlan) : ExtTreeMap String (List String) :=
  (indexed (fun unit => unit.id) plan.units).map fun _ unit =>
    exact id ((inputDependencyIds unit).filter fun target => (plan.unit target).isSome)

/-- The units that depend on each unit. -/
def reverseOf (adjacency : ExtTreeMap String (List String)) : ExtTreeMap String (List String) :=
  (adjacency.toList.flatMap fun entry => entry.2.map fun target => (target, entry.1)).foldl
    appendUnder ∅

/-- What is listed under an id. -/
def listedUnder (lists : ExtTreeMap String (List String)) (id : String) : List String :=
  lists[id]?.getD []

/-- `ContextGroup` with its id. -/
structure IdentifiedGroup extends ContextGroup where
  id : String

/-! ### The order in which units are finished -/

/-- The variables of `finish_order`. The head of the list is the top of the stack. -/
structure FinishOrder where
  stack : List (String × Nat)
  visited : ExtTreeSet String
  order : List String

/-- A turn of its loop. Every target is a unit, so that the lookup in the adjacency succeeds. -/
def finishTurn (adjacency : ExtTreeMap String (List String)) (search : FinishOrder) :
    Option FinishOrder :=
  match search.stack with
  | [] => none
  | (current, next) :: stack =>
    match (listedUnder adjacency current)[next]? with
    | some target =>
      if target ∈ search.visited then some { search with stack := (current, next + 1) :: stack }
      else some { search with
        stack := (target, 0) :: (current, next + 1) :: stack
        visited := search.visited.insert target }
    | none => some { search with stack, order := search.order ++ [current] }

/-- `finish_order`. There is a turn for every unit and every target. -/
def finishOrder (adjacency : ExtTreeMap String (List String)) (search : FinishOrder) (id : String) :
    FinishOrder :=
  if id ∈ search.visited then search
  else loop (finishTurn adjacency) (adjacency.toList.map fun entry => entry.2.length + 1).sum
    { search with stack := [(id, 0)], visited := search.visited.insert id }

/-! ### The units of a group -/

/-- The variables of `collect_component`. -/
structure CollectComponent where
  stack : List String
  visited : ExtTreeSet String
  component : List String

/-- A turn of its loop. -/
def collectTurn (reverse : ExtTreeMap String (List String)) (search : CollectComponent) :
    Option CollectComponent :=
  match search.stack with
  | [] => none
  | current :: stack =>
    if current ∈ search.visited then some { search with stack }
    else some {
      stack := (listedUnder reverse current).reverse ++ stack
      visited := search.visited.insert current
      component := search.component ++ [current] }

/-- `collect_component`. There is a turn for every node that has been put on the stack. -/
def collectComponent (reverse : ExtTreeMap String (List String)) (id : String)
    (visited : ExtTreeSet String) : CollectComponent :=
  loop (collectTurn reverse) ((reverse.keys.map fun id => (listedUnder reverse id).length).sum + 1)
    ⟨[id], visited, []⟩

/-! ### The groups -/

/-- The group of these units. -/
def contextGroup (S : StableIds) (adjacency : ExtTreeMap String (List String))
    (component : List String) : IdentifiedGroup :=
  let cyclic := decide (1 < component.length) ||
    component.head?.any fun only => (listedUnder adjacency only).contains only
  { id := S.stableIdFromValue "analysis-context-group" (.object [
      ("contract_version", .string "depgraph-analysis-split-plan-v1"),
      ("unit_ids", jsonStrings component), ("cyclic", .bool cyclic)])
    unitIds := component
    cyclic }

/-- A turn of the loop over the units, from the one that was finished last. -/
def groupTurn (S : StableIds) (adjacency : ExtTreeMap String (List String))
    (state : ExtTreeSet String × ExtTreeMap String IdentifiedGroup) (unitId : String) :
    ExtTreeSet String × ExtTreeMap String IdentifiedGroup :=
  if unitId ∈ state.1 then state
  else
    let collected := collectComponent (reverseOf adjacency) unitId state.1
    let component := sortByKey id collected.component
    (collected.visited, insertAll state.2 (component.map fun member =>
      (member, contextGroup S adjacency component)))

def contextGroups (S : StableIds) (plan : AnalysisPlan) : ExtTreeMap String IdentifiedGroup :=
  let adjacency := adjacencyOf plan
  let search := adjacency.keys.foldl (finishOrder adjacency) ⟨[], ∅, []⟩
  (search.order.reverse.foldl (groupTurn S adjacency) (∅, ∅)).2

/-- A unit has a resolved input dependency on another. -/
def DependsOn (plan : AnalysisPlan) (x y : String) : Prop :=
  ∃ unit ∈ plan.units, unit.id = x ∧ y ∈ inputDependencyIds unit ∧
    ∃ target ∈ plan.units, target.id = y

/-! ### Dependencies -/

section Dependencies

variable {plan : AnalysisPlan} {x y : String}

theorem unit_isSome : (plan.unit x).isSome = true ↔ ∃ unit ∈ plan.units, unit.id = x := by
  rw [AnalysisPlan.unit, List.find?_isSome]
  simp only [decide_eq_true_eq]

theorem mem_adjacency : x ∈ adjacencyOf plan ↔ ∃ unit ∈ plan.units, unit.id = x := by
  rw [adjacencyOf, ExtTreeMap.mem_map, mem_iff]
  simp only [getElem?_indexed plan.nodup]

theorem mem_listedUnder_adjacency :
    y ∈ listedUnder (adjacencyOf plan) x ↔ DependsOn plan x y := by
  rw [listedUnder, adjacencyOf, ExtTreeMap.getElem?_map]
  cases hunit : (indexed (fun unit : ReferringUnit => unit.id) plan.units)[x]? with
  | none =>
    refine iff_of_false List.not_mem_nil ?_
    rintro ⟨unit, hmem, rfl, -⟩
    rw [(getElem?_indexed plan.nodup).2 ⟨hmem, rfl⟩] at hunit
    cases hunit
  | some unit =>
    obtain ⟨hmem, rfl⟩ := (getElem?_indexed plan.nodup).1 hunit
    rw [Option.map_some, Option.getD_some, mem_exact Function.injective_id, List.mem_filter,
      unit_isSome]
    constructor
    · exact fun hy => ⟨unit, hmem, rfl, hy⟩
    · rintro ⟨other, hother, hid, hy⟩
      obtain rfl : other = unit := List.inj_on_of_nodup_map plan.nodup hother hmem hid
      exact hy

theorem edge_eq : Edge (listedUnder (adjacencyOf plan)) = DependsOn plan := by
  funext x y
  exact propext mem_listedUnder_adjacency

theorem DependsOn.source (h : DependsOn plan x y) : x ∈ adjacencyOf plan := by
  obtain ⟨unit, hmem, rfl, -⟩ := h
  exact mem_adjacency.2 ⟨unit, hmem, rfl⟩

theorem DependsOn.target (h : DependsOn plan x y) : y ∈ adjacencyOf plan := by
  obtain ⟨-, -, -, -, htarget⟩ := h
  exact mem_adjacency.2 htarget

end Dependencies

theorem mem_listEntries {lists : ExtTreeMap String (List String)} {k v : String} :
    (k, v) ∈ listEntries lists ↔ v ∈ listedUnder lists k := by
  rw [(listEntries_perm lists k).mem_iff, List.mem_append, List.mem_map]
  constructor
  · rintro (⟨w, hw, heq⟩ | hrest)
    · obtain rfl := (Prod.mk.inj heq).2
      exact hw
    · obtain ⟨listed, hlisted, hv⟩ := List.mem_flatMap.1 hrest
      obtain ⟨w, -, heq⟩ := List.mem_map.1 hv
      rw [mem_toList, (Prod.mk.inj heq).1, getElem?_erase, if_pos rfl] at hlisted
      cases hlisted
  · exact fun hv => Or.inl ⟨v, hv, rfl⟩

/-- The reverse lists have the edges the other way round. -/
theorem mem_listedUnder_reverse {adjacency : ExtTreeMap String (List String)} {x y : String} :
    x ∈ listedUnder (reverseOf adjacency) y ↔ y ∈ listedUnder adjacency x := by
  rw [← mem_listEntries, reverseOf, (listEntries_appendAll _ ∅).mem_iff, listEntries_empty, List.nil_append,
    List.mem_flatMap]
  constructor
  · rintro ⟨⟨z, targets⟩, hlisted, hmem⟩
    obtain ⟨target, htarget, heq⟩ := List.mem_map.1 hmem
    obtain ⟨rfl, rfl⟩ := Prod.mk.inj heq
    rw [mem_toList] at hlisted
    rw [listedUnder, hlisted]
    exact htarget
  · intro hy
    cases hlisted : adjacency[x]? with
    | none => simp [listedUnder, hlisted] at hy
    | some targets =>
      rw [listedUnder, hlisted] at hy
      exact ⟨(x, targets), mem_toList.2 hlisted, List.mem_map.2 ⟨y, hy, rfl⟩⟩

/-! ### The first search -/

section Finish

variable {adjacency : ExtTreeMap String (List String)} {search next : FinishOrder}

/-- The search that the variables stand for. -/
def FinishOrder.state (adjacency : ExtTreeMap String (List String)) (search : FinishOrder) :
    State String where
  stack := search.stack.map fun frame =>
    (frame.1, (listedUnder adjacency frame.1).drop frame.2)
  visited k := k ∈ search.visited
  order := search.order

theorem mem_insert_iff {visited : ExtTreeSet String} {target : String} :
    (fun k => k ∈ visited.insert target) = fun k => k = target ∨ k ∈ visited := by
  funext k
  exact propext mem_insert

theorem finishTurn_turn (h : finishTurn adjacency search = some next) :
    Turn (listedUnder adjacency) (search.state adjacency) (next.state adjacency) := by
  obtain ⟨stack, visited, order⟩ := search
  unfold finishTurn at h
  cases stack with
  | nil => cases h
  | cons frame stack =>
    obtain ⟨current, place⟩ := frame
    dsimp only at h
    cases htarget : (listedUnder adjacency current)[place]? with
    | none =>
      rw [htarget] at h
      obtain rfl := Option.some.inj h
      have hleft : (listedUnder adjacency current).drop place = [] :=
        List.drop_eq_nil_of_le (List.getElem?_eq_none_iff.1 htarget)
      simp only [FinishOrder.state, List.map_cons, hleft]
      exact .finish
    | some target =>
      obtain ⟨hplace, htarget'⟩ := List.getElem?_eq_some_iff.1 htarget
      have hleft : (listedUnder adjacency current).drop place =
          target :: (listedUnder adjacency current).drop (place + 1) := by
        rw [List.drop_eq_getElem_cons hplace, htarget']
      rw [htarget] at h
      dsimp only at h
      by_cases hvisited : target ∈ visited
      · rw [if_pos hvisited] at h
        obtain rfl := Option.some.inj h
        simp only [FinishOrder.state, List.map_cons, hleft]
        exact .known hvisited
      · rw [if_neg hvisited] at h
        obtain rfl := Option.some.inj h
        simp only [FinishOrder.state, List.map_cons, hleft, List.drop_zero, mem_insert_iff]
        exact .visit hvisited

theorem finishTurn_eq_none (h : finishTurn adjacency search = none) : search.stack = [] := by
  unfold finishTurn at h
  cases hstack : search.stack with
  | nil => rfl
  | cons frame stack =>
    rw [hstack] at h
    dsimp only at h
    cases htarget : (listedUnder adjacency frame.1)[frame.2]? with
    | none =>
      rw [htarget] at h
      cases h
    | some target =>
      rw [htarget] at h
      dsimp only at h
      split_ifs at h

theorem sum_nodeCost : (adjacency.keys.map (nodeCost (listedUnder adjacency))).sum =
    (adjacency.toList.map fun entry => entry.2.length + 1).sum := by
  rw [← ExtTreeMap.map_fst_toList_eq_keys, List.map_map]
  congr 1
  refine List.map_congr_left fun entry hentry => ?_
  rw [mem_toList] at hentry
  rw [Function.comp_apply, nodeCost, listedUnder, hentry, Option.getD_some]

/-- The first search finishes all units. -/
theorem searches_finishOrder (htargets : ∀ k, ∀ t ∈ listedUnder adjacency k, t ∈ adjacency) :
    Searches (listedUnder adjacency) adjacency.keys (finishTurn adjacency) (finishOrder adjacency)
      fun s search => s.state adjacency = search where
  nodup := ExtTreeMap.nodup_keys
  targets_mem k t ht := ExtTreeMap.mem_keys.2 (htargets k t ht)
  turns := by
    rintro s search next - rfl hnext
    exact ⟨_, finishTurn_turn hnext, rfl⟩
  stops := by
    rintro s search rfl hnone
    rw [FinishOrder.state, finishTurn_eq_none hnone]
    rfl
  knows := by
    rintro s search k rfl hk
    exact if_pos hk
  enters := by
    rintro s search k rfl - hk -
    refine ⟨_, _, if_neg hk, sum_nodeCost.le, ?_⟩
    simp only [FinishOrder.state, List.map_cons, List.map_nil, List.drop_zero, mem_insert_iff]

/-- The order in which the units of a plan are finished. -/
theorem finishOrder_finishing (plan : AnalysisPlan) :
    ∃ order, ((adjacencyOf plan).keys.foldl (finishOrder (adjacencyOf plan)) ⟨[], ∅, []⟩).order =
      order ∧ order.Perm (adjacencyOf plan).keys ∧ Finishing (DependsOn plan) order := by
  have hsearches := @searches_finishOrder (adjacencyOf plan) fun k t ht =>
    (mem_listedUnder_adjacency.1 ht).target
  obtain ⟨search, hsearch, hperm, hfinishing⟩ := hsearches.finished (s := ⟨[], ∅, []⟩) (by
    simp only [FinishOrder.state, List.map_nil, ExtTreeSet.not_mem_empty])
  rw [edge_eq] at hfinishing
  subst hsearch
  exact ⟨_, rfl, hperm, hfinishing⟩

end Finish

/-! ### The second search -/

section Collect

variable {plan : AnalysisPlan} {unitId : String} {seen : String → Prop}

/-- What holds between turns: the visited nodes are the seen and the gathered ones. -/
structure Collecting (plan : AnalysisPlan) (unitId : String) (seen : String → Prop)
    (search : CollectComponent) : Prop where
  gathers : Gathers (DependsOn plan) unitId seen search.stack search.component
  visited_iff : ∀ k, k ∈ search.visited ↔ seen k ∨ k ∈ search.component

/-- The number of nodes that lead to a node. -/
def leading (reverse : ExtTreeMap String (List String)) (k : String) : Nat :=
  (listedUnder reverse k).length

/-- The turns that are left. -/
noncomputable def collectPending (reverse : ExtTreeMap String (List String))
    (search : CollectComponent) : Nat :=
  search.stack.length + remaining (leading reverse) (· ∈ search.visited) reverse.keys

theorem collectTurn_pending {reverse : ExtTreeMap String (List String)}
    {search next : CollectComponent} (h : collectTurn reverse search = some next) :
    collectPending reverse next < collectPending reverse search := by
  obtain ⟨stack, visited, component⟩ := search
  unfold collectTurn at h
  cases stack with
  | nil => cases h
  | cons current stack =>
    dsimp only at h
    by_cases hvisited : current ∈ visited
    · rw [if_pos hvisited] at h
      obtain rfl := Option.some.inj h
      simp [collectPending]
    · rw [if_neg hvisited] at h
      obtain rfl := Option.some.inj h
      simp only [collectPending, List.length_append, List.length_reverse, List.length_cons]
      by_cases hkey : current ∈ reverse
      · have hcost : remaining (leading reverse) (· ∈ visited) reverse.keys =
            leading reverse current +
              remaining (leading reverse) (· ∈ visited.insert current) reverse.keys :=
          remaining_visit (leading reverse) ExtTreeMap.nodup_keys (ExtTreeMap.mem_keys.2 hkey)
            hvisited fun y => mem_insert
        rw [leading] at hcost
        omega
      · have hnone : (listedUnder reverse current).length = 0 := by
          rw [listedUnder, not_mem_iff.1 hkey]
          rfl
        have hless : remaining (leading reverse) (· ∈ visited.insert current) reverse.keys ≤
            remaining (leading reverse) (· ∈ visited) reverse.keys :=
          remaining_mono (leading reverse) reverse.keys fun y hy => mem_insert.2 (Or.inr hy)
        omega

theorem Collecting.turn {search next : CollectComponent} (h : Collecting plan unitId seen search)
    (hunit : ¬ seen unitId)
    (hedge : ∀ p y, DependsOn plan p y → Mutual (DependsOn plan) unitId y →
      seen p ∨ Mutual (DependsOn plan) unitId p)
    (hturn : collectTurn (reverseOf (adjacencyOf plan)) search = some next) :
    Collecting plan unitId seen next := by
  obtain ⟨stack, visited, component⟩ := search
  unfold collectTurn at hturn
  cases stack with
  | nil => cases hturn
  | cons current stack =>
    dsimp only at hturn
    by_cases hvisited : current ∈ visited
    · rw [if_pos hvisited] at hturn
      obtain rfl := Option.some.inj hturn
      exact ⟨h.gathers.skip hunit ((h.visited_iff current).1 hvisited), h.visited_iff⟩
    · rw [if_neg hvisited] at hturn
      obtain rfl := Option.some.inj hturn
      obtain ⟨hseen, hfresh⟩ := not_or.1 ((not_congr (h.visited_iff current)).1 hvisited)
      refine ⟨h.gathers.take hseen hfresh (fun p => ?_) fun p hp hmutual => ?_, fun k => ?_⟩
      · dsimp only
        rw [List.mem_append, List.mem_reverse, mem_listedUnder_reverse, mem_listedUnder_adjacency]
      · exact hedge p current hp hmutual
      · have hk := h.visited_iff k
        dsimp only at hk ⊢
        rw [mem_insert, hk, List.mem_append, List.mem_singleton]
        tauto

theorem collectTurn_eq_none {reverse : ExtTreeMap String (List String)} {search : CollectComponent}
    (h : collectTurn reverse search = none) : search.stack = [] := by
  unfold collectTurn at h
  cases hstack : search.stack with
  | nil => rfl
  | cons current stack =>
    rw [hstack] at h
    dsimp only at h
    split_ifs at h

/-- **The second search gathers the component of the unit.** -/
theorem collectComponent_spec {visited : ExtTreeSet String}
    (hunit : unitId ∉ visited)
    (hclosed : ∀ y z, y ∈ visited → Mutual (DependsOn plan) y z → z ∈ visited)
    (hedge : ∀ p y, DependsOn plan p y → Mutual (DependsOn plan) unitId y →
      p ∈ visited ∨ Mutual (DependsOn plan) unitId p) :
    let collected := collectComponent (reverseOf (adjacencyOf plan)) unitId visited
    collected.component.Nodup ∧
      (∀ k, k ∈ collected.component ↔ Mutual (DependsOn plan) unitId k) ∧
      ∀ k, k ∈ collected.visited ↔ k ∈ visited ∨ Mutual (DependsOn plan) unitId k := by
  intro collected
  have hstart : Collecting plan unitId (· ∈ visited) ⟨[unitId], visited, []⟩ :=
    ⟨.start, fun k => (or_iff_left List.not_mem_nil).symm⟩
  have hfuel : collectPending (reverseOf (adjacencyOf plan)) ⟨[unitId], visited, []⟩ ≤
      ((reverseOf (adjacencyOf plan)).keys.map (leading (reverseOf (adjacencyOf plan)))).sum + 1 := by
    rw [collectPending, List.length_singleton, Nat.add_comm]
    exact Nat.add_le_add_right (remaining_le _ _ _) 1
  obtain ⟨⟨-, hcollected, -⟩, hnone⟩ := loop_induction (collectTurn (reverseOf (adjacencyOf plan)))
    (P := fun search n => Collecting plan unitId (· ∈ visited) search ∧
      collectPending (reverseOf (adjacencyOf plan)) search = n)
    (fun search n hP next hnext => by
      obtain ⟨hsearch, rfl⟩ := hP
      exact ⟨_, collectTurn_pending hnext, hsearch.turn hunit hedge hnext, rfl⟩)
    ⟨hstart, rfl⟩ hfuel
  have hgathers := hcollected.gathers
  rw [collectTurn_eq_none hnone] at hgathers
  have hmem (k : String) : k ∈ collected.component ↔ Mutual (DependsOn plan) unitId k :=
    hgathers.mem_iff hclosed hunit
  exact ⟨hgathers.nodup, hmem, fun k => (hcollected.visited_iff k).trans (or_congr_right (hmem k))⟩

end Collect

/-! ### The groups of a plan -/

section Groups

variable {S : StableIds} {plan : AnalysisPlan}

/-- The group of a component. -/
def IsGroupOf (S : StableIds) (plan : AnalysisPlan) (x : String) (group : IdentifiedGroup) : Prop :=
  ∃ found : List String, found.Nodup ∧ (∀ k, k ∈ found ↔ Mutual (DependsOn plan) x k) ∧
    group = contextGroup S (adjacencyOf plan) (sortByKey id found)

theorem IsGroupOf.mem_iff {x k : String} {group : IdentifiedGroup} (h : IsGroupOf S plan x group) :
    k ∈ group.unitIds ↔ Mutual (DependsOn plan) x k := by
  obtain ⟨found, -, hfound, rfl⟩ := h
  exact (mem_sortByKey id).trans (hfound k)

theorem IsGroupOf.unique {x y : String} {group other : IdentifiedGroup}
    (h : IsGroupOf S plan x group) (hother : IsGroupOf S plan y other)
    (hxy : Mutual (DependsOn plan) x y) : group = other := by
  obtain ⟨found, hnodup, hfound, rfl⟩ := h
  obtain ⟨found', hnodup', hfound', rfl⟩ := hother
  have hperm : found.Perm found' := by
    refine (List.perm_ext_iff_of_nodup hnodup hnodup').2 fun k => ?_
    rw [hfound, hfound']
    exact ⟨hxy.symm.trans, hxy.trans⟩
  rw [sortByKey_congr id ((List.map_id found).symm ▸ hnodup) hperm]

theorem IsGroupOf.nodup {x : String} {group : IdentifiedGroup} (h : IsGroupOf S plan x group) :
    group.unitIds.Nodup := by
  obtain ⟨found, hnodup, -, rfl⟩ := h
  exact (sortByKey_perm id found).nodup_iff.2 hnodup

/-- A group is cyclic exactly if it has two units or one that depends on itself. -/
theorem IsGroupOf.cyclic_iff {x : String} {group : IdentifiedGroup} (h : IsGroupOf S plan x group) :
    group.cyclic = true ↔
      1 < group.unitIds.length ∨ ∃ only, group.unitIds = [only] ∧ DependsOn plan only only := by
  have hx : x ∈ group.unitIds := h.mem_iff.2 (.refl x)
  obtain ⟨found, -, -, rfl⟩ := h
  simp only [contextGroup] at hx ⊢
  rw [Bool.or_eq_true_iff, decide_eq_true_eq]
  rcases hcomponent : sortByKey id found with _ | ⟨first, _ | ⟨second, rest⟩⟩
  · simp [hcomponent] at hx
  · simp [mem_listedUnder_adjacency]
  · simp

/-- What holds after the units that were finished last have been grouped. -/
structure Grouping (S : StableIds) (plan : AnalysisPlan) (later : List String)
    (state : ExtTreeSet String × ExtTreeMap String IdentifiedGroup) : Prop where
  visited_iff : ∀ k, k ∈ state.1 ↔ ∃ z ∈ later, Mutual (DependsOn plan) z k
  grouped_iff : ∀ k, k ∈ state.2 ↔ k ∈ state.1
  group : ∀ k group, state.2[k]? = some group → IsGroupOf S plan k group

/-- Each unit of a new component gets its group. -/
theorem getElem?_insertGroup {groups : ExtTreeMap String IdentifiedGroup} {component : List String}
    {group : IdentifiedGroup} (hnodup : component.Nodup) {k : String} :
    (insertAll groups (component.map fun member => (member, group)))[k]? =
      if k ∈ component then some group else groups[k]? := by
  have hkeys : (component.map fun member => (member, group)).map Prod.fst = component := by
    rw [List.map_map]
    exact List.map_id component
  by_cases hk : k ∈ component
  · rw [if_pos hk]
    exact getElem?_insertAll_of_mem (hkeys.symm ▸ hnodup) (List.mem_map.2 ⟨k, hk, rfl⟩)
  · rw [if_neg hk]
    refine getElem?_insertAll_of_not_mem fun entry hentry => ?_
    obtain ⟨member, hmember, rfl⟩ := List.mem_map.1 hentry
    rintro rfl
    exact hk hmember

theorem Grouping.turn {earlier later : List String} {x : String}
    {state : ExtTreeSet String × ExtTreeMap String IdentifiedGroup}
    (h : Grouping S plan later state)
    (hfinishing : Finishing (DependsOn plan) (earlier ++ x :: later))
    (hnodup : (earlier ++ x :: later).Nodup)
    (hall : ∀ p y, DependsOn plan p y → p ∈ earlier ++ x :: later) :
    Grouping S plan (x :: later) (groupTurn S (adjacencyOf plan) state x) := by
  unfold groupTurn
  by_cases hvisited : x ∈ state.1
  · rw [if_pos hvisited]
    refine ⟨fun k => ?_, h.grouped_iff, h.group⟩
    rw [h.visited_iff]
    constructor
    · rintro ⟨z, hz, hzk⟩
      exact ⟨z, List.mem_cons_of_mem _ hz, hzk⟩
    · rintro ⟨z, hz, hzk⟩
      rcases List.mem_cons.1 hz with rfl | hz
      · obtain ⟨w, hw, hwz⟩ := (h.visited_iff z).1 hvisited
        exact ⟨w, hw, hwz.trans hzk⟩
      · exact ⟨z, hz, hzk⟩
  · rw [if_neg hvisited]
    have hseen (z : String) (hz : z ∈ later) : z ∈ state.1 := (h.visited_iff z).2 ⟨z, hz, .refl z⟩
    have hclosed (y z : String) (hy : y ∈ state.1) (hyz : Mutual (DependsOn plan) y z) :
        z ∈ state.1 := by
      obtain ⟨w, hw, hwy⟩ := (h.visited_iff y).1 hy
      exact (h.visited_iff z).2 ⟨w, hw, hwy.trans hyz⟩
    obtain ⟨hfound, hmem, hvisits⟩ := collectComponent_spec hvisited hclosed fun p y hpy hy =>
      hfinishing.seen_or_mutual hnodup (hall p y hpy) hseen hpy hy
    dsimp only
    set collected := collectComponent (reverseOf (adjacencyOf plan)) x state.1
    have hsorted : (sortByKey id collected.component).Nodup :=
      (sortByKey_perm id collected.component).nodup_iff.2 hfound
    have hmember (k : String) : k ∈ sortByKey id collected.component ↔
        Mutual (DependsOn plan) x k := (mem_sortByKey id).trans (hmem k)
    refine ⟨fun k => ?_, fun k => ?_, fun k group hgroup => ?_⟩
    · rw [hvisits, h.visited_iff, or_comm, List.exists_mem_cons_iff]
    · rw [mem_iff, getElem?_insertGroup hsorted, hvisits, ← h.grouped_iff, mem_iff, ← hmember]
      by_cases hk : k ∈ sortByKey id collected.component
      · rw [if_pos hk]
        exact iff_of_true ⟨_, rfl⟩ (Or.inr hk)
      · rw [if_neg hk, or_iff_left hk]
    · rw [getElem?_insertGroup hsorted] at hgroup
      split_ifs at hgroup with hk
      · obtain rfl := Option.some.inj hgroup
        have hxk := (hmember k).1 hk
        exact ⟨_, hfound, fun z => (hmem z).trans ⟨hxk.symm.trans, hxk.trans⟩, rfl⟩
      · exact h.group k group hgroup

/-- The units are grouped from the one that was finished last. -/
theorem grouping_foldl {order : List String} (hfinishing : Finishing (DependsOn plan) order)
    (hnodup : order.Nodup) (hall : ∀ p y, DependsOn plan p y → p ∈ order) :
    Grouping S plan order (order.reverse.foldl (groupTurn S (adjacencyOf plan)) (∅, ∅)) := by
  suffices hlater : ∀ later earlier, earlier ++ later = order →
      Grouping S plan later (later.reverse.foldl (groupTurn S (adjacencyOf plan)) (∅, ∅)) from
    hlater order [] rfl
  intro later
  induction later with
  | nil =>
    intro _ _
    refine ⟨fun k => ?_, fun k => ?_, fun k group hgroup => ?_⟩
    · simp
    · simp
    · simp at hgroup
  | cons x later ih =>
    intro earlier horder
    rw [List.reverse_cons, List.foldl_append]
    rw [← horder] at hfinishing hnodup hall
    have hlater := ih (earlier ++ [x]) (by rw [List.append_assoc, List.singleton_append, horder])
    exact hlater.turn hfinishing hnodup hall

end Groups

/-- The groups of a plan: every unit stands in one, two units in the same one exactly if the resolved
input dependencies lead from each to the other. -/
structure GroupsUnits (plan : AnalysisPlan) (groups : ExtTreeMap String IdentifiedGroup) : Prop where
  unit_iff : ∀ x, x ∈ groups ↔ ∃ unit ∈ plan.units, unit.id = x
  member : ∀ x (group : IdentifiedGroup), groups[x]? = some group → x ∈ group.unitIds
  single : ∀ x group, groups[x]? = some group →
    ∀ other : IdentifiedGroup, other ∈ values groups → x ∈ other.unitIds → other = group
  share_iff : ∀ x ∈ groups, ∀ y ∈ groups, groups[x]? = groups[y]? ↔ Mutual (DependsOn plan) x y
  nodup : ∀ group : IdentifiedGroup, group ∈ values groups → group.unitIds.Nodup
  cyclic_iff : ∀ group : IdentifiedGroup, group ∈ values groups → (group.cyclic = true ↔
    1 < group.unitIds.length ∨ ∃ only, group.unitIds = [only] ∧ DependsOn plan only only)

/-- **The groups of a plan are the strongly connected components of its units.** -/
theorem groupsUnits_contextGroups (S : StableIds) (plan : AnalysisPlan) :
    GroupsUnits plan (contextGroups S plan) := by
  obtain ⟨order, horder, hperm, hfinishing⟩ := finishOrder_finishing plan
  have hnode (x : String) : x ∈ order ↔ x ∈ adjacencyOf plan :=
    hperm.mem_iff.trans ExtTreeMap.mem_keys
  have hgrouping : Grouping S plan order
      (order.reverse.foldl (groupTurn S (adjacencyOf plan)) (∅, ∅)) :=
    grouping_foldl hfinishing (hperm.nodup_iff.2 ExtTreeMap.nodup_keys)
      fun p y hpy => (hnode p).2 hpy.source
  have hgroups : contextGroups S plan =
      (order.reverse.foldl (groupTurn S (adjacencyOf plan)) (∅, ∅)).2 := by
    rw [← horder]
    rfl
  rw [hgroups]
  -- what is mutual with a unit is a unit
  have hunit (z x : String) (hz : z ∈ order) (hzx : Mutual (DependsOn plan) z x) : x ∈ order := by
    rcases hzx.1.cases_tail with rfl | ⟨w, -, hwx⟩
    · exact hz
    · exact (hnode x).2 hwx.target
  refine ⟨fun x => ?_, fun x group hx => ?_, fun x group hx other hother hmem => ?_,
    fun x hx y hy => ?_, fun group hgroup => ?_, fun group hgroup => ?_⟩
  · rw [hgrouping.grouped_iff, hgrouping.visited_iff, ← mem_adjacency, ← hnode]
    constructor
    · rintro ⟨z, hz, hzx⟩
      exact hunit z x hz hzx
    · exact fun hx => ⟨x, hx, .refl x⟩
  · exact (hgrouping.group x group hx).mem_iff.2 (.refl x)
  · obtain ⟨y, hy⟩ := mem_values.1 hother
    have hyother := hgrouping.group y other hy
    exact hyother.unique (hgrouping.group x group hx) (hyother.mem_iff.1 hmem)
  · obtain ⟨group, hx⟩ := mem_iff.1 hx
    obtain ⟨other, hy⟩ := mem_iff.1 hy
    rw [hx, hy, Option.some.injEq]
    have hxgroup := hgrouping.group x group hx
    have hyother := hgrouping.group y other hy
    constructor
    · rintro rfl
      exact hxgroup.mem_iff.1 (hyother.mem_iff.2 (.refl y))
    · exact hxgroup.unique hyother
  · obtain ⟨x, hx⟩ := mem_values.1 hgroup
    exact (hgrouping.group x group hx).nodup
  · obtain ⟨x, hx⟩ := mem_values.1 hgroup
    exact (hgrouping.group x group hx).cyclic_iff

end Analysis
