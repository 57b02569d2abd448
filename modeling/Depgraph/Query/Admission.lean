import Depgraph.Query.Plan

/-!
# Admitted queries

A run of a query whose plan was admitted never exhausts the limit of the traversal states. The
layer that a search builds has room for as many states as the plan counts at its depth, and each
state that is counted takes some of it.
-/

namespace Query

open Json Protocol OrderedMap Metered Spending LeastUnderKey Std
open Store hiding GraphSnapshot

namespace Executor

variable {E : Executor}

/-! ### States that are counted -/

/-- The traversal states, of which the counter is saturated. -/
def stateSpending (E : Executor) :
    Spending BoundedQueryExecutionMetrics BoundedQueryExecutionError where
  count metrics := metrics.traversalStates
  Fits n := min n u64Max ≤ E.limits.traversalStates
  Other := E.StopsOtherwise
  fits h hn := (min_le_min_right _ h).trans hn

theorem Uncounted.idle {α : Type} {x : Execution α} (h : E.Uncounted x) :
    E.stateSpending.Idle x fun _ => True :=
  fun metrics _ => h metrics trivial

theorem spends_incrementState : E.stateSpending.Spends 1 E.incrementState fun k _ => k ≤ 1 := by
  intro metrics hfits
  have hcheck : checkResource "traversal_states" (addU64 metrics.traversalStates 1)
      E.limits.traversalStates = (pure () : Execution Unit) :=
    if_neg (Nat.not_lt.2 hfits)
  have hstep : E.incrementState metrics = E.refreshMemory
      { metrics with traversalStates := addU64 metrics.traversalStates 1 } := by
    change (checkResource _ _ _ >>= fun _ => E.refreshMemory) _ = _
    rw [hcheck]
    rfl
  have hcount : E.stateSpending.Fits (E.stateSpending.count
      { metrics with traversalStates := addU64 metrics.traversalStates 1 } + 0) := by
    refine Nat.le_trans ?_ hfits
    exact le_min ((min_le_left _ _).trans (min_le_left _ _)) (min_le_right _ _)
  obtain ⟨herror, hok⟩ := uncounted_refreshMemory.idle _ hcount
  rw [hstep]
  refine ⟨herror, fun a s' ha => ?_⟩
  obtain ⟨k, hk, hle, -⟩ := hok a s' ha
  obtain rfl := Nat.le_zero.1 hk
  exact ⟨1, Nat.le_refl _, Nat.le_trans hle (min_le_left _ _), Nat.le_refl _⟩

section States

variable {query : TypedQueryAst} {snapshot : QueriedSnapshot} {source : String} {depth : Nat}

/-- The states that a plan counts at a depth. -/
def plannedStates (query : TypedQueryAst) (snapshot : QueriedSnapshot) (depth : Nat) : Nat :=
  snapshot.nodes.length * (eligibleEdges query snapshot).length.choose depth

/-- A layer with the states of trails, whose room falls by what is counted. -/
abbrev RoomFor (E : Executor) (query : TypedQueryAst) (snapshot : QueriedSnapshot)
    (source : String) (depth : Nat) (before : ExtTreeMap StateKey Witness) (k : Nat)
    (after : ExtTreeMap StateKey Witness) : Prop :=
  E.Within source depth after ∧ k + (plannedStates query snapshot depth - after.size) ≤
    plannedStates query snapshot depth - before.size

theorem of_getElem?_keepLess {known : ExtTreeMap StateKey Witness} {key other : StateKey}
    {item witness : Witness} (h : (keepLess witnessOrder known key item)[other]? = some witness) :
    known[other]? = some witness ∨ key = other ∧ item = witness := by
  have of_insert (h : (known.insert key item)[other]? = some witness) :
      known[other]? = some witness ∨ key = other ∧ item = witness := by
    rw [getElem?_insert] at h
    split_ifs at h with hkey
    · exact .inr ⟨hkey.symm, Option.some.inj h⟩
    · exact .inl h
  unfold keepLess at h
  split at h
  · exact of_insert h
  · split_ifs at h
    · exact of_insert h
    · exact .inl h

theorem size_keepLess_of_none {known : ExtTreeMap StateKey Witness} {key : StateKey}
    (h : known[key]? = none) (item : Witness) :
    (keepLess witnessOrder known key item).size = known.size + 1 := by
  unfold keepLess
  rw [h]
  exact ExtTreeMap.size_insert.trans (if_neg (not_mem_iff.2 h))

theorem size_keepLess_of_some {known : ExtTreeMap StateKey Witness} {key : StateKey}
    {other : Witness} (h : known[key]? = some other) (item : Witness) :
    (keepLess witnessOrder known key item).size = known.size := by
  have hmem : key ∈ known := mem_iff.2 ⟨other, h⟩
  unfold keepLess
  rw [h]
  dsimp only
  split_ifs
  · exact ExtTreeMap.size_insert.trans (if_pos hmem)
  · rfl

theorem spends_enterState (hnew : IsNew query snapshot E) (hsource : source ∈ E.nodes)
    {next : ExtTreeMap StateKey Witness} (hnext : E.Within source depth next)
    {candidate : Witness} (hcandidate : E.Reached source depth candidate) :
    E.stateSpending.Spends (plannedStates query snapshot depth - next.size)
      (E.enterState next candidate) (E.RoomFor query snapshot source depth next) := by
  have hwithin : E.Within source depth
      (keepLess witnessOrder next (StateKey.fromWitness candidate) candidate) := by
    intro key witness hwitness
    rcases of_getElem?_keepLess hwitness with hwitness | ⟨rfl, rfl⟩
    · exact hnext key witness hwitness
    · exact ⟨rfl, hcandidate⟩
  have hroom : (keepLess witnessOrder next (StateKey.fromWitness candidate) candidate).size ≤
      plannedStates query snapshot depth := hwithin.size_le hnew hsource
  cases hknown : next[StateKey.fromWitness candidate]? with
  | none =>
    -- a new state is counted, and the layer has room for it
    have hsize := size_keepLess_of_none hknown candidate
    have hstep : E.enterState next candidate = E.incrementState >>= fun _ =>
        pure (keepLess witnessOrder next (StateKey.fromWitness candidate) candidate) := by
      unfold enterState
      dsimp only
      rw [hknown]
      rfl
    rw [hstep]
    refine (spends_incrementState.weaken (by omega)).bind fun k _ _ hk => ?_
    exact .pure ⟨hwithin, by omega⟩
  | some other =>
    have hsize := size_keepLess_of_some hknown candidate
    have hstep : E.enterState next candidate =
        pure (keepLess witnessOrder next (StateKey.fromWitness candidate) candidate) := by
      unfold enterState
      dsimp only
      rw [hknown]
      rfl
    rw [hstep]
    exact .pure ⟨hwithin, by omega⟩

theorem spends_expandEdge (hnew : IsNew query snapshot E) (hE : E.WellFormed)
    (hsource : source ∈ E.nodes) {witness : Witness} (hwitness : E.Reached source depth witness)
    {edge : EdgeRecord} (hedge : edge ∈ E.outgoing witness.lastNode)
    {next : ExtTreeMap StateKey Witness} (hnext : E.Within source (depth + 1) next) :
    E.stateSpending.Spends (plannedStates query snapshot (depth + 1) - next.size)
      (E.expandEdge witness next edge) (E.RoomFor query snapshot source (depth + 1) next) := by
  unfold expandEdge
  refine uncounted_incrementEdgeTests.idle.then fun _ _ => .ite (fun _ => .pure ?_) fun hgo => ?_
  · exact ⟨hnext, Nat.le_of_eq (Nat.zero_add _)⟩
  · have hgoes : E.GoesOn witness edge :=
      ⟨hedge, fun hused => hgo (.inl hused), not_not.1 fun hmissing => hgo (.inr hmissing)⟩
    have hextend : E.stateSpending.Idle (E.extendWitness witness edge
        (traversedNodeId edge E.query.matchClause.relationship.direction))
        (· = E.extended witness edge) :=
      ((uncounted_extendWitness witness edge _).idle.ensuring (ensures_extendWitness witness edge)).mono
        fun _ _ _ h => h.2
    refine hextend.then fun candidate hcandidate => ?_
    obtain ⟨path, node, htrail, hlength, hpath⟩ := hwitness
    refine spends_enterState hnew hsource hnext ?_
    rw [hcandidate]
    refine ⟨path ++ [edge], E.leadsTo edge, hgoes.trail hE htrail hpath, ?_, hpath.extended hE edge⟩
    rw [List.length_append, hlength]
    rfl

theorem spends_expandState (hnew : IsNew query snapshot E) (hE : E.WellFormed)
    (hsource : source ∈ E.nodes) {witness : Witness} (hwitness : E.Reached source depth witness)
    {next : ExtTreeMap StateKey Witness} (hnext : E.Within source (depth + 1) next) :
    E.stateSpending.Spends (plannedStates query snapshot (depth + 1) - next.size)
      (E.expandState next witness) (E.RoomFor query snapshot source (depth + 1) next) :=
  uncounted_guard.idle.then fun _ _ => Spends.foldlM (E.Within source (depth + 1))
    (fun next => plannedStates query snapshot (depth + 1) - next.size)
    (fun _ hedge _ hacc => spends_expandEdge hnew hE hsource hwitness hedge hacc) hnext

/-- The states that a plan counts at the next depths. -/
def statesAfter (query : TypedQueryAst) (snapshot : QueriedSnapshot) : Nat → Nat → Nat
  | 0, _ => 0
  | left + 1, depth => plannedStates query snapshot (depth + 1) +
      statesAfter query snapshot left (depth + 1)

end States

section Search

variable {query : TypedQueryAst} {snapshot : QueriedSnapshot} {source : NodeRecord}
  {S : StableIds}

theorem spends_layers (hnew : IsNew query snapshot E) (hE : E.WellFormed)
    (htyped : E.query.Typed) (hsource : source.id ∈ E.nodes) (left depth : Nat)
    {current : ExtTreeMap StateKey Witness} (h : E.Layer source.id depth current)
    (staged : Staged) :
    E.stateSpending.Spends (statesAfter query snapshot left depth)
      (E.layers S source left depth current staged) fun _ _ => True := by
  induction left generalizing depth current staged with
  | zero =>
    rw [layers]
    exact uncounted_guard.idle.then fun _ _ =>
      (h.uncounted_stageAt hE htyped hsource staged).idle.then fun _ _ => .pure trivial
  | succ left ih =>
    rw [layers]
    refine uncounted_guard.idle.then fun _ _ =>
      (h.uncounted_stageAt hE htyped hsource staged).idle.then fun staged _ => ?_
    have hempty : E.Within source.id (depth + 1) ∅ := by
      intro key witness hwitness
      rw [ExtTreeMap.getElem?_empty] at hwitness
      cases hwitness
    have hloop := (Spends.foldlM (E.Within source.id (depth + 1))
      (fun next => plannedStates query snapshot (depth + 1) - next.size)
      (fun witness hwitness acc hacc =>
        spends_expandState hnew hE hsource (h.mem_values hwitness) hacc) hempty).ensuring
          (h.next hE)
    rw [statesAfter]
    refine (hloop.weaken ?_).bind fun k next _ hnext => ?_
    · omega
    · obtain ⟨⟨-, hroom⟩, hnext⟩ := hnext
      refine .ite (fun _ => .pure trivial) fun _ => ?_
      exact (ih (depth + 1) hnext staged).weaken (by omega)

/-- The states that a plan counts for a source. -/
def statesOfSource (query : TypedQueryAst) (snapshot : QueriedSnapshot) (depth : Nat) : Nat :=
  1 + statesAfter query snapshot depth 0

theorem add_statesAfter (left depth : Nat) :
    snapshot.nodes.length * edgeSets (eligibleEdges query snapshot).length depth +
        statesAfter query snapshot left depth =
      snapshot.nodes.length * edgeSets (eligibleEdges query snapshot).length (depth + left) := by
  induction left generalizing depth with
  | zero => rfl
  | succ left ih =>
    have hnext := ih (depth + 1)
    rw [edgeSets_succ, Nat.mul_add] at hnext
    rw [statesAfter, plannedStates, ← Nat.add_assoc, hnext]
    congr 2
    omega

theorem statesOfSource_le (hnodes : snapshot.nodes ≠ []) (depth : Nat) :
    statesOfSource query snapshot depth ≤
      snapshot.nodes.length * edgeSets (eligibleEdges query snapshot).length depth := by
  have hsum : snapshot.nodes.length * edgeSets (eligibleEdges query snapshot).length 0 +
      statesAfter query snapshot depth 0 = _ := add_statesAfter depth 0
  have hpos := List.length_pos_iff.2 hnodes
  rw [edgeSets_zero, Nat.mul_one, Nat.zero_add] at hsum
  unfold statesOfSource
  omega

theorem spends_visitSource (hnew : IsNew query snapshot E) (hE : E.WellFormed)
    (htyped : E.query.Typed) (hsource : source.id ∈ E.nodes) (rows : List (List Value)) :
    E.stateSpending.Spends
      (statesOfSource query snapshot E.query.matchClause.relationship.maxDepth)
      (E.visitSource S rows source) fun _ _ => True := by
  refine uncounted_guard.idle.then fun _ _ => ?_
  refine (spends_incrementState.weaken (Nat.le_add_right 1 _)).bind fun k _ _ hk => ?_
  have hlayers := spends_layers hnew hE htyped hsource E.query.matchClause.relationship.maxDepth 0
    (Layer.ofSource source) ⟨∅, rows⟩ (S := S)
  exact hlayers.weaken (by omega)

/-- **There are no more sources than planned.** -/
theorem ensures_sourceNodes_length (hnew : IsNew query snapshot E) (hE : E.WellFormed) :
    Ensures (E.sourceNodes (plannedSourceNodes query snapshot.nodes)) fun sources =>
      sources.length ≤ plannedSourceNodes query snapshot.nodes := by
  unfold sourceNodes
  refine .ite (fun _ => .pure (Nat.zero_le _)) fun hplanned => ?_
  cases hlookup : sourceIdLookup E.query with
  | some id =>
    refine .after fun _ => .pure ?_
    have hone := List.length_filter_le (fun node =>
      E.sourceKindMatches node && E.sourcePredicatesMatch node) (E.nodes[id]?).toList
    have hmost : (E.nodes[id]?).toList.length ≤ 1 := by cases E.nodes[id]? <;> simp
    omega
  | none =>
    refine (ensures_testSources _).bind ?_
    rintro sources rfl
    refine .pure ?_
    rw [(SortDedup.sortByKey_perm NodeRecord.id _).length_eq]
    rw [hnew.asked] at hlookup
    have hsub : ((values E.nodes).filter E.passes).map NodeRecord.id ⊆
        (snapshot.nodes.filter E.sourceKindMatches).map NodeRecord.id := by
      intro id hid
      obtain ⟨node, hnode, rfl⟩ := List.mem_map.1 hid
      obtain ⟨hnode, hpasses⟩ := List.mem_filter.1 hnode
      obtain ⟨key, hkey⟩ := OrderedMap.mem_values.1 hnode
      rw [passes, Bool.and_eq_true] at hpasses
      exact List.mem_map_of_mem (List.mem_filter.2 ⟨((hnew.nodes _ _).1 hkey).1, hpasses.1⟩)
    have hnodup := (values_ids_nodup hE).sublist ((List.filter_sublist (p := E.passes)).map _)
    have hle := (hnodup.subperm hsub).length_le
    rw [List.length_map, List.length_map] at hle
    refine hle.trans (Nat.le_of_eq ?_)
    rw [← List.countP_eq_length_filter]
    unfold plannedSourceNodes
    rw [hlookup, if_neg (by simp)]
    unfold sourceKindMatches
    rw [hnew.asked]
    cases query.matchClause.source.kind with
    | none => exact congrFun List.countP_true _
    | some kind => rfl

/-- **A run of an admitted query exhausts no states.** -/
theorem spends_runRows (hnew : IsNew query snapshot E) (hE : E.WellFormed)
    (htyped : E.query.Typed) (S : StableIds) :
    E.stateSpending.Spends (plannedSourceNodes query snapshot.nodes *
        statesOfSource query snapshot E.query.matchClause.relationship.maxDepth)
      (E.runRows S (plannedSourceNodes query snapshot.nodes)) fun _ _ => True := by
  refine uncounted_guard.idle.then fun _ _ => ?_
  have hsources : E.stateSpending.Idle (E.sourceNodes (plannedSourceNodes query snapshot.nodes))
      fun sources => E.SearchedFrom sources ∧
        sources.length ≤ plannedSourceNodes query snapshot.nodes :=
    (((uncounted_sourceNodes _).idle.ensuring (ensures_sourceNodes hnew hE)).ensuring
      (ensures_sourceNodes_length hnew hE)).mono fun _ _ _ h => ⟨h.1.2, h.2⟩
  refine hsources.then fun sources hsources => ?_
  have hsearch := Spends.foldlM_each (fun source hsource rows =>
    spends_visitSource hnew hE htyped (S := S)
      (mem_iff.2 ⟨source, (hsources.1.isSource source hsource).known⟩) rows) []
  refine (hsearch.weaken (Nat.mul_le_mul_right _ hsources.2)).bind fun _ rows _ _ => ?_
  refine Spends.weaken ?_ (Nat.zero_le _)
  exact (uncounted_finish rows).idle

end Search

end Executor

section Admitted

open TypeChecker

variable {F floatText : FloatText} {ast : QueryAst} {query : TypedQueryAst} {snapshotId : String}
  {snapshot : QueriedSnapshot} {limits : BoundedQueryLimits}
  {interrupts : Nat → Option BoundedQueryExecutionError} {E : Executor} {S : StableIds}
  {metrics : BoundedQueryExecutionMetrics}

theorem limits_of_new
    (h : Executor.new floatText query snapshotId snapshot limits interrupts = .ok E) :
    E.limits = limits := by
  unfold Executor.new at h
  obtain ⟨-, -, h⟩ := Fallible.bind_eq_ok.1 h
  obtain ⟨nodes, -, h⟩ := Fallible.bind_eq_ok.1 h
  obtain ⟨sites, -, h⟩ := Fallible.bind_eq_ok.1 h
  obtain ⟨edges, -, h⟩ := Fallible.bind_eq_ok.1 h
  obtain rfl := Except.ok.inj h
  rfl

/-- **Admission is sound.** When the planned traversal states are within the limit, no run of the
query ends because the traversal states are exhausted. -/
theorem stopsOtherwise_of_admitted (hcheck : typeCheckBoundedQuery F ast = .ok query)
    (hfew : ast.whereClause.elim 0 existentials ≤ maxQueryExistentialPredicates)
    (hnew : Executor.new floatText query snapshotId snapshot limits interrupts = .ok E)
    (hedges : snapshot.edges.length ≤ u64Max)
    (hadmitted : plannedTraversalStates query snapshot ≤ limits.traversalStates)
    (hmetrics : metrics.traversalStates = 0) {error : BoundedQueryExecutionError}
    (hrun : Metered.run (E.runRows S (plannedSourceNodes query snapshot.nodes)) metrics =
      .error error) : E.StopsOtherwise error := by
  obtain ⟨topLevel, hchecked⟩ := exists_checked hcheck
  have hisNew := isNew_of_new hnew
  have hwell : E.WellFormed := by
    refine hisNew.wellFormed ?_
    rw [(hchecked.keeps_meaning hisNew.asked).1]
    exact hfew.trans (by decide)
  have htyped : E.query.Typed := hisNew.asked ▸ hchecked.typed
  refine (Executor.spends_runRows hisNew hwell htyped S).run ?_ hrun
  have hstates : plannedSourceNodes query snapshot.nodes * Executor.statesOfSource query snapshot
      E.query.matchClause.relationship.maxDepth ≤
        plannedSourceNodes query snapshot.nodes * (snapshot.nodes.length * edgeSets
          (eligibleEdges query snapshot).length query.matchClause.relationship.maxDepth) := by
    rw [hisNew.asked]
    rcases eq_or_ne snapshot.nodes [] with hnone | hsome
    · have hplanned : plannedSourceNodes query snapshot.nodes = 0 := by
        unfold plannedSourceNodes
        rw [hnone]
        split_ifs
        · rfl
        · cases query.matchClause.source.kind <;> rfl
      rw [hplanned, Nat.zero_mul, Nat.zero_mul]
    · exact Nat.mul_le_mul_left _ (Executor.statesOfSource_le hsome _)
  change min (metrics.traversalStates + _) u64Max ≤ E.limits.traversalStates
  rw [hmetrics, Nat.zero_add, limits_of_new hnew]
  unfold plannedTraversalStates at hadmitted
  rw [plannedEligibleEdges_eq _ _ hedges] at hadmitted
  exact ((min_le_min_right _ hstates).trans le_traversalStateBound).trans hadmitted

end Admitted

namespace TypeSample

open TypeChecker

/-- Whether the query is within the limit of the traversal states. -/
def isAdmitted (limits : BoundedQueryLimits) : Bool :=
  match typeCheckBoundedQuery .plain ast with
  | .error _ => false
  | .ok query => plannedTraversalStates query ExecuteSample.snapshot ≤ limits.traversalStates

theorem isAdmitted_noEdges : isAdmitted noEdges = true := by decide +kernel

theorem stopsOtherwise_sample : ∃ (E : Executor) (error : BoundedQueryExecutionError),
    error.code = "query_execution_resource_exhausted" ∧ E.StopsOtherwise error := by
  have houtcome := outcome_noEdges
  have hadmitted := isAdmitted_noEdges
  unfold outcome at houtcome
  unfold isAdmitted at hadmitted
  split at houtcome
  · cases houtcome
  rename_i query hcheck
  rw [hcheck] at hadmitted
  split at houtcome
  · cases houtcome
  rename_i E hnew
  split at houtcome
  · rename_i error hrun
    exact ⟨E, error, Sum.inl.inj (Option.some.inj houtcome),
      stopsOtherwise_of_admitted hcheck (by decide) hnew (by decide) (of_decide_eq_true hadmitted)
        rfl hrun⟩
  · cases houtcome

end TypeSample

end Query
