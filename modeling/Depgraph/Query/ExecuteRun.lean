import Depgraph.Query.ExecuteExact
import Depgraph.Query.RowOrder

/-!
# Runs of bounded queries

The executor of a snapshot has well-formed indexes, and the sources that it does not search from have
no answers. So the rows of a run are the first ones, in the order of the query, of the rows of all
answers: limits and interruptions end a run without rows, but never change them.
-/

namespace Query

open Json Protocol OrderedMap Metered LeastUnderKey Std
open Store hiding GraphSnapshot

/-! ### Indexes of a snapshot -/

theorem foldlM_indexRecords {T : Type} {id : T → String} {message : String} {records : List T}
    {known made : ExtTreeMap String T}
    (h : records.foldlM (indexRecord id message) known = .ok made) (key : String) (record : T) :
    made[key]? = some record ↔ known[key]? = some record ∨ record ∈ records ∧ id record = key := by
  induction records generalizing known with
  | nil =>
    obtain rfl := Except.ok.inj h
    simp
  | cons head records ih =>
    rw [List.foldlM_cons] at h
    obtain ⟨next, hnext, h⟩ := Fallible.bind_eq_ok.1 h
    unfold indexRecord at hnext
    split_ifs at hnext with hmem
    obtain rfl := Except.ok.inj hnext
    rw [ih h, getElem?_insert, List.mem_cons, or_and_right, ← or_assoc]
    refine or_congr ?_ Iff.rfl
    split_ifs with hkey
    · rw [hkey, not_mem_iff.1 hmem]
      simp only [reduceCtorEq, false_or, Option.some.injEq]
      exact ⟨fun h => ⟨h.symm, h ▸ rfl⟩, fun h => h.1.symm⟩
    · refine ⟨.inl, fun h => h.resolve_right ?_⟩
      rintro ⟨rfl, hid⟩
      exact hkey hid.symm

theorem getElem?_indexRecords {T : Type} {id : T → String} {message : String} {records : List T}
    {made : ExtTreeMap String T} (h : indexRecords id message records = .ok made) (key : String)
    (record : T) : made[key]? = some record ↔ record ∈ records ∧ id record = key := by
  rw [foldlM_indexRecords h, ExtTreeMap.getElem?_empty]
  simp

/-- The items under a key, in their order. -/
theorem getElem?_addUnder {T : Type} (key : T → String) (items : List T) (k : String) :
    ((items.foldl (addUnder key) ∅)[k]?).getD [] = items.filter fun item => key item = k := by
  suffices ∀ lists : ExtTreeMap String (List T), ((items.foldl (addUnder key) lists)[k]?).getD [] =
      (lists[k]?).getD [] ++ items.filter fun item => key item = k by
    rw [this, ExtTreeMap.getElem?_empty]
    rfl
  induction items with
  | nil => intro lists; simp
  | cons item items ih =>
    intro lists
    rw [List.foldl_cons, ih, addUnder, getElem?_insert, List.filter_cons]
    by_cases hkey : k = key item
    · rw [if_pos hkey, if_pos (by simp [hkey]), hkey]
      simp
    · rw [if_neg hkey, if_neg (by simpa using Ne.symm hkey)]

section New

variable {floatText : FloatText} {query : TypedQueryAst} {snapshotId : String}
  {snapshot : QueriedSnapshot} {limits : BoundedQueryLimits}
  {interrupts : Nat → Option BoundedQueryExecutionError} {E : Executor}

/-- What an executor is made of. -/
structure IsNew (query : TypedQueryAst) (snapshot : QueriedSnapshot) (E : Executor) : Prop where
  asked : E.query = query
  nodes : ∀ id node, E.nodes[id]? = some node ↔ node ∈ snapshot.nodes ∧ node.id = id
  sites : ∀ id site, E.sites[id]? = some site ↔ site ∈ snapshot.sites ∧ site.id = id
  edges : ∀ id edge, E.edges[id]? = some edge ↔ edge ∈ eligibleEdges query snapshot ∧ edge.id = id
  outgoing : ∀ node edge, edge ∈ E.outgoing node ↔ edge ∈ eligibleEdges query snapshot ∧
    metNodeId edge query.matchClause.relationship.direction = node
  somePredicates : E.somePredicates = query.whereClause.elim [] collectSomePredicates

theorem isNew_of_new
    (h : Executor.new floatText query snapshotId snapshot limits interrupts = .ok E) :
    IsNew query snapshot E := by
  unfold Executor.new at h
  obtain ⟨-, -, h⟩ := Fallible.bind_eq_ok.1 h
  obtain ⟨nodes, hnodes, h⟩ := Fallible.bind_eq_ok.1 h
  obtain ⟨sites, hsites, h⟩ := Fallible.bind_eq_ok.1 h
  obtain ⟨edges, hedges, h⟩ := Fallible.bind_eq_ok.1 h
  obtain rfl := Except.ok.inj h
  refine ⟨rfl, getElem?_indexRecords hnodes, getElem?_indexRecords hsites,
    getElem?_indexRecords hedges, fun node edge => ?_, rfl⟩
  have hunder := getElem?_addUnder
    (fun edge => metNodeId edge query.matchClause.relationship.direction)
    (eligibleEdges query snapshot) node
  have hout : ((((eligibleEdges query snapshot).foldl (addUnder fun edge =>
      metNodeId edge query.matchClause.relationship.direction) ∅)[node]?.map
      (SortDedup.sortByKey EdgeRecord.id)).getD []) = SortDedup.sortByKey EdgeRecord.id
      ((eligibleEdges query snapshot).filter fun edge =>
        metNodeId edge query.matchClause.relationship.direction = node) := by
    rw [← hunder]
    cases ((eligibleEdges query snapshot).foldl (addUnder fun edge =>
      metNodeId edge query.matchClause.relationship.direction) ∅)[node]? <;> rfl
  rw [Executor.outgoing, ExtTreeMap.getElem?_map, hout, SortDedup.mem_sortByKey, List.mem_filter,
    decide_eq_true_iff]

theorem IsNew.wellFormed (h : IsNew query snapshot E)
    (hfew : (query.whereClause.elim [] collectSomePredicates).length ≤ 64) : E.WellFormed where
  nodes id node hnode := ((h.nodes id node).1 hnode).2
  sites id site hsite := ((h.sites id site).1 hsite).2
  outgoing {node edge} := by rw [h.outgoing, h.edges, h.asked, eq_self_iff_true, and_true]
  somePredicates := by rw [h.asked, h.somePredicates]
  few := h.somePredicates ▸ hfew

end New

namespace Executor

variable {E : Executor}

/-! ### Sources -/

theorem beq_string {a b : String} : ((Value.string a == Value.string b) = true) ↔ a = b := by
  rw [← beq_iff_eq (a := a)]
  rfl

/-- An identity that the clause asks for is that of the source. -/
theorem id_of_findSourceId {source target : NodeRecord} {path : List EdgeRecord}
    {expression : TypedExpression} {id : String}
    (hfind : findSourceId E.query.matchClause.source.binding.name expression = some id)
    (hholds : E.holds source target path expression = true) : source.id = id := by
  induction expression using TypedExpression.ind with
  -- an alternative is not searched, as it need not hold
  | or terms => cases hfind
  | and terms ih =>
    rw [findSourceId] at hfind
    rw [holds] at hholds
    induction terms with
    | nil => cases hfind
    | cons term terms ihs =>
      rw [findSourceIdIn, Option.or_eq_some_iff] at hfind
      rw [allHold, Bool.and_eq_true] at hholds
      rcases hfind with hfind | ⟨-, hfind⟩
      · exact ih term List.mem_cons_self hfind hholds.1
      · exact ihs (fun term hterm => ih term (List.mem_cons_of_mem _ hterm)) hfind hholds.2
  | not inner => cases hfind
  | scalar predicate =>
    obtain ⟨⟨binding, entityType, field, scalarType, nullable⟩, operator, operandType⟩ := predicate
    rw [findSourceId] at hfind
    split_ifs at hfind with hfield
    rw [Bool.and_eq_true, beq_iff_eq, beq_iff_eq] at hfield
    obtain ⟨hbinding, hid⟩ := hfield
    dsimp only at hbinding hid hfind
    subst hid
    split at hfind
    case h_1 value =>
      obtain rfl := Option.some.inj hfind
      rw [holds, scalarHolds, if_pos hbinding] at hholds
      exact beq_string.1 hholds
    case h_2 => cases hfind
  | quantifier predicate => cases hfind

/-- What refers to the source only is the same for every trail of it. -/
theorem evaluateExpression_source {source target target' : NodeRecord} {path : List EdgeRecord}
    {witness : Witness} {expression : TypedExpression}
    (h : referencesOnlySource E.query.matchClause.source.binding.name expression = true)
    (index : Nat) :
    E.evaluateExpression source target' witness index expression =
      (E.holds source target path expression, index) := by
  induction expression using TypedExpression.ind with
  | or terms ih =>
    rw [referencesOnlySource] at h
    suffices ∀ matched, E.evaluateOr source target' witness index matched terms =
        (matched || E.anyHolds source target path terms, index) by
      rw [evaluateExpression, holds, this, Bool.false_or]
    induction terms with
    | nil => simp [evaluateOr, anyHolds]
    | cons term terms ihs =>
      intro matched
      rw [termsReferenceOnlySource, Bool.and_eq_true] at h
      rw [evaluateOr, ih term List.mem_cons_self h.1]
      dsimp only
      rw [ihs (fun term hterm => ih term (List.mem_cons_of_mem _ hterm)) h.2, anyHolds,
        Bool.or_assoc]
  | and terms ih =>
    rw [referencesOnlySource] at h
    suffices ∀ matched, E.evaluateAnd source target' witness index matched terms =
        (matched && E.allHold source target path terms, index) by
      rw [evaluateExpression, holds, this, Bool.true_and]
    induction terms with
    | nil => simp [evaluateAnd, allHold]
    | cons term terms ihs =>
      intro matched
      rw [termsReferenceOnlySource, Bool.and_eq_true] at h
      rw [evaluateAnd, ih term List.mem_cons_self h.1]
      dsimp only
      rw [ihs (fun term hterm => ih term (List.mem_cons_of_mem _ hterm)) h.2, allHold,
        Bool.and_assoc]
  | not inner ih =>
    rw [referencesOnlySource] at h
    rw [evaluateExpression, ih h, holds]
  | scalar predicate =>
    have hbinding : predicate.field.binding = E.query.matchClause.source.binding.name :=
      beq_iff_eq.1 h
    rw [evaluateExpression, holds, evaluateTopScalar, scalarHolds, if_pos hbinding,
      if_pos hbinding]
  | quantifier predicate => cases h

theorem allHold_iff {source target : NodeRecord} {path : List EdgeRecord}
    {terms : List TypedExpression} : E.allHold source target path terms = true ↔
      ∀ term ∈ terms, E.holds source target path term = true := by
  induction terms with
  | nil => simp [allHold]
  | cons term terms ih => rw [allHold, Bool.and_eq_true, ih, List.forall_mem_cons]

/-- **The test of a source loses no answer.** -/
theorem sourcePredicatesMatch_of_holds {source target : NodeRecord} {path : List EdgeRecord}
    (h : E.whereHolds source target path = true) : E.sourcePredicatesMatch source = true := by
  unfold whereHolds at h
  have hterm {expression : TypedExpression} (hholds : E.holds source target path expression = true)
      (honly : referencesOnlySource E.query.matchClause.source.binding.name expression = true) :
      (E.evaluateExpression source source (Witness.ofSource source) 0 expression).1 = true := by
    have heval : E.evaluateExpression source source (Witness.ofSource source) 0 expression =
        (E.holds source target path expression, 0) := evaluateExpression_source honly 0
    rw [heval]
    exact hholds
  unfold sourcePredicatesMatch
  cases hclause : E.query.whereClause with
  | none => rfl
  | some expression =>
    rw [hclause, Option.all_some] at h
    cases expression with
    -- of a conjunction, the terms on the source alone are tested
    | and terms =>
      rw [holds, allHold_iff] at h
      refine List.all_eq_true.2 fun term hmem => ?_
      obtain ⟨hmem, honly⟩ := List.mem_filter.1 hmem
      exact hterm (h term hmem) honly
    | _ =>
      dsimp only
      rw [Bool.or_eq_true, Bool.not_eq_true', ← Bool.not_eq_true]
      exact or_iff_not_imp_left.2 fun honly => hterm h (not_not.1 honly)

/-- A source of the pattern, from which a search may have answers. -/
structure IsSource (E : Executor) (source : NodeRecord) : Prop where
  known : E.nodes[source.id]? = some source
  kind : E.sourceKindMatches source = true

/-- A test of a source, of those with the kind and the predicates of the pattern. -/
def passes (E : Executor) (node : NodeRecord) : Bool :=
  E.sourceKindMatches node && E.sourcePredicatesMatch node

theorem ensures_testSources (nodes : List NodeRecord) :
    Ensures (nodes.foldlM E.testSource []) (· = nodes.filter E.passes) := by
  refine Ensures.foldlM (motive := fun (done : List NodeRecord) sources =>
    sources = done.filter E.passes) rfl ?_
  rintro done node sources - rfl
  have hstep : (done ++ [node]).filter E.passes =
      if E.passes node then done.filter E.passes ++ [node] else done.filter E.passes := by
    rw [List.filter_append, List.filter_singleton]
    cases E.passes node <;> simp
  rw [hstep]
  unfold testSource passes
  cases E.sourceKindMatches node with
  | false => exact .pure rfl
  | true => exact .after fun _ => .pure rfl

theorem values_ids_nodup (hE : E.WellFormed) : ((values E.nodes).map NodeRecord.id).Nodup := by
  have hkeys : (values E.nodes).map NodeRecord.id = E.nodes.toList.map Prod.fst := by
    rw [values, List.map_map]
    exact List.map_congr_left fun entry hentry => hE.nodes _ _ (mem_toList.1 hentry)
  exact hkeys ▸ keys_nodup

/-- The sources from which a run searches. -/
structure SearchedFrom (E : Executor) (sources : List NodeRecord) : Prop where
  order : sources.Pairwise fun a b => a.id < b.id
  isSource : ∀ source ∈ sources, E.IsSource source
  complete : ∀ source, E.IsSource source → (∃ target path, E.IsAnswer source target path) →
    source ∈ sources

theorem IsSource.passes {source target : NodeRecord} {path : List EdgeRecord}
    (h : E.IsSource source) (hanswer : E.IsAnswer source target path) :
    E.passes source = true := by
  rw [Executor.passes, h.kind, sourcePredicatesMatch_of_holds hanswer.isMatch.clause]
  rfl

/-- Without a planned source there is none. -/
theorem not_isSource_of_planned {query : TypedQueryAst} {snapshot : QueriedSnapshot}
    (h : IsNew query snapshot E) (hplanned : plannedSourceNodes query snapshot.nodes = 0)
    (source : NodeRecord) : ¬ E.IsSource source := by
  intro hsource
  have hmem := ((h.nodes _ _).1 hsource.known).1
  have hpos := List.length_pos_of_mem hmem
  have hkind := hsource.kind
  rw [sourceKindMatches, h.asked] at hkind
  unfold plannedSourceNodes at hplanned
  split_ifs at hplanned with hlookup
  · omega
  · cases hpattern : query.matchClause.source.kind with
    | none =>
      rw [hpattern] at hplanned
      exact hpos.ne' hplanned
    | some kind =>
      rw [hpattern] at hplanned hkind
      exact List.countP_eq_zero.1 hplanned source hmem hkind

/-- **The sources of a run** are nodes of the pattern, and no source with an answer is left out. -/
theorem ensures_sourceNodes {query : TypedQueryAst} {snapshot : QueriedSnapshot}
    (h : IsNew query snapshot E) (hE : E.WellFormed) :
    Ensures (E.sourceNodes (plannedSourceNodes query snapshot.nodes)) E.SearchedFrom := by
  unfold sourceNodes
  refine .ite (fun hplanned => .pure ⟨.nil, by simp, fun source hsource _ => ?_⟩) fun _ => ?_
  · exact (not_isSource_of_planned h hplanned source hsource).elim
  cases hlookup : sourceIdLookup E.query with
  | some id =>
    refine .after fun _ => .pure ⟨?_, fun source hsource => ?_, fun source hsource hanswer => ?_⟩
    · cases E.nodes[id]? with
      | none => exact .nil
      | some node => exact (List.pairwise_singleton _ node).sublist List.filter_sublist
    · obtain ⟨hnode, hpasses⟩ := List.mem_filter.1 hsource
      rw [Option.mem_toList] at hnode
      rw [Bool.and_eq_true] at hpasses
      exact ⟨hE.nodes _ _ hnode ▸ hnode, hpasses.1⟩
    · obtain ⟨target, path, hanswer⟩ := hanswer
      obtain ⟨expression, hclause, hfind⟩ := Option.bind_eq_some_iff.1 hlookup
      have hclause' := hanswer.isMatch.clause
      rw [whereHolds, hclause, Option.all_some] at hclause'
      have hid := id_of_findSourceId hfind hclause'
      refine List.mem_filter.2 ⟨?_, hsource.passes hanswer⟩
      rw [Option.mem_toList, ← hid]
      exact hsource.known
  | none =>
    refine (ensures_testSources _).bind ?_
    rintro sources rfl
    refine .pure ⟨SortDedup.sortByKey_strict _ ?_, fun source hsource => ?_,
      fun source hsource hanswer => ?_⟩
    · exact (values_ids_nodup hE).sublist (List.filter_sublist.map _)
    · rw [SortDedup.mem_sortByKey, List.mem_filter, OrderedMap.mem_values] at hsource
      obtain ⟨⟨id, hnode⟩, hpasses⟩ := hsource
      rw [passes, Bool.and_eq_true] at hpasses
      exact ⟨hE.nodes _ _ hnode ▸ hnode, hpasses.1⟩
    · obtain ⟨target, path, hanswer⟩ := hanswer
      rw [SortDedup.mem_sortByKey, List.mem_filter, OrderedMap.mem_values]
      exact ⟨⟨source.id, hsource.known⟩, hsource.passes hanswer⟩

/-! ### Runs -/

/-- The rows, when all answers of some sources have been staged: by source, depth and target. -/
structure RunAnswered (E : Executor) (S : StableIds) (isSource : NodeRecord → Prop)
    (rows : List (List Value)) (answers : List (NodeRecord × NodeRecord × List EdgeRecord))
    (made : List (List Value)) : Prop where
  mem_iff : ∀ source target path,
    (source, target, path) ∈ answers ↔ isSource source ∧ E.IsAnswer source target path
  order : answers.Pairwise fun a b =>
    a.1.id < b.1.id ∨ a.1.id = b.1.id ∧ Before a.2 b.2
  projected : List.Forall₂ (fun answer row => E.IsRow S answer.1 answer.2 row) answers made
  rows : rows = made.foldl E.stage []

theorem ensures_visitSources (hE : E.WellFormed) (S : StableIds) {sources : List NodeRecord}
    (hsources : E.SearchedFrom sources) :
    Ensures (sources.foldlM (E.visitSource S) []) fun rows =>
      ∃ answers made, E.RunAnswered S E.IsSource rows answers made := by
  have hloop : Ensures (sources.foldlM (E.visitSource S) []) fun rows =>
      ∃ answers made, E.RunAnswered S (· ∈ sources) rows answers made := by
    refine Ensures.foldlM (motive := fun (done : List NodeRecord) rows =>
      ∃ answers made, E.RunAnswered S (· ∈ done) rows answers made) ?_ ?_
    · exact ⟨[], [], by simp, .nil, .nil, rfl⟩
    rintro done source rows hdone ⟨answers, made, h⟩
    refine .after fun _ => (ensures_runSource hE S source rows).mono ?_
    rintro next ⟨new, newMade, hnew⟩
    have hbefore : ∀ earlier ∈ done, earlier.id < source.id := fun earlier hearlier =>
      (List.pairwise_append.1 (hsources.order.sublist hdone.sublist)).2.2 earlier hearlier source
        List.mem_cons_self
    refine ⟨answers ++ new.map (source, ·), made ++ newMade, fun source' target path => ?_, ?_, ?_, ?_⟩
    · rw [List.mem_append, h.mem_iff, List.mem_append, List.mem_singleton, or_and_right]
      refine or_congr Iff.rfl ?_
      simp only [List.mem_map, Prod.mk.injEq, exists_eq_right_right]
      constructor
      · rintro ⟨hmem, rfl⟩
        exact ⟨rfl, ((hnew.mem_iff _ _).1 hmem).1⟩
      · rintro ⟨rfl, hanswer⟩
        exact ⟨(hnew.mem_iff _ _).2 ⟨hanswer, trivial⟩, rfl⟩
    · refine List.pairwise_append.2 ⟨h.order, ?_, fun a ha b hb => .inl ?_⟩
      · exact List.pairwise_map.2 (hnew.order.imp fun hlt => .inr ⟨rfl, hlt⟩)
      · obtain ⟨answer, -, rfl⟩ := List.mem_map.1 hb
        exact hbefore a.1 ((h.mem_iff a.1 a.2.1 a.2.2).1 ha).1
    · refine List.rel_append h.projected ?_
      rw [List.forall₂_map_left_iff]
      exact hnew.projected
    · rw [hnew.rows, h.rows, List.foldl_append]
  refine hloop.mono ?_
  rintro rows ⟨answers, made, h⟩
  refine ⟨answers, made, { h with mem_iff := fun source target path => ?_ }⟩
  rw [h.mem_iff]
  refine ⟨fun ⟨hmem, hanswer⟩ => ⟨hsources.isSource _ hmem, hanswer⟩, fun ⟨hsource, hanswer⟩ => ?_⟩
  exact ⟨hsources.complete _ hsource ⟨target, path, hanswer⟩, hanswer⟩

theorem ensures_runRows {query : TypedQueryAst} {snapshot : QueriedSnapshot}
    (h : IsNew query snapshot E) (hE : E.WellFormed) (S : StableIds) :
    Ensures (E.runRows S (plannedSourceNodes query snapshot.nodes)) fun rows =>
      ∃ answers made, E.RunAnswered S E.IsSource rows answers made := by
  refine .after fun _ => (ensures_sourceNodes h hE).bind fun sources hsources => ?_
  refine (ensures_visitSources hE S hsources).bind fun rows hrows => ?_
  exact .after fun _ => .after fun _ => .after fun _ => .after fun _ => .after fun _ => .pure hrows

theorem RunAnswered.sound {S : StableIds} {isSource : NodeRecord → Prop}
    {rows made : List (List Value)} {answers : List (NodeRecord × NodeRecord × List EdgeRecord)}
    (h : E.RunAnswered S isSource rows answers made) : ∀ row ∈ made, ∀ v ∈ row, Sound v := by
  have hprojected := h.projected
  clear h
  induction hprojected with
  | nil => exact fun row hrow => (List.not_mem_nil hrow).elim
  | cons hrow _ ih =>
    obtain ⟨witness, -, hrow⟩ := hrow
    exact List.forall_mem_cons.2 ⟨sound_projectRow hrow, ih⟩

/-- The rows of a run: one for each source and target that a trail of the query joins, projected for
the least of the shortest such trails; sorted, and cut off at the limit. -/
structure IsResult (E : Executor) (S : StableIds) (rows : List (List Value))
    (answers : List (NodeRecord × NodeRecord × List EdgeRecord)) (made : List (List Value)) :
    Prop where
  mem_iff : ∀ source target path,
    (source, target, path) ∈ answers ↔ E.IsSource source ∧ E.IsAnswer source target path
  nodup : answers.Nodup
  projected : List.Forall₂ (fun answer row => E.IsRow S answer.1 answer.2 row) answers made
  rows : rows = firstRows E made

theorem RunAnswered.nodup {S : StableIds} {isSource : NodeRecord → Prop}
    {rows made : List (List Value)} {answers : List (NodeRecord × NodeRecord × List EdgeRecord)}
    (h : E.RunAnswered S isSource rows answers made) : answers.Nodup := by
  refine h.order.imp fun hlt => ?_
  rintro rfl
  rcases hlt with hlt | ⟨-, hlt | ⟨-, hlt⟩⟩ <;> exact lt_irrefl _ hlt

theorem isResult_of_run {query : TypedQueryAst} {snapshot : QueriedSnapshot} {S : StableIds}
    {metrics : BoundedQueryExecutionMetrics} {rows : List (List Value)}
    (hisNew : IsNew query snapshot E) (hE : E.WellFormed)
    (hrun : Metered.run (E.runRows S (plannedSourceNodes query snapshot.nodes)) metrics =
      .ok rows) :
    ∃ answers made, E.IsResult S rows answers made := by
  obtain ⟨answers, made, h⟩ := (ensures_runRows hisNew hE S).run hrun
  refine ⟨answers, made, h.mem_iff, h.nodup, h.projected, ?_⟩
  rw [h.rows, foldl_stage E h.sound]

/-- **The rows of a run are the first ones of the rows of all answers.** The indexes are those of the
snapshot, and whatever the limits and the interruptions are, a run that ends has this result. -/
theorem exists_isResult_of_run {floatText : FloatText} {query : TypedQueryAst} {snapshotId : String}
    {snapshot : QueriedSnapshot} {limits : BoundedQueryLimits}
    {interrupts : Nat → Option BoundedQueryExecutionError} {S : StableIds}
    {metrics : BoundedQueryExecutionMetrics} {rows : List (List Value)}
    (hnew : Executor.new floatText query snapshotId snapshot limits interrupts = .ok E)
    (hfew : (query.whereClause.elim [] collectSomePredicates).length ≤ 64)
    (hrun : Metered.run (E.runRows S (plannedSourceNodes query snapshot.nodes)) metrics = .ok rows) :
    IsNew query snapshot E ∧ ∃ answers made, E.IsResult S rows answers made := by
  have hisNew := isNew_of_new hnew
  exact ⟨hisNew, isResult_of_run hisNew (hisNew.wellFormed hfew) hrun⟩

end Executor

namespace ExecuteSample

theorem digest_size : (List.replicate 32 (0 : UInt8)).length = 32 := List.length_replicate

/-- A hash that nothing here depends on. -/
def stableIds : StableIds := ⟨.plain, fun _ => ⟨List.replicate 32 0, digest_size⟩⟩

def node (id kind : String) : NodeRecord := ⟨id, kind, id, id, .null⟩

def edge (id source target : String) : EdgeRecord :=
  { id, siteId := none, source, target, kind := "depends_on", phase := "runtime"
    environment := "any", profileId := "profile", resolutionStatus := "resolved"
    precision := "exact", condition := .null, generated := false }

def site : SiteRecord where
  id := "site"
  source := "a"
  kind := "import"
  specifier := some "b"
  profileId := "profile"
  resolutionStatus := "resolved"
  precision := "exact"
  condition := .null
  targetIds := ["b"]
  reason := none

def evidence : EvidenceRecord where
  ownerType := "site"
  ownerId := "site"
  ordinal := 0
  kind := "static"
  extractor := "scanner"
  extractorVersion := "1"
  path := "a.rs"
  startLine := 1
  startColumn := 1
  endLine := 1
  endColumn := 9
  detail := none
  properties := .null

/-- Two packages that depend on each other, and one that both depend on. -/
def snapshot : QueriedSnapshot where
  nodes := [node "a" "package", node "b" "package", node "c" "module"]
  sites := [site]
  edges := [{ edge "ab" "a" "b" with siteId := some "site" }, edge "ac" "a" "c", edge "ba" "b" "a",
    edge "bc" "b" "c"]
  evidence := [evidence]

def nodeField (binding field : String) : TypedFieldReference :=
  ⟨binding, .node, field, .string, false⟩

/-- Some entity on the path has this text in a field. -/
def someWith (entityType : EntityType) (field text : String) : TypedExpression :=
  .quantifier ⟨⟨"q", entityType⟩, "p",
    .scalar ⟨⟨"q", entityType, field, .string, false⟩, .equal (.string text), .scalar .string⟩⟩

/-- The targets of paths of up to two edges from a package, by way of an import that was scanned. -/
def query : TypedQueryAst where
  matchClause :=
    { path := ⟨"p", .path⟩
      source := ⟨⟨"s", .node⟩, some "package"⟩
      relationship := ⟨.forward, ["depends_on"], 1, 2⟩
      target := ⟨⟨"t", .node⟩, none⟩ }
  whereClause := some (.and [.scalar ⟨nodeField "s" "id", .equal (.string "a"), .scalar .string⟩,
    someWith .site "kind" "import", someWith .evidence "extractor" "scanner"])
  returnClause := ⟨true, [.field (nodeField "t" "kind")]⟩
  orderBy := [⟨.field (nodeField "t" "kind"), .descending⟩]
  limit := 10

def limits : BoundedQueryLimits :=
  ⟨100, 100, 100, 100, 100, 100, 10000, 1000000, 1000⟩

def metrics : BoundedQueryExecutionMetrics := ⟨0, 0, 0, 0, 0, 0, 2, 0, 0⟩

/-- The number of rows of the query. -/
def rowCount : Option Nat :=
  match Executor.new .plain query "snapshot" snapshot limits fun _ => none with
  | .error _ => none
  | .ok E =>
    match Metered.run (E.runRows stableIds (plannedSourceNodes query snapshot.nodes)) metrics with
    | .error _ => none
    | .ok rows => some rows.length

theorem rowCount_eq : rowCount = some 2 := by decide +kernel

theorem exists_isResult : ∃ E rows answers made,
    Executor.new .plain query "snapshot" snapshot limits (fun _ => none) = .ok E ∧
      rows.length = 2 ∧ E.IsResult stableIds rows answers made := by
  have hcount := rowCount_eq
  unfold rowCount at hcount
  split at hcount
  · cases hcount
  rename_i E hnew
  split at hcount
  · cases hcount
  rename_i rows hrun
  obtain ⟨-, answers, made, h⟩ := Executor.exists_isResult_of_run hnew (by decide) hrun
  exact ⟨E, rows, answers, made, hnew, Option.some.inj hcount, h⟩

end ExecuteSample

end Query
