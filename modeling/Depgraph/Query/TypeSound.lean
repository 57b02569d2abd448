import Depgraph.Query.Parse
import Depgraph.Query.TypeCheckExact
import Depgraph.Query.Uncounted

/-!
# Type soundness

What the type checker accepts, the executor carries out: every projection of an answer has a value,
every node and edge of a witness is in the indexes, and every item of the order is a column. So a run
of an accepted query ends with rows, at a limit, or when it is interrupted.
-/

namespace Query

open Json Protocol OrderedMap Metered LeastUnderKey Std
open Store hiding GraphSnapshot

/-! ### Typed projections -/

/-- The types of the entities that the match clause binds. -/
def EntityType.isTop (type : EntityType) : Prop := type = .node ∨ type = .path

/-- A projection of the top-level bindings, with a field of the registry. -/
def TypedProjection.Typed : TypedProjection → Prop
  | .binding top => top.entityType.isTop
  | .field reference => reference.entityType.isTop ∧ ∃ definition ∈ TypeChecker.fieldRegistry,
      definition.entityType = reference.entityType ∧ definition.name = reference.field

/-- Every projection is typed, and every item of the order is one of the projections. -/
structure TypedQueryAst.Typed (query : TypedQueryAst) : Prop where
  projections : ∀ projection ∈ query.returnClause.projections, projection.Typed
  orderBy : ∀ item ∈ query.orderBy, item.projection ∈ query.returnClause.projections

namespace TypeChecker

theorem addTopLevel_top {topLevel next : ExtTreeMap String EntityType}
    {binding : String × EntityType} (h : addTopLevel topLevel binding = .ok next)
    (hbinding : binding.2.isTop) (htop : ∀ (name : String) (type : EntityType),
      topLevel[name]? = some type → type.isTop)
    (name : String) (type : EntityType) (hname : next[name]? = some type) : type.isTop := by
  obtain ⟨-, -, h⟩ := Fallible.bind_eq_ok.1 h
  split_ifs at h
  obtain rfl := Except.ok.inj h
  rw [getElem?_insert] at hname
  split_ifs at hname
  · exact Option.some.inj hname ▸ hbinding
  · exact htop name type hname

/-- The bindings of a match clause are nodes and a path. -/
theorem newTypeChecker_top {clause : MatchClause} {topLevel : ExtTreeMap String EntityType}
    (h : newTypeChecker clause = .ok topLevel) (name : String) (type : EntityType)
    (hname : topLevel[name]? = some type) : type.isTop := by
  unfold newTypeChecker at h
  obtain ⟨first, hfirst, h⟩ := Fallible.bind_eq_ok.1 h
  obtain ⟨second, hsecond, h⟩ := Fallible.bind_eq_ok.1 h
  obtain ⟨third, hthird, h⟩ := Fallible.bind_eq_ok.1 h
  obtain rfl := Except.ok.inj h
  have hempty (name : String) (type : EntityType)
      (hname : (∅ : ExtTreeMap String EntityType)[name]? = some type) : type.isTop := by
    rw [ExtTreeMap.getElem?_empty] at hname
    cases hname
  exact addTopLevel_top hthird (.inl rfl) (addTopLevel_top hsecond (.inr rfl)
    (addTopLevel_top hfirst (.inl rfl) hempty)) name type hname

theorem checkProjection_typed {topLevel : ExtTreeMap String EntityType}
    (htop : ∀ (name : String) (type : EntityType), topLevel[name]? = some type → type.isTop)
    {clause : String} {projection : Projection} {typed : TypedProjection}
    (h : checkProjection topLevel clause projection = .ok typed) : typed.Typed := by
  cases projection with
  | binding binding =>
    rw [checkProjection] at h
    split at h
    · cases h
    · rename_i entityType hbinding
      exact Except.ok.inj h ▸ htop _ _ hbinding
  | field reference =>
    rw [checkProjection] at h
    split at h
    · cases h
    · rename_i entityType hbinding
      obtain ⟨field, hfield, h⟩ := Fallible.bind_eq_ok.1 h
      obtain ⟨-, hname, htype, hdefinition⟩ := resolveField_ok hfield
      obtain rfl := Except.ok.inj h
      exact ⟨htype ▸ htop _ _ hbinding, by rwa [htype, hname]⟩

/-- **An accepted query is typed.** -/
theorem Checked.typed {F : FloatText} {ast : QueryAst} {query : TypedQueryAst}
    {topLevel : ExtTreeMap String EntityType} (h : Checked F ast query topLevel) : query.Typed where
  projections projection hprojection := by
    obtain ⟨projections, hprojections, hreturn⟩ := Fallible.bind_eq_ok.1 h.returnClause
    have hclause := Except.ok.inj hreturn
    rw [← hclause] at hprojection
    obtain ⟨parsed, -, hparsed⟩ := Fallible.exists_of_mem_mapM hprojections hprojection
    exact checkProjection_typed (newTypeChecker_top h.bindings) hparsed
  orderBy item hitem := by
    obtain ⟨parsed, -, hparsed⟩ := Fallible.exists_of_mem_mapM h.orderBy hitem
    obtain ⟨projection, -, hparsed⟩ := Fallible.bind_eq_ok.1 hparsed
    split_ifs at hparsed with hmem
    exact Except.ok.inj hparsed ▸ hmem

end TypeChecker

namespace Executor

variable {E : Executor}

/-! ### Rows -/

section Rows

variable {source : NodeRecord} {witness : Witness}

theorem exists_nodeField {F : FloatText} {node : NodeRecord}
    {definition : TypeChecker.FieldDefinition} (h : definition ∈ TypeChecker.fieldRegistry)
    (htype : definition.entityType = .node) :
    ∃ value, entityFieldValue F (.node node) definition.name = some value := by
  have hmem : definition.name ∈ ["id", "kind", "locator", "display_name"] := by
    have hall : ∀ definition ∈ TypeChecker.fieldRegistry, definition.entityType = .node →
        definition.name ∈ ["id", "kind", "locator", "display_name"] := by decide
    exact hall definition h htype
  simp only [List.mem_cons, List.not_mem_nil, or_false] at hmem
  rcases hmem with hname | hname | hname | hname <;> rw [hname] <;> exact ⟨_, rfl⟩

theorem exists_pathField {F : FloatText} {id : Option String} {depth : Nat} {direction : String}
    {definition : TypeChecker.FieldDefinition} (h : definition ∈ TypeChecker.fieldRegistry)
    (htype : definition.entityType = .path) :
    ∃ value, entityFieldValue F (.path id depth direction) definition.name = some value := by
  have hmem : definition.name ∈ ["id", "depth", "direction"] := by
    have hall : ∀ definition ∈ TypeChecker.fieldRegistry, definition.entityType = .path →
        definition.name ∈ ["id", "depth", "direction"] := by decide
    exact hall definition h htype
  simp only [List.mem_cons, List.not_mem_nil, or_false] at hmem
  rcases hmem with hname | hname | hname <;> rw [hname] <;> exact ⟨_, rfl⟩

/-- A typed projection has a value. -/
theorem exists_projectValue {target : NodeRecord} {path : Value} {projection : TypedProjection}
    (h : projection.Typed) :
    ∃ value, E.projectValue source target witness path projection = .ok value := by
  cases projection with
  | binding binding =>
    rw [projectValue]
    rcases h with h | h <;> rw [h] <;> exact ⟨_, rfl⟩
  | field field =>
    obtain ⟨htop, definition, hmem, htype, hname⟩ := h
    have hfield (entity : EntityView)
        (hvalue : ∃ value, entityFieldValue E.floatText entity field.field = some value) :
        ∃ value, E.projectedField entity field = .ok value := by
      obtain ⟨value, hvalue⟩ := hvalue
      rw [projectedField, hvalue]
      exact ⟨value, rfl⟩
    rw [projectValue, projectedEntity]
    rcases htop with htop | htop
    · rw [htop]
      exact hfield _ (hname ▸ exists_nodeField hmem (htype.trans htop))
    · rw [htop]
      exact hfield _ (hname ▸ exists_pathField hmem (htype.trans htop))

theorem exists_mapM_recordOf {T : Type} (message : String) {records : String → Option T}
    {ids : List String} (h : ∀ id ∈ ids, ∃ record, records id = some record) :
    ∃ made, ids.mapM (fun id => recordOf message (records id)) = .ok made := by
  refine ⟨_, Fallible.mapM_of_ok fun id hid => ?_⟩
  obtain ⟨record, hrecord⟩ := h id hid
  rw [hrecord]
  exact ⟨record, rfl⟩

theorem Trail.nodes {start node : String} {edges : List EdgeRecord} (h : E.Trail start edges node)
    {edge : EdgeRecord} (hedge : edge ∈ edges) : E.leadsTo edge ∈ E.nodes := by
  induction h with
  | start => cases hedge
  | snoc _ _ _ hnode ih =>
    rcases List.mem_append.1 hedge with hedge | hedge
    · exact ih hedge
    · exact List.mem_singleton.1 hedge ▸ hnode

/-- **Every answer has a row**, when the query is typed. -/
theorem exists_projectRow (htyped : E.query.Typed) (hsource : source.id ∈ E.nodes) {node : String}
    {edges : List EdgeRecord} (htrail : E.Trail source.id edges node)
    (hwitness : E.IsWitness source.id edges witness) (S : StableIds) (target : NodeRecord) :
    ∃ row, E.projectRow S source target witness = .ok row := by
  have hnodes : ∀ id ∈ witness.nodeIds, ∃ record, E.nodes[id]? = some record := by
    intro id hid
    rw [hwitness.nodeIds] at hid
    refine mem_iff.1 ?_
    rcases List.mem_cons.1 hid with rfl | hid
    · exact hsource
    · obtain ⟨edge, hedge, rfl⟩ := List.mem_map.1 hid
      exact htrail.nodes hedge
  have hedges : ∀ id ∈ witness.edgeIds, ∃ record, E.edges[id]? = some record := by
    intro id hid
    rw [hwitness.edgeIds] at hid
    obtain ⟨edge, hedge, rfl⟩ := List.mem_map.1 hid
    exact ⟨edge, htrail.known hedge⟩
  obtain ⟨nodes, hnodes⟩ :=
    exists_mapM_recordOf "witness references a missing node" hnodes
  obtain ⟨edges, hedges⟩ :=
    exists_mapM_recordOf "witness references a missing edge" hedges
  have hpath : ∃ path, E.pathValue S source target witness = .ok path := by
    unfold pathValue
    rw [hnodes, Fallible.ok_bind, hedges, Fallible.ok_bind]
    exact ⟨_, rfl⟩
  obtain ⟨path, hpath⟩ := hpath
  rw [projectRow, hpath, Fallible.ok_bind]
  exact ⟨_, Fallible.mapM_of_ok fun projection hprojection =>
    exists_projectValue (htyped.projections projection hprojection)⟩

end Rows

/-! ### Failures -/

/-- What may end a run: a limit, or an interruption. -/
def Stops (E : Executor) (error : BoundedQueryExecutionError) : Prop :=
  (∃ resource observed limit, error = resourceError resource observed limit) ∨
    ∃ n, E.interrupts n = some error

theorem Uncounted.failsOnly {α : Type} {x : Execution α} (h : E.Uncounted x) :
    FailsOnly x E.Stops := by
  intro metrics error hx
  obtain ⟨resource, observed, limit, -, rfl⟩ | hinterrupted := (h metrics trivial).1 error hx
  · exact .inl ⟨resource, observed, limit, rfl⟩
  · exact .inr hinterrupted

theorem failsOnly_checkResource (resource : String) (observed limit : Nat) :
    FailsOnly (checkResource resource observed limit) E.Stops :=
  .ite (fun _ => .fail (.inl ⟨_, _, _, rfl⟩)) fun _ => .pure

theorem failsOnly_incrementState : FailsOnly E.incrementState E.Stops :=
  FailsOnly.get.after fun _ => FailsOnly.set.after fun _ =>
    (failsOnly_checkResource _ _ _).after fun _ => uncounted_refreshMemory.failsOnly

theorem failsOnly_expandEdge (witness : Witness) (next : ExtTreeMap StateKey Witness)
    (edge : EdgeRecord) : FailsOnly (E.expandEdge witness next edge) E.Stops := by
  unfold expandEdge
  refine uncounted_incrementEdgeTests.failsOnly.after fun _ => .ite (fun _ => .pure) fun _ => ?_
  refine FailsOnly.after (uncounted_extendWitness _ _ _).failsOnly fun _ => ?_
  exact .ite (fun _ => failsOnly_incrementState.after fun _ => .pure) fun _ => .pure

theorem failsOnly_expandState (next : ExtTreeMap StateKey Witness) (witness : Witness) :
    FailsOnly (E.expandState next witness) E.Stops :=
  uncounted_guard.failsOnly.after fun _ =>
    .foldlM fun edge _ next => failsOnly_expandEdge witness next edge

section Search

variable {source : NodeRecord} {S : StableIds}

theorem uncounted_stageMatch (htyped : E.query.Typed) (hsource : source.id ∈ E.nodes)
    {entry : String × Witness} (h : ∃ answer, E.IsAnswerOf source entry answer) (staged : Staged) :
    E.Uncounted (E.stageMatch S source staged entry) := by
  obtain ⟨answer, h⟩ := h
  obtain ⟨row, hrow⟩ := exists_projectRow htyped hsource h.trail h.witness S answer.1
  unfold stageMatch
  rw [h.target]
  dsimp only
  rw [hrow]
  exact (uncounted_refreshStagedMetrics _).then fun _ _ => .pure trivial

theorem Layer.uncounted_stageAt (hE : E.WellFormed) (htyped : E.query.Typed)
    (hsource : source.id ∈ E.nodes) {depth : Nat} {current : ExtTreeMap StateKey Witness}
    (h : E.Layer source.id depth current) (staged : Staged) :
    E.Uncounted (E.stageAt S source depth current staged) :=
  .ite (fun _ => uncounted_foldlM fun entry hentry _ =>
    uncounted_stageMatch htyped hsource (h.exists_isAnswerOf hE staged.resolved entry hentry) _)
    fun _ => .pure trivial

theorem failsOnly_layers (hE : E.WellFormed) (htyped : E.query.Typed)
    (hsource : source.id ∈ E.nodes) (left depth : Nat) {current : ExtTreeMap StateKey Witness}
    (h : E.Layer source.id depth current) (staged : Staged) :
    FailsOnly (E.layers S source left depth current staged) E.Stops := by
  induction left generalizing depth current staged with
  | zero =>
    rw [layers]
    exact uncounted_guard.failsOnly.after fun _ =>
      (h.uncounted_stageAt hE htyped hsource staged).failsOnly.after fun _ => .pure
  | succ left ih =>
    rw [layers]
    refine uncounted_guard.failsOnly.after fun _ =>
      (h.uncounted_stageAt hE htyped hsource staged).failsOnly.after fun staged => ?_
    refine FailsOnly.bind (.foldlM fun witness _ next => failsOnly_expandState next witness)
      (h.next hE) fun next hnext => ?_
    exact .ite (fun _ => .pure) fun _ => ih (depth + 1) hnext staged

theorem failsOnly_visitSource (hE : E.WellFormed) (htyped : E.query.Typed)
    (hsource : source.id ∈ E.nodes) (rows : List (List Value)) :
    FailsOnly (E.visitSource S rows source) E.Stops :=
  uncounted_guard.failsOnly.after fun _ => failsOnly_incrementState.after fun _ =>
    failsOnly_layers hE htyped hsource _ 0 (Layer.ofSource source) _

end Search

/-- **A run of a typed query fails only at a limit or when it is interrupted.** -/
theorem failsOnly_runRows {query : TypedQueryAst} {snapshot : QueriedSnapshot}
    (h : IsNew query snapshot E) (hE : E.WellFormed) (htyped : query.Typed) (S : StableIds) :
    FailsOnly (E.runRows S (plannedSourceNodes query snapshot.nodes)) E.Stops := by
  rw [← h.asked] at htyped
  refine uncounted_guard.failsOnly.after fun _ => ?_
  refine (uncounted_sourceNodes _).failsOnly.bind (ensures_sourceNodes h hE)
    fun sources hsources => ?_
  refine FailsOnly.after (.foldlM fun source hsource rows => ?_) fun rows => ?_
  · exact failsOnly_visitSource hE htyped
      (mem_iff.2 ⟨source, (hsources.isSource source hsource).known⟩) rows
  · exact (uncounted_finish rows).failsOnly

end Executor

/-! ### Accepted queries -/

section Accepted

open TypeChecker

variable {F floatText : FloatText} {ast : QueryAst} {query : TypedQueryAst} {snapshotId : String}
  {snapshot : QueriedSnapshot} {limits : BoundedQueryLimits}
  {interrupts : Nat → Option BoundedQueryExecutionError} {E : Executor} {S : StableIds}
  {metrics : BoundedQueryExecutionMetrics}

/-- **Type checking keeps the meaning of a query.** Whatever the snapshot and the path. -/
theorem whereHolds_of_typeCheck (hcheck : typeCheckBoundedQuery F ast = .ok query)
    (hE : E.query = query) :
    (query.whereClause.elim [] collectSomePredicates).length =
        ast.whereClause.elim 0 existentials ∧
      ∀ source target path, E.whereHolds source target path =
        ast.whereClause.all (means E ast.matchClause source target path) := by
  obtain ⟨topLevel, hchecked⟩ := exists_checked hcheck
  exact hchecked.keeps_meaning hE

/-- **An accepted query does not go wrong.** No row of it misses a node, an edge or a field, and no
projection is of another type: its run fails only at a limit or when it is interrupted. -/
theorem stops_of_run (hcheck : typeCheckBoundedQuery F ast = .ok query)
    (hfew : ast.whereClause.elim 0 existentials ≤ maxQueryExistentialPredicates)
    (hnew : Executor.new floatText query snapshotId snapshot limits interrupts = .ok E)
    {error : BoundedQueryExecutionError}
    (hrun : Metered.run (E.runRows S (plannedSourceNodes query snapshot.nodes)) metrics =
      .error error) : E.Stops error := by
  obtain ⟨topLevel, hchecked⟩ := exists_checked hcheck
  have hisNew := isNew_of_new hnew
  have hwell : E.WellFormed := by
    refine hisNew.wellFormed ?_
    rw [(hchecked.keeps_meaning hisNew.asked).1]
    exact hfew.trans (by decide)
  exact (Executor.failsOnly_runRows hisNew hwell hchecked.typed S).run hrun

end Accepted

namespace TypeSample

open TypeChecker

/-- The kinds of the targets of paths of up to two edges from a package, in descending order. -/
def ast : QueryAst where
  contractVersion := boundedQueryContractVersion
  matchClause :=
    { pathBinding := "p"
      source := ⟨"s", some "package"⟩
      relationship := ⟨.forward, ["depends_on"], 1, 2⟩
      target := ⟨"t", none⟩ }
  whereClause := none
  returnClause := ⟨true, [.field ⟨"t", "kind"⟩]⟩
  orderBy := [⟨.field ⟨"t", "kind"⟩, .descending⟩]
  limit := 10

/-- The same from the package `a`, over a disjunction of one term. -/
def narrowed : QueryAst :=
  { ast with whereClause := some (.or [.and [.scalar ⟨⟨"s", "id"⟩, .equal (.string "a")⟩,
    .scalar ⟨⟨"t", "kind"⟩, .isIn [.string "package", .string "module"]⟩]]) }

/-- Whether a query is accepted. -/
def isAccepted (ast : QueryAst) : Bool :=
  match typeCheckBoundedQuery .plain ast with
  | .error _ => false
  | .ok _ => true

/-- How a run of the query ends: with an error of a code, or with rows. -/
def outcome (limits : BoundedQueryLimits) : Option (String ⊕ Nat) :=
  match typeCheckBoundedQuery .plain ast with
  | .error _ => none
  | .ok query =>
    match Executor.new .plain query "snapshot" ExecuteSample.snapshot limits fun _ => none with
    | .error _ => none
    | .ok E =>
      match Metered.run (E.runRows ExecuteSample.stableIds
          (plannedSourceNodes query ExecuteSample.snapshot.nodes)) ExecuteSample.metrics with
      | .error error => some (.inl error.code)
      | .ok rows => some (.inr rows.length)

/-- No edge may be tested. -/
def noEdges : BoundedQueryLimits := { ExecuteSample.limits with edgeTests := 0 }

theorem isAccepted_narrowed : isAccepted narrowed = true := by decide +kernel

theorem outcome_noEdges : outcome noEdges = some (.inl "query_execution_resource_exhausted") := by
  decide +kernel

theorem exists_executor : ∃ E : Executor, E.query = ExecuteSample.query := by
  have hcount := ExecuteSample.rowCount_eq
  unfold ExecuteSample.rowCount at hcount
  split at hcount
  · cases hcount
  · rename_i E hnew
    exact ⟨E, (isNew_of_new hnew).asked⟩

theorem whereHolds_sample : ∃ query E, typeCheckBoundedQuery .plain narrowed = .ok query ∧
    E.query = query ∧ ∀ source target path, E.whereHolds source target path =
      narrowed.whereClause.all (means E narrowed.matchClause source target path) := by
  have haccepted := isAccepted_narrowed
  unfold isAccepted at haccepted
  split at haccepted
  · cases haccepted
  · rename_i query hcheck
    obtain ⟨E, -⟩ := exists_executor
    exact ⟨query, { E with query }, hcheck, rfl, (whereHolds_of_typeCheck hcheck rfl).2⟩

theorem stops_sample : ∃ (E : Executor) (error : BoundedQueryExecutionError),
    error.code = "query_execution_resource_exhausted" ∧ E.Stops error := by
  have houtcome := outcome_noEdges
  unfold outcome at houtcome
  split at houtcome
  · cases houtcome
  rename_i query hcheck
  split at houtcome
  · cases houtcome
  rename_i E hnew
  split at houtcome
  · rename_i error hrun
    exact ⟨E, error, Sum.inl.inj (Option.some.inj houtcome),
      stops_of_run hcheck (by decide) hnew hrun⟩
  · cases houtcome

end TypeSample

end Query
