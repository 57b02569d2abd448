import Depgraph.Library.LeastUnderKey
import Depgraph.Library.StableSort
import Depgraph.Query.Typed

/-!
# The executor of bounded queries

`bounded_query_execute.rs`. A search from every source keeps one witness for each state: the node it
is at, its depth, the existential predicates met so far and the edges used.

* The metrics, the limits and the interruptions are those of the source. Whether the caller has
  cancelled or the deadline has passed at the `n`-th question is arbitrary: `interrupts n`.
* `existential_bits` is a natural number here; a shift by an index is a shift by the index modulo
  64, as in a build without overflow checks.
-/

namespace Query

open Json Protocol OrderedMap Metered LeastUnderKey Std
open Store hiding GraphSnapshot

/-! ### Indexes -/

/-- `GraphSnapshot`, as far as a query reads it. -/
structure QueriedSnapshot where
  nodes : List NodeRecord
  sites : List SiteRecord
  edges : List EdgeRecord
  evidence : List EvidenceRecord

/-- `BoundedQueryLimits`, as far as the executor compares them. -/
structure BoundedQueryLimits where
  sourceNodeTests : Nat
  traversalStates : Nat
  edgeTests : Nat
  siteTests : Nat
  evidenceTests : Nat
  resultRows : Nat
  serializedOutputBytes : Nat
  workingMemoryBytes : Nat
  deadlineMilliseconds : Nat

/-- `BoundedQueryExecutionMetrics`, and how often the executor has asked whether to go on. -/
structure BoundedQueryExecutionMetrics where
  sourceNodeTests : Nat
  traversalStates : Nat
  edgeTests : Nat
  siteTests : Nat
  evidenceTests : Nat
  resultRows : Nat
  serializedOutputBytes : Nat
  workingMemoryBytes : Nat
  asked : Nat

structure BoundedQueryExecutionError where
  code : String
  resource : Option String
  observed : Option Nat
  limit : Option Nat
  message : String

def executionError (code message : String) : BoundedQueryExecutionError :=
  ⟨code, none, none, none, message⟩

def resourceError (resource : String) (observed limit : Nat) : BoundedQueryExecutionError :=
  ⟨"query_execution_resource_exhausted", some resource, some observed, some limit,
    "bounded query execution exhausted an admitted resource limit"⟩

/-- `Executor`: the query, the indexes of the snapshot and what limits the execution. Evidence is found
by the type and the identity of its owner. -/
structure Executor where
  floatText : FloatText
  query : TypedQueryAst
  snapshotId : String
  limits : BoundedQueryLimits
  interrupts : Nat → Option BoundedQueryExecutionError
  nodes : ExtTreeMap String NodeRecord
  edges : ExtTreeMap String EdgeRecord
  sites : ExtTreeMap String SiteRecord
  evidence : ExtTreeMap (List String) (List EvidenceRecord)
  adjacency : ExtTreeMap String (List EdgeRecord)
  somePredicates : List TypedQuantifierPredicate

/-- A computation of the executor. -/
abbrev Execution : Type → Type := Work BoundedQueryExecutionMetrics BoundedQueryExecutionError

def traversedNodeId (edge : EdgeRecord) : QueryDirection → String
  | .forward => edge.target
  | .reverse => edge.source

/-- The node at which an edge is met. -/
def metNodeId (edge : EdgeRecord) : QueryDirection → String
  | .forward => edge.source
  | .reverse => edge.target

/-! ### Witnesses -/

structure Witness where
  nodeIds : List String
  edgeIds : List String
  usedEdges : ExtTreeSet String
  siteIds : ExtTreeSet String
  existentialBits : Nat

structure StateKey where
  currentNodeId : String
  depth : Nat
  existentialBits : Nat
  usedEdgeIds : List String
deriving DecidableEq

/-- The last node of the witness, which always has one. -/
def Witness.lastNode (witness : Witness) : String := witness.nodeIds.getLast?.getD ""

def StateKey.fromWitness (witness : Witness) : StateKey :=
  ⟨witness.lastNode, witness.edgeIds.length, witness.existentialBits, witness.usedEdges.toList⟩

section StateKeyOrder

attribute [local instance] lexOrd

/-- The fields in the order in which they are compared. -/
def StateKey.columns (key : StateKey) : String × Nat × Nat × List String :=
  (key.currentNodeId, key.depth, key.existentialBits, key.usedEdgeIds)

/-- The derived order. -/
instance instOrdStateKey : Ord StateKey := ⟨fun a b => compare a.columns b.columns⟩

instance instTransOrdStateKey : TransOrd StateKey where
  eq_swap {a b} := by
    have h : compare a.columns b.columns = (compare b.columns a.columns).swap :=
      OrientedCmp.eq_swap
    exact h
  isLE_trans {a b c} hab hbc := by
    have h : (compare a.columns c.columns).isLE := TransCmp.isLE_trans hab hbc
    exact h

theorem StateKey.columns_injective {a b : StateKey} (h : a.columns = b.columns) : a = b := by
  obtain ⟨_, _, _, _⟩ := a
  obtain ⟨_, _, _, _⟩ := b
  simp only [StateKey.columns, Prod.mk.injEq] at h
  obtain ⟨rfl, rfl, rfl, rfl⟩ := h
  rfl

instance instLawfulEqOrdStateKey : LawfulEqOrd StateKey where
  compare_self {a} := by
    have h : compare a.columns a.columns = .eq := ReflCmp.compare_self
    exact h
  eq_of_compare {a b} h := StateKey.columns_injective (LawfulEqOrd.eq_of_compare h)

def witnessOrder (left right : Witness) : Ordering :=
  compare (left.edgeIds, left.nodeIds) (right.edgeIds, right.nodeIds)

instance instTransCmpWitnessOrder : TransCmp witnessOrder where
  eq_swap {a b} := by
    have h : compare (a.edgeIds, a.nodeIds) (b.edgeIds, b.nodeIds) =
        (compare (b.edgeIds, b.nodeIds) (a.edgeIds, a.nodeIds)).swap := OrientedCmp.eq_swap
    exact h
  isLE_trans {a b c} hab hbc := by
    have h : (compare (a.edgeIds, a.nodeIds) (c.edgeIds, c.nodeIds)).isLE :=
      TransCmp.isLE_trans hab hbc
    exact h

end StateKeyOrder

/-- The witness of a source. -/
def Witness.ofSource (source : NodeRecord) : Witness := ⟨[source.id], [], ∅, ∅, 0⟩

/-! ### Metrics -/

/-- `u64::MAX`. -/
def u64Max : Nat := 18446744073709551615

/-- `saturating_add`. -/
def addU64 (a b : Nat) : Nat := min (a + b) u64Max

/-- `saturating_mul`. -/
def mulU64 (a b : Nat) : Nat := min (a * b) u64Max

def checkResource (resource : String) (observed limit : Nat) : Execution Unit :=
  if limit < observed then fail (resourceError resource observed limit) else return ()

namespace Executor

variable (E : Executor)

def guard : Execution Unit := fun metrics =>
  match E.interrupts metrics.asked with
  | some error => .error error
  | none => .ok ((), { metrics with asked := metrics.asked + 1 })

def refreshMemory : Execution Unit := do
  let metrics ← get
  let adjacency := mulU64 ((values E.adjacency).map List.length).sum 64
  let indexes := addU64 (addU64 (mulU64 E.nodes.size 32) (mulU64 E.sites.size 32))
    (mulU64 ((values E.evidence).map List.length).sum 32)
  let states := mulU64 metrics.traversalStates 256
  let observed := addU64 (addU64 (addU64 adjacency indexes) states) metrics.serializedOutputBytes
  set { metrics with workingMemoryBytes := observed }
  checkResource "working_memory_bytes" observed E.limits.workingMemoryBytes

def incrementSourceTests : Execution Unit := do
  let metrics ← get
  let observed := addU64 metrics.sourceNodeTests 1
  set { metrics with sourceNodeTests := observed }
  checkResource "source_node_tests" observed E.limits.sourceNodeTests

def incrementState : Execution Unit := do
  let metrics ← get
  let observed := addU64 metrics.traversalStates 1
  set { metrics with traversalStates := observed }
  checkResource "traversal_states" observed E.limits.traversalStates
  E.refreshMemory

def incrementEdgeTests : Execution Unit := do
  E.guard
  let metrics ← get
  let observed := addU64 metrics.edgeTests 1
  set { metrics with edgeTests := observed }
  checkResource "edge_tests" observed E.limits.edgeTests

def incrementSiteTests : Execution Unit := do
  let metrics ← get
  let observed := addU64 metrics.siteTests 1
  set { metrics with siteTests := observed }
  checkResource "site_tests" observed E.limits.siteTests

def incrementEvidenceTests : Execution Unit := do
  let metrics ← get
  let observed := addU64 metrics.evidenceTests 1
  set { metrics with evidenceTests := observed }
  checkResource "evidence_tests" observed E.limits.evidenceTests

/-! ### Extending a witness -/

/-- The evidence of an owner. -/
def evidenceOf (ownerType ownerId : String) : List EvidenceRecord :=
  (E.evidence[[ownerType, ownerId]]?).getD []

/-- The site of an edge that is not among these. -/
def newSite (siteIds : ExtTreeSet String) (edge : EdgeRecord) : Option SiteRecord :=
  edge.siteId.bind fun id => if id ∈ siteIds then none else E.sites[id]?

/-- The loop over the evidence, which ends at the first match. -/
def anyEvidence (expression : TypedEntityExpression) : List EvidenceRecord → Execution Bool
  | [] => return false
  | evidence :: rest => do
    E.incrementEvidenceTests
    if evaluateEntityExpression E.floatText (.evidence evidence) expression then
      return true
    anyEvidence expression rest

/-- An existential predicate, on what an edge brings. -/
def matchPredicate (site : Option SiteRecord) (evidence : List EvidenceRecord)
    (predicate : TypedQuantifierPredicate) : Execution Bool :=
  match predicate.binding.entityType with
  | .site =>
    match site with
    | some site => do
      E.incrementSiteTests
      return evaluateEntityExpression E.floatText (.site site) predicate.expression
    | none => return false
  | .evidence => E.anyEvidence predicate.expression evidence
  | _ => return false

/-- The loop over the existential predicates. -/
def matchPredicates (site : Option SiteRecord) (evidence : List EvidenceRecord) :
    Nat → Nat → List TypedQuantifierPredicate → Execution Nat
  | _, bits, [] => return bits
  | index, bits, predicate :: predicates => do
    if bits.testBit (index % 64) then
      matchPredicates site evidence (index + 1) bits predicates
    else
      let matched ← E.matchPredicate site evidence predicate
      matchPredicates site evidence (index + 1)
        (if matched then bits ||| 2 ^ (index % 64) else bits) predicates

def extendWitness (witness : Witness) (edge : EdgeRecord) (nextNodeId : String) :
    Execution Witness := do
  let site := E.newSite witness.siteIds edge
  let evidence := E.evidenceOf "edge" edge.id ++
    site.elim [] fun site => E.evidenceOf "site" site.id
  let bits ← E.matchPredicates site evidence 0 witness.existentialBits E.somePredicates
  return {
    nodeIds := witness.nodeIds ++ [nextNodeId]
    edgeIds := witness.edgeIds ++ [edge.id]
    usedEdges := witness.usedEdges.insert edge.id
    siteIds := site.elim witness.siteIds fun site => witness.siteIds.insert site.id
    existentialBits := bits }

/-! ### Expressions on a witness -/

section Evaluate

variable (source target : NodeRecord) (witness : Witness)

/-- A scalar predicate at the top level, on the entity of its binding. -/
def evaluateTopScalar (predicate : TypedScalarPredicate) : Bool :=
  evaluateScalarPredicate E.floatText predicate
    (if predicate.field.binding = E.query.matchClause.source.binding.name then .node source
    else if predicate.field.binding = E.query.matchClause.target.binding.name then .node target
    else .path none witness.edgeIds.length
      (directionName E.query.matchClause.relationship.direction))

/-- A quantifier over the edges of the path. -/
def everyEdge (expression : TypedEntityExpression) : Bool :=
  witness.edgeIds.all fun id => (E.edges[id]?).any fun edge =>
    evaluateEntityExpression E.floatText (.edge edge) expression

mutual

/-- `evaluate_expression`. All terms are evaluated, so that the existential predicates are counted. -/
def evaluateExpression (someIndex : Nat) : TypedExpression → Bool × Nat
  | .or terms => evaluateOr someIndex false terms
  | .and terms => evaluateAnd someIndex true terms
  | .not inner =>
    let (matched, someIndex) := evaluateExpression someIndex inner
    (!matched, someIndex)
  | .scalar predicate => (E.evaluateTopScalar source target witness predicate, someIndex)
  | .quantifier predicate =>
    match predicate.binding.entityType with
    | .edge => (E.everyEdge witness predicate.expression, someIndex)
    | .site | .evidence => (witness.existentialBits.testBit (someIndex % 64), someIndex + 1)
    | _ => (false, someIndex)

def evaluateOr (someIndex : Nat) (matched : Bool) : List TypedExpression → Bool × Nat
  | [] => (matched, someIndex)
  | term :: terms =>
    let (result, someIndex) := evaluateExpression someIndex term
    evaluateOr someIndex (matched || result) terms

def evaluateAnd (someIndex : Nat) (matched : Bool) : List TypedExpression → Bool × Nat
  | [] => (matched, someIndex)
  | term :: terms =>
    let (result, someIndex) := evaluateExpression someIndex term
    evaluateAnd someIndex (matched && result) terms

end

def whereMatches : Bool :=
  match E.query.whereClause with
  | none => true
  | some expression => (E.evaluateExpression source target witness 0 expression).1

end Evaluate

def targetKindMatches (target : NodeRecord) : Bool :=
  E.query.matchClause.target.kind.all fun kind => target.kind == kind

/-! ### Rows -/

def closedNodeValue (node : NodeRecord) : Value :=
  .object [("id", .string node.id), ("kind", .string node.kind), ("locator", .string node.locator),
    ("display_name", .string node.displayName)]

def closedEdgeValue (edge : EdgeRecord) : Value :=
  .object [("id", .string edge.id), ("kind", .string edge.kind), ("phase", .string edge.phase),
    ("environment", .string edge.environment), ("profile_id", .string edge.profileId),
    ("resolution_status", .string edge.resolutionStatus), ("precision", .string edge.precision),
    ("condition", .string (renderCondition E.floatText edge.condition.value)),
    ("generated", .bool edge.generated)]

def closedSiteValue (site : SiteRecord) : Value :=
  .object [("id", .string site.id), ("kind", .string site.kind),
    ("specifier", optionalString site.specifier), ("profile_id", .string site.profileId),
    ("resolution_status", .string site.resolutionStatus), ("precision", .string site.precision),
    ("condition", .string (renderCondition E.floatText site.condition.value)),
    ("reason", optionalString site.reason)]

def closedEvidenceValue (evidence : EvidenceRecord) : Value :=
  .object [("owner_type", .string evidence.ownerType), ("kind", .string evidence.kind),
    ("extractor", .string evidence.extractor),
    ("extractor_version", .string evidence.extractorVersion), ("path", .string evidence.path),
    ("start_line", natValue evidence.startLine), ("start_column", natValue evidence.startColumn),
    ("end_line", natValue evidence.endLine), ("end_column", natValue evidence.endColumn),
    ("ordinal", natValue evidence.ordinal.toNat)]

def evidenceOrder (a b : EvidenceRecord) : Ordering :=
  compare a.ownerType b.ownerType |>.then (compare a.ownerId b.ownerId)
    |>.then (compare a.ordinal b.ordinal) |>.then (compare a.kind b.kind)
    |>.then (compare a.path b.path) |>.then (compare a.startLine b.startLine)
    |>.then (compare a.startColumn b.startColumn) |>.then (compare a.endLine b.endLine)
    |>.then (compare a.endColumn b.endColumn) |>.then (compare a.extractor b.extractor)
    |>.then (compare a.extractorVersion b.extractorVersion)

/-- A record that the indexes must have. -/
def recordOf {T : Type} (message : String) (record : Option T) :
    Except BoundedQueryExecutionError T :=
  match record with
  | some record => .ok record
  | none => .error (executionError "query_execution_snapshot_mismatch" message)

def pathValue (S : StableIds) (source target : NodeRecord) (witness : Witness) :
    Except BoundedQueryExecutionError Value := do
  let direction := directionName E.query.matchClause.relationship.direction
  let pathId := S.stableIdFromValue "query-path" (.object
    [("contract_version", .string "bounded-graph-query-v1"), ("snapshot_id", .string E.snapshotId),
      ("direction", .string direction), ("source_id", .string source.id),
      ("target_id", .string target.id), ("edge_ids", .array (witness.edgeIds.map .string))])
  let nodes ← witness.nodeIds.mapM fun id =>
    recordOf "witness references a missing node" E.nodes[id]?
  let edges ← witness.edgeIds.mapM fun id =>
    recordOf "witness references a missing edge" E.edges[id]?
  let sites := witness.siteIds.toList.filterMap fun id => E.sites[id]?
  let evidence := witness.edgeIds.flatMap (E.evidenceOf "edge") ++
    witness.siteIds.toList.flatMap (E.evidenceOf "site")
  let evidence := SortDedup.dedup (fun a b => evidenceOrder a b == .eq)
    (evidence.mergeSort fun a b => (evidenceOrder a b).isLE)
  return .object
    [("id", .string pathId), ("depth", natValue witness.edgeIds.length),
      ("direction", .string direction), ("nodes", .array (nodes.map closedNodeValue)),
      ("edges", .array (edges.map E.closedEdgeValue)),
      ("sites", .array (sites.map E.closedSiteValue)),
      ("evidence", .array (evidence.map closedEvidenceValue))]

/-- The node of a top-level binding. -/
def topNode (source target : NodeRecord) (name : String) : NodeRecord :=
  if name = E.query.matchClause.source.binding.name then source else target

/-- The entity of a projected field. -/
def projectedEntity (source target : NodeRecord) (witness : Witness) (path : Value)
    (field : TypedFieldReference) : Except BoundedQueryExecutionError EntityView :=
  match field.entityType with
  | .node => .ok (.node (E.topNode source target field.binding))
  | .path =>
    let id := match path.member "id" with
      | some (.string id) => some id
      | _ => none
    .ok (.path id witness.edgeIds.length (directionName E.query.matchClause.relationship.direction))
  | _ => .error (executionError "query_execution_contract_mismatch"
      "projection contains a quantified field")

/-- The field of a projected entity. -/
def projectedField (entity : EntityView) (field : TypedFieldReference) :
    Except BoundedQueryExecutionError Value :=
  match entityFieldValue E.floatText entity field.field with
  | some value => .ok value
  | none => .error (executionError "query_execution_contract_mismatch"
      "projection field is not available")

def projectValue (source target : NodeRecord) (witness : Witness) (path : Value) :
    TypedProjection → Except BoundedQueryExecutionError Value
  | .binding binding =>
    match binding.entityType with
    | .node => .ok (closedNodeValue (E.topNode source target binding.name))
    | .path => .ok path
    | _ => .error (executionError "query_execution_contract_mismatch"
        "projection contains a non-top-level binding")
  | .field field => do
    let entity ← E.projectedEntity source target witness path field
    E.projectedField entity field

def projectRow (S : StableIds) (source target : NodeRecord) (witness : Witness) :
    Except BoundedQueryExecutionError (List Value) := do
  let path ← E.pathValue S source target witness
  E.query.returnClause.projections.mapM (E.projectValue source target witness path)

/-- The comparison of values that are not null. -/
def plainOrder (left right : Value) : Ordering :=
  match left, right with
  | .string left, .string right => compare left right
  | .number left, .number right => compare (asU64 left) (asU64 right)
  | .bool left, .bool right => compare left right
  | left, right => compare (canonicalJson E.floatText left) (canonicalJson E.floatText right)

def orderedValue (direction : SortDirection) (left right : Value) : Ordering :=
  match left, right with
  | .null, .null => .eq
  | .null, _ => .lt
  | _, .null => .gt
  | left, right =>
    match direction with
    | .ascending => E.plainOrder left right
    | .descending => (E.plainOrder left right).swap

/-- The value in a column. -/
def column (row : List Value) (index : Nat) : Value := row[index]?.getD .null

/-- The loop of `row_order` over the items. -/
def rowOrderBy (left right : List Value) : List TypedOrderItem → Ordering
  | [] => compare (canonicalJson E.floatText (.array left)) (canonicalJson E.floatText (.array right))
  | item :: items =>
    match E.query.returnClause.projections.findIdx? (· = item.projection) with
    | none => rowOrderBy left right items
    | some index =>
      (E.orderedValue item.direction (column left index) (column right index)).then
        (rowOrderBy left right items)

def rowOrder (left right : List Value) : Ordering := E.rowOrderBy left right E.query.orderBy

/-- `RowStager::insert`. -/
def stage (rows : List (List Value)) (row : List Value) : List (List Value) :=
  if E.query.returnClause.distinct && rows.any (· == row) then rows
  else
    ((rows ++ [row]).insertionSort fun a b => (E.rowOrder a b).isLE = true).take E.query.limit

def serializedRowsBytes (rows : List (List Value)) : Nat :=
  (String.ofList ((Value.array (rows.map .array)).text E.floatText)).utf8ByteSize

def refreshStagedMetrics (rows : List (List Value)) : Execution Unit := do
  let metrics ← get
  set { metrics with
    resultRows := rows.length
    serializedOutputBytes := E.serializedRowsBytes rows }
  checkResource "result_rows" rows.length E.limits.resultRows
  checkResource "serialized_output_bytes" (E.serializedRowsBytes rows)
    E.limits.serializedOutputBytes
  E.refreshMemory

/-! ### The search from a source -/

/-- The loop body of the matches of a layer. -/
def noteMatch (source : NodeRecord) (resolved : ExtTreeSet String)
    (found : ExtTreeMap String Witness) (witness : Witness) : ExtTreeMap String Witness :=
  if witness.lastNode ∈ resolved then found
  else
    match E.nodes[witness.lastNode]? with
    | none => found
    | some target =>
      if !E.targetKindMatches target || !E.whereMatches source target witness then found
      else keepLess witnessOrder found target.id witness

/-- What has been staged, and the targets that need no more looking for. -/
structure Staged where
  resolved : ExtTreeSet String
  rows : List (List Value)

/-- The loop body that stages a match. -/
def stageMatch (S : StableIds) (source : NodeRecord) (staged : Staged)
    (found : String × Witness) : Execution Staged :=
  match E.nodes[found.1]? with
  | none => fail (executionError "panic" "no entry found for key")
  | some target =>
    match E.projectRow S source target found.2 with
    | .error error => fail error
    | .ok row => do
      let rows := E.stage staged.rows row
      E.refreshStagedMetrics rows
      return ⟨staged.resolved.insert found.1, rows⟩

/-- The matches of a layer, staged in the order of the targets. -/
def stageLayer (S : StableIds) (source : NodeRecord) (current : ExtTreeMap StateKey Witness)
    (staged : Staged) : Execution Staged :=
  ((values current).foldl (E.noteMatch source staged.resolved) ∅).toList.foldlM
    (E.stageMatch S source) staged

/-- The matches of a layer, unless it is too short. -/
def stageAt (S : StableIds) (source : NodeRecord) (depth : Nat)
    (current : ExtTreeMap StateKey Witness) (staged : Staged) : Execution Staged :=
  if E.query.matchClause.relationship.minDepth ≤ depth then E.stageLayer S source current staged
  else return staged

/-- A candidate enters the next layer; a state that is new there is counted. -/
def enterState (next : ExtTreeMap StateKey Witness) (candidate : Witness) :
    Execution (ExtTreeMap StateKey Witness) := do
  let key := StateKey.fromWitness candidate
  if next[key]?.isNone then
    E.incrementState
  return keepLess witnessOrder next key candidate

/-- The loop body over the edges at a node. -/
def expandEdge (witness : Witness) (next : ExtTreeMap StateKey Witness) (edge : EdgeRecord) :
    Execution (ExtTreeMap StateKey Witness) := do
  E.incrementEdgeTests
  let nextNodeId := traversedNodeId edge E.query.matchClause.relationship.direction
  if edge.id ∈ witness.usedEdges ∨ nextNodeId ∉ E.nodes then
    return next
  E.enterState next (← E.extendWitness witness edge nextNodeId)

/-- The edges that are met at a node. -/
def outgoing (node : String) : List EdgeRecord := (E.adjacency[node]?).getD []

/-- The loop body over the states of a layer. -/
def expandState (next : ExtTreeMap StateKey Witness) (witness : Witness) :
    Execution (ExtTreeMap StateKey Witness) := do
  E.guard
  (E.outgoing witness.lastNode).foldlM (E.expandEdge witness) next

/-- The loop over the depths, with the number of those that are left. -/
def layers (S : StableIds) (source : NodeRecord) :
    Nat → Nat → ExtTreeMap StateKey Witness → Staged → Execution (List (List Value))
  | left, depth, current, staged => do
    E.guard
    let staged ← E.stageAt S source depth current staged
    match left with
    | 0 => return staged.rows
    | left + 1 => do
      let next ← (values current).foldlM E.expandState ∅
      if next.isEmpty then
        return staged.rows
      layers S source left (depth + 1) next staged

def runSource (S : StableIds) (rows : List (List Value)) (source : NodeRecord) :
    Execution (List (List Value)) := do
  let initial := Witness.ofSource source
  E.incrementState
  E.layers S source E.query.matchClause.relationship.maxDepth 0
    ((∅ : ExtTreeMap StateKey Witness).insert (StateKey.fromWitness initial) initial) ⟨∅, rows⟩

/-! ### Sources and runs -/

def sourcePredicatesMatch (source : NodeRecord) : Bool :=
  let sourceBinding := E.query.matchClause.source.binding.name
  let holds (expression : TypedExpression) :=
    (E.evaluateExpression source source (Witness.ofSource source) 0 expression).1
  match E.query.whereClause with
  | none => true
  | some (.and terms) => (terms.filter (referencesOnlySource sourceBinding)).all holds
  | some expression => !referencesOnlySource sourceBinding expression || holds expression

/-- The kind of the source pattern. -/
def sourceKindMatches (source : NodeRecord) : Bool :=
  E.query.matchClause.source.kind.all fun kind => source.kind == kind

/-- The loop body over the candidates. -/
def testSource (sources : List NodeRecord) (node : NodeRecord) : Execution (List NodeRecord) := do
  if !E.sourceKindMatches node then
    return sources
  E.incrementSourceTests
  return if E.sourcePredicatesMatch node then sources ++ [node] else sources

/-- `source_nodes`, with the number of source nodes of the plan. -/
def sourceNodes (planned : Nat) : Execution (List NodeRecord) :=
  if planned = 0 then return []
  else
    match sourceIdLookup E.query with
    | some id => do
      E.incrementSourceTests
      return (E.nodes[id]?).toList.filter fun node =>
        E.sourceKindMatches node && E.sourcePredicatesMatch node
    | none => do
      let sources ← (values E.nodes).foldlM E.testSource []
      return SortDedup.sortByKey NodeRecord.id sources

/-- The loop body over the sources. -/
def visitSource (S : StableIds) (rows : List (List Value)) (source : NodeRecord) :
    Execution (List (List Value)) := do
  E.guard
  E.runSource S rows source

/-- The rows of `run`. -/
def runRows (S : StableIds) (planned : Nat) : Execution (List (List Value)) := do
  E.guard
  let sources ← E.sourceNodes planned
  let rows ← sources.foldlM (E.visitSource S) []
  E.guard
  checkResource "result_rows" rows.length E.limits.resultRows
  checkResource "serialized_output_bytes" (E.serializedRowsBytes rows)
    E.limits.serializedOutputBytes
  E.refreshStagedMetrics rows
  E.guard
  return rows

end Executor

/-! ### Construction -/

/-- The number of source nodes of `query_cardinality_inputs`, on the nodes of the snapshot. -/
def plannedSourceNodes (query : TypedQueryAst) (nodes : List NodeRecord) : Nat :=
  if (sourceIdLookup query).isSome then min 1 nodes.length
  else
    match query.matchClause.source.kind with
    | some kind => nodes.countP fun node => node.kind == kind
    | none => nodes.length

/-- A record enters under its identity, which must be new. -/
def indexRecord {T : Type} (id : T → String) (message : String) (known : ExtTreeMap String T)
    (record : T) : Except BoundedQueryExecutionError (ExtTreeMap String T) :=
  if id record ∈ known then .error (executionError "query_execution_snapshot_mismatch" message)
  else .ok (known.insert (id record) record)

/-- Records by their identities, which must be distinct. -/
def indexRecords {T : Type} (id : T → String) (message : String) (records : List T) :
    Except BoundedQueryExecutionError (ExtTreeMap String T) :=
  records.foldlM (indexRecord id message) ∅

/-- Lists under keys, with one more item. -/
def addUnder {K T : Type} [Ord K] [TransOrd K] (key : T → K) (lists : ExtTreeMap K (List T))
    (item : T) : ExtTreeMap K (List T) :=
  lists.insert (key item) ((lists[key item]?).getD [] ++ [item])

/-- The edges of the kinds that the query asks for. -/
def eligibleEdges (query : TypedQueryAst) (snapshot : QueriedSnapshot) : List EdgeRecord :=
  snapshot.edges.filter fun edge => query.matchClause.relationship.kinds.contains edge.kind

def initialMemory (query : TypedQueryAst) (snapshot : QueriedSnapshot) : Nat :=
  addU64 (addU64 (addU64 (mulU64 (eligibleEdges query snapshot).length 64)
    (mulU64 snapshot.nodes.length 32)) (mulU64 snapshot.sites.length 32))
    (mulU64 snapshot.evidence.length 32)

/-- The check of the memory for the indexes. -/
def checkInitialMemory (query : TypedQueryAst) (snapshot : QueriedSnapshot)
    (limits : BoundedQueryLimits) : Except BoundedQueryExecutionError Unit :=
  let observed := initialMemory query snapshot
  if limits.workingMemoryBytes < observed then
    .error (resourceError "working_memory_bytes" observed limits.workingMemoryBytes)
  else .ok ()

/-- `Executor::new`, without the questions whether to go on. -/
def Executor.new (floatText : FloatText) (query : TypedQueryAst) (snapshotId : String)
    (snapshot : QueriedSnapshot) (limits : BoundedQueryLimits)
    (interrupts : Nat → Option BoundedQueryExecutionError) :
    Except BoundedQueryExecutionError Executor := do
  checkInitialMemory query snapshot limits
  let direction := query.matchClause.relationship.direction
  let eligible := eligibleEdges query snapshot
  let nodes ← indexRecords NodeRecord.id
    "selected snapshot contains duplicate node identifiers" snapshot.nodes
  let sites ← indexRecords SiteRecord.id
    "selected snapshot contains duplicate site identifiers" snapshot.sites
  let evidence := snapshot.evidence.foldl (addUnder fun item => [item.ownerType, item.ownerId]) ∅
  let edges ← indexRecords EdgeRecord.id
    "selected snapshot contains duplicate edge identifiers" eligible
  let adjacency := eligible.foldl (addUnder fun edge => metNodeId edge direction) ∅
  return {
    floatText, query, snapshotId, limits, interrupts, nodes, edges, sites
    evidence := evidence.map fun _ records =>
      records.mergeSort fun a b => (Executor.evidenceOrder a b).isLE
    adjacency := adjacency.map fun _ edges => SortDedup.sortByKey EdgeRecord.id edges
    somePredicates := query.whereClause.elim [] collectSomePredicates }

end Query
