import Depgraph.Library.Metered
import Depgraph.Query.Typed
import Mathlib.Data.Prod.Lex

/-!
# The type checker of bounded queries

`bounded_query_type.rs`: a parsed query is checked against its bindings and the closed registry of
fields, and its expressions are put into a canonical form: nested terms of one kind are flattened and
sorted by their serialized text, and a single term stands for itself.
-/

namespace Query

open Json Protocol SortDedup Metered Std

/-! ### Parsed queries -/

structure FieldReference where
  binding : String
  field : String

structure ScalarPredicate where
  field : FieldReference
  operator : ScalarOperator

inductive EntityExpression where
  | or (terms : List EntityExpression)
  | and (terms : List EntityExpression)
  | not (inner : EntityExpression)
  | scalar (predicate : ScalarPredicate)

inductive QuantifierKind where
  | everyEdge
  | someSite
  | someEvidence

/-- The entities of a quantifier. -/
def QuantifierKind.entityType : QuantifierKind → EntityType
  | .everyEdge => .edge
  | .someSite => .site
  | .someEvidence => .evidence

structure QuantifierPredicate where
  kind : QuantifierKind
  binding : String
  pathBinding : String
  expression : EntityExpression

inductive Expression where
  | or (terms : List Expression)
  | and (terms : List Expression)
  | not (inner : Expression)
  | scalar (predicate : ScalarPredicate)
  | quantifier (predicate : QuantifierPredicate)

structure NodePattern where
  binding : String
  kind : Option String

structure MatchClause where
  pathBinding : String
  source : NodePattern
  relationship : RelationshipPattern
  target : NodePattern

inductive Projection where
  | binding (binding : String)
  | field (reference : FieldReference)

structure ReturnClause where
  distinct : Bool
  projections : List Projection

structure OrderItem where
  projection : Projection
  direction : SortDirection

structure QueryAst where
  contractVersion : String
  matchClause : MatchClause
  whereClause : Option Expression
  returnClause : ReturnClause
  orderBy : List OrderItem
  limit : Nat

/-! ### Serialized expressions -/

/-- A variant with a value. -/
def tagged (kind : String) (value : Value) : Value :=
  .object [("kind", .string kind), ("value", value)]

def EntityType.name : EntityType → String
  | .node => "node"
  | .path => "path"
  | .edge => "edge"
  | .site => "site"
  | .evidence => "evidence"

def ScalarType.name : ScalarType → String
  | .string => "string"
  | .unsignedInteger => "unsigned_integer"
  | .boolean => "boolean"

def QueryType.value : QueryType → Value
  | .entity type => tagged "entity" (.string type.name)
  | .scalar type => tagged "scalar" (.string type.name)
  | .list type => tagged "list" (.string type.name)

def Literal.value : Literal → Value
  | .string value => tagged "string" (.string value)
  | .unsigned value => tagged "unsigned" (natValue value)
  | .boolean value => tagged "boolean" (.bool value)
  | .null => .object [("kind", .string "null")]

def ScalarOperator.value : ScalarOperator → Value
  | .equal literal => tagged "equal" literal.value
  | .notEqual literal => tagged "not_equal" literal.value
  | .less literal => tagged "less" literal.value
  | .lessOrEqual literal => tagged "less_or_equal" literal.value
  | .greater literal => tagged "greater" literal.value
  | .greaterOrEqual literal => tagged "greater_or_equal" literal.value
  | .startsWith literal => tagged "starts_with" literal.value
  | .isIn literals => tagged "in" (.array (literals.map Literal.value))

def TypedFieldReference.value (field : TypedFieldReference) : Value :=
  .object [("binding", .string field.binding), ("entity_type", .string field.entityType.name),
    ("field", .string field.field), ("scalar_type", .string field.scalarType.name),
    ("nullable", .bool field.nullable)]

def TypedScalarPredicate.value (predicate : TypedScalarPredicate) : Value :=
  .object [("field", predicate.field.value), ("operator", predicate.operator.value),
    ("operand_type", predicate.operandType.value)]

def BindingDefinition.value (binding : BindingDefinition) : Value :=
  .object [("name", .string binding.name), ("entity_type", .string binding.entityType.name)]

mutual

def TypedEntityExpression.value : TypedEntityExpression → Value
  | .or terms => tagged "or" (.array (entityTermValues terms))
  | .and terms => tagged "and" (.array (entityTermValues terms))
  | .not inner => tagged "not" inner.value
  | .scalar predicate => tagged "scalar" predicate.value

def entityTermValues : List TypedEntityExpression → List Value
  | [] => []
  | term :: terms => term.value :: entityTermValues terms

end

def TypedQuantifierPredicate.value (predicate : TypedQuantifierPredicate) : Value :=
  .object [("binding", predicate.binding.value), ("path_binding", .string predicate.pathBinding),
    ("expression", predicate.expression.value)]

mutual

def TypedExpression.value : TypedExpression → Value
  | .or terms => tagged "or" (.array (termValues terms))
  | .and terms => tagged "and" (.array (termValues terms))
  | .not inner => tagged "not" inner.value
  | .scalar predicate => tagged "scalar" predicate.value
  | .quantifier predicate => tagged "quantifier" predicate.value

def termValues : List TypedExpression → List Value
  | [] => []
  | term :: terms => term.value :: termValues terms

end

namespace TypeChecker

/-! ### Diagnostics -/

inductive QueryFailureClass where
  | input
  | security
  | syntactic
  | limit
  | binding
  | type

structure QueryOrigin where
  line : Nat
  column : Nat
  byteOffset : Nat

structure QueryDiagnostic where
  code : String
  failureClass : QueryFailureClass
  clause : String
  tokenClass : String
  origin : QueryOrigin
  message : String

def diagnostic (code : String) (failureClass : QueryFailureClass)
    (clause tokenClass message : String) : QueryDiagnostic :=
  ⟨code, failureClass, clause, tokenClass, ⟨1, 1, 0⟩, message⟩

def operatorTypeError : QueryDiagnostic :=
  diagnostic "query_operator_type_invalid" .type "where" "scalar_operator"
    "operator and literal are incompatible with the field type"

/-! ### Fields -/

structure FieldDefinition where
  entityType : EntityType
  name : String
  scalarType : ScalarType
  nullable : Bool
  whereAllowed : Bool

def fieldRegistry : List FieldDefinition :=
  [⟨.node, "id", .string, false, true⟩, ⟨.node, "kind", .string, false, true⟩,
    ⟨.node, "locator", .string, false, true⟩, ⟨.node, "display_name", .string, false, true⟩,
    ⟨.path, "id", .string, false, false⟩, ⟨.path, "depth", .unsignedInteger, false, true⟩,
    ⟨.path, "direction", .string, false, true⟩,
    ⟨.edge, "id", .string, false, true⟩, ⟨.edge, "kind", .string, false, true⟩,
    ⟨.edge, "phase", .string, false, true⟩, ⟨.edge, "environment", .string, false, true⟩,
    ⟨.edge, "profile_id", .string, false, true⟩,
    ⟨.edge, "resolution_status", .string, false, true⟩,
    ⟨.edge, "precision", .string, false, true⟩, ⟨.edge, "condition", .string, false, true⟩,
    ⟨.edge, "generated", .boolean, false, true⟩,
    ⟨.site, "id", .string, true, true⟩, ⟨.site, "kind", .string, true, true⟩,
    ⟨.site, "specifier", .string, true, true⟩, ⟨.site, "profile_id", .string, true, true⟩,
    ⟨.site, "resolution_status", .string, true, true⟩, ⟨.site, "precision", .string, true, true⟩,
    ⟨.site, "condition", .string, true, true⟩, ⟨.site, "reason", .string, true, true⟩,
    ⟨.evidence, "owner_type", .string, false, true⟩, ⟨.evidence, "kind", .string, false, true⟩,
    ⟨.evidence, "extractor", .string, false, true⟩,
    ⟨.evidence, "extractor_version", .string, false, true⟩,
    ⟨.evidence, "path", .string, false, true⟩,
    ⟨.evidence, "start_line", .unsignedInteger, false, true⟩,
    ⟨.evidence, "start_column", .unsignedInteger, false, true⟩,
    ⟨.evidence, "end_line", .unsignedInteger, false, true⟩,
    ⟨.evidence, "end_column", .unsignedInteger, false, true⟩,
    ⟨.evidence, "ordinal", .unsignedInteger, false, true⟩]

def resolveField (reference : FieldReference) (entityType : EntityType) (whereContext : Bool) :
    Except QueryDiagnostic TypedFieldReference :=
  match fieldRegistry.find? fun field =>
      field.entityType == entityType && field.name == reference.field with
  | none => .error (diagnostic "query_field_unknown" .type
      (if whereContext then "where" else "projection") "field"
      "field is not present in the closed field registry")
  | some definition =>
    if whereContext && !definition.whereAllowed then
      .error (diagnostic "query_path_id_where_forbidden" .type "where" "field"
        "field is not available to WHERE predicates")
    else
      .ok ⟨reference.binding, entityType, reference.field, definition.scalarType,
        definition.nullable⟩

section Check

variable (F : FloatText)

/-- The serialized text. -/
def serialized (value : Value) : String := String.ofList (value.text F)

/-! ### Canonical expressions -/

/-- Flattened terms, sorted by their texts; a single one stands for itself. -/
def canonicalTerms {T : Type} (text : T → String) (children : T → List T) (join : List T → T)
    (terms : List T) : T :=
  match sortByKey text (terms.flatMap children) with
  | [term] => term
  | flattened => join flattened

/-- The terms that a term of a disjunction stands for. -/
def orTerms : TypedExpression → List TypedExpression
  | .or children => children
  | term => [term]

/-- The terms that a term of a conjunction stands for. -/
def andTerms : TypedExpression → List TypedExpression
  | .and children => children
  | term => [term]

def canonicalExpressionOr (terms : List TypedExpression) : TypedExpression :=
  canonicalTerms (fun term => serialized F term.value) orTerms .or terms

def canonicalExpressionAnd (terms : List TypedExpression) : TypedExpression :=
  canonicalTerms (fun term => serialized F term.value) andTerms .and terms

/-- The terms about an entity that a term of a disjunction stands for. -/
def entityOrTerms : TypedEntityExpression → List TypedEntityExpression
  | .or children => children
  | term => [term]

/-- The terms about an entity that a term of a conjunction stands for. -/
def entityAndTerms : TypedEntityExpression → List TypedEntityExpression
  | .and children => children
  | term => [term]

def canonicalEntityOr (terms : List TypedEntityExpression) : TypedEntityExpression :=
  canonicalTerms (fun term => serialized F term.value) entityOrTerms .or terms

def canonicalEntityAnd (terms : List TypedEntityExpression) : TypedEntityExpression :=
  canonicalTerms (fun term => serialized F term.value) entityAndTerms .and terms

/-! ### Scalar predicates -/

def literalScalarType : Literal → Option ScalarType
  | .string _ => some .string
  | .unsigned _ => some .unsignedInteger
  | .boolean _ => some .boolean
  | .null => none

/-- The derived order of literals. -/
def literalKey : Literal → Nat ×ₗ String ×ₗ Nat
  | .string value => toLex (0, toLex (value, 0))
  | .unsigned value => toLex (1, toLex ("", value))
  | .boolean value => toLex (2, toLex ("", value.toNat))
  | .null => toLex (3, toLex ("", 0))

/-- Two neighbours are equal. -/
def hasTwins {α : Type} [DecidableEq α] : List α → Bool
  | a :: b :: rest => a == b || hasTwins (b :: rest)
  | _ => false

def checkEqualityLiteral (field : TypedFieldReference) : Literal → Except QueryDiagnostic Unit
  | .null => if field.nullable then .ok () else .error operatorTypeError
  | literal =>
    if literalScalarType literal = some field.scalarType then .ok () else .error operatorTypeError

/-- The check of a literal that is compared by order. -/
def checkOrderedLiteral (field : TypedFieldReference) (literal : Literal) :
    Except QueryDiagnostic Unit :=
  if !(field.scalarType == .string || field.scalarType == .unsignedInteger) ||
      literalScalarType literal != some field.scalarType then
    .error operatorTypeError
  else .ok ()

def checkOperator (field : TypedFieldReference) (operator : ScalarOperator) :
    Except QueryDiagnostic (ScalarOperator × QueryType) :=
  match operator with
  | .equal literal | .notEqual literal => do
    checkEqualityLiteral field literal
    return (operator, .scalar field.scalarType)
  | .less literal | .lessOrEqual literal | .greater literal | .greaterOrEqual literal => do
    checkOrderedLiteral field literal
    return (operator, .scalar field.scalarType)
  | .startsWith (.string start) =>
    if field.scalarType ≠ .string then .error operatorTypeError
    else if start.isEmpty then
      .error (diagnostic "query_prefix_empty" .type "where" "string"
        "STARTS WITH requires a non-empty normalized prefix")
    else .ok (operator, .scalar .string)
  | .startsWith _ => .error operatorTypeError
  | .isIn literals =>
    if literals.isEmpty ||
        literals.any fun literal => literalScalarType literal != some field.scalarType then
      .error operatorTypeError
    else if hasTwins (sortByKey literalKey literals) then
      .error (diagnostic "query_duplicate_list_literal" .type "where" "literal_list"
        "IN list contains a duplicate literal")
    else .ok (.isIn (sortByKey literalKey literals), .list field.scalarType)

/-- `check_scalar`, in the `where` clause. -/
def checkScalar (predicate : ScalarPredicate) (entityType : EntityType) :
    Except QueryDiagnostic TypedScalarPredicate := do
  let field ← resolveField predicate.field entityType true
  let (operator, operandType) ← checkOperator field predicate.operator
  return ⟨field, operator, operandType⟩

def reservedBindingWords : List String :=
  ["AND", "ASC", "BY", "DESC", "DISTINCT", "EVERY", "FALSE", "IN", "LIMIT", "MATCH", "NOT", "NULL",
    "OR", "ORDER", "RETURN", "SATISFIES", "SOME", "STARTS", "TRUE", "WHERE", "WITH"]

def eqIgnoreAsciiCase (a b : String) : Bool :=
  a.toList.map Char.toLower == b.toList.map Char.toLower

def validateBindingName (name clause : String) : Except QueryDiagnostic Unit :=
  if reservedBindingWords.any (eqIgnoreAsciiCase name) then
    .error (diagnostic "query_binding_reserved" .binding clause "identifier"
      "binding uses a reserved keyword")
  else .ok ()

/-- The error of a name that is taken. -/
def shadowedError (clause : String) : QueryDiagnostic :=
  diagnostic "query_binding_shadowed" .binding clause "identifier"
    "query binding shadows another binding"

/-! ### Expressions -/

mutual

def checkEntityExpression (binding : String) (entityType : EntityType) :
    EntityExpression → Except QueryDiagnostic TypedEntityExpression
  | .or terms => do return canonicalEntityOr F (← checkEntityTerms binding entityType terms)
  | .and terms => do return canonicalEntityAnd F (← checkEntityTerms binding entityType terms)
  | .not inner => do return .not (← checkEntityExpression binding entityType inner)
  | .scalar predicate =>
    if predicate.field.binding ≠ binding then
      .error (diagnostic "query_quantifier_binding_capture" .binding "where" "field"
        "quantifier expression may reference only its introduced binding")
    else do return .scalar (← checkScalar predicate entityType)

def checkEntityTerms (binding : String) (entityType : EntityType) :
    List EntityExpression → Except QueryDiagnostic (List TypedEntityExpression)
  | [] => .ok []
  | term :: terms => do
    let term ← checkEntityExpression binding entityType term
    let terms ← checkEntityTerms binding entityType terms
    return term :: terms

end

variable (topLevel : ExtTreeMap String EntityType)

def checkTopLevelScalar (predicate : ScalarPredicate) :
    Except QueryDiagnostic TypedScalarPredicate :=
  match topLevel[predicate.field.binding]? with
  | none => .error (diagnostic "query_binding_unknown" .binding "where" "field"
      "predicate references an unknown binding")
  | some entityType => checkScalar predicate entityType

/-- The checks of the bindings of a quantifier, with those that are taken. -/
def checkQuantifierBindings (predicate : QuantifierPredicate) (taken : ExtTreeSet String) :
    Except QueryDiagnostic Unit := do
  if topLevel[predicate.pathBinding]? ≠ some .path then
    .error (diagnostic "query_quantifier_path_binding_invalid" .binding "where" "identifier"
      "quantifier collection must reference the matched path binding")
  else
    validateBindingName predicate.binding "where"
    if predicate.binding ∈ topLevel ∨ predicate.binding ∈ taken then
      .error (shadowedError "where")
    else .ok ()

mutual

/-- `check_expression`, which also takes the names of the quantified bindings. -/
def checkExpression (taken : ExtTreeSet String) :
    Expression → Except QueryDiagnostic (TypedExpression × ExtTreeSet String)
  | .or terms => do
    let (terms, taken) ← checkTerms taken terms
    return (canonicalExpressionOr F terms, taken)
  | .and terms => do
    let (terms, taken) ← checkTerms taken terms
    return (canonicalExpressionAnd F terms, taken)
  | .not inner => do
    let (inner, taken) ← checkExpression taken inner
    return (.not inner, taken)
  | .scalar predicate => do return (.scalar (← checkTopLevelScalar topLevel predicate), taken)
  | .quantifier predicate => do
    checkQuantifierBindings topLevel predicate taken
    let entityType := predicate.kind.entityType
    let expression ← checkEntityExpression F predicate.binding entityType predicate.expression
    return (.quantifier ⟨⟨predicate.binding, entityType⟩, predicate.pathBinding, expression⟩,
      taken.insert predicate.binding)

def checkTerms (taken : ExtTreeSet String) :
    List Expression → Except QueryDiagnostic (List TypedExpression × ExtTreeSet String)
  | [] => .ok ([], taken)
  | term :: terms => do
    let (term, taken) ← checkExpression taken term
    let (terms, taken) ← checkTerms taken terms
    return (term :: terms, taken)

end

/-! ### Clauses -/

def checkProjection (clause : String) : Projection → Except QueryDiagnostic TypedProjection
  | .binding binding =>
    match topLevel[binding]? with
    | none => .error (diagnostic "query_projection_binding_invalid" .binding clause "projection"
        "projection references a non-top-level binding")
    | some entityType => .ok (.binding ⟨binding, entityType⟩)
  | .field reference =>
    match topLevel[reference.binding]? with
    | none => .error (diagnostic "query_projection_binding_invalid" .binding clause "projection"
        "projection references a non-top-level binding")
    | some entityType => do return .field (← resolveField reference entityType false)

def checkReturnClause (clause : ReturnClause) : Except QueryDiagnostic TypedReturnClause := do
  return ⟨clause.distinct, ← clause.projections.mapM (checkProjection topLevel "return")⟩

def checkOrderItem (projections : List TypedProjection) (item : OrderItem) :
    Except QueryDiagnostic TypedOrderItem := do
  let projection ← checkProjection topLevel "order_by" item.projection
  if projection ∈ projections then
    .ok ⟨projection, item.direction⟩
  else
    .error (diagnostic "query_order_projection_missing" .type "order_by" "projection"
      "ORDER BY item is not present in RETURN")

def typedNodePattern (pattern : NodePattern) : TypedNodePattern :=
  ⟨⟨pattern.binding, .node⟩, pattern.kind⟩

def checkMatchClause (clause : MatchClause) : Except QueryDiagnostic TypedMatchClause :=
  let kinds := sortByKey id clause.relationship.kinds
  if hasTwins kinds then
    .error (diagnostic "query_duplicate_relationship_kind" .type "match" "string"
      "relationship kind set contains a duplicate")
  else
    .ok ⟨⟨clause.pathBinding, .path⟩, typedNodePattern clause.source,
      { clause.relationship with kinds }, typedNodePattern clause.target⟩

/-- A binding of the match clause. -/
def addTopLevel (topLevel : ExtTreeMap String EntityType) (binding : String × EntityType) :
    Except QueryDiagnostic (ExtTreeMap String EntityType) := do
  validateBindingName binding.1 "match"
  if binding.1 ∈ topLevel then
    .error (shadowedError "match")
  else .ok (topLevel.insert binding.1 binding.2)

/-- `TypeChecker::new`. -/
def newTypeChecker (clause : MatchClause) :
    Except QueryDiagnostic (ExtTreeMap String EntityType) :=
  [(clause.source.binding, EntityType.node), (clause.pathBinding, .path),
    (clause.target.binding, .node)].foldlM addTopLevel ∅

/-- The `where` clause of `check`. -/
def checkWhere : Option Expression → Except QueryDiagnostic (Option TypedExpression)
  | none => .ok none
  | some expression => do return some (← checkExpression F topLevel ∅ expression).1

def check (ast : QueryAst) : Except QueryDiagnostic TypedQueryAst := do
  let matchClause ← checkMatchClause ast.matchClause
  let whereClause ← checkWhere F topLevel ast.whereClause
  let returnClause ← checkReturnClause topLevel ast.returnClause
  let orderBy ← ast.orderBy.mapM (checkOrderItem topLevel returnClause.projections)
  return ⟨matchClause, whereClause, returnClause, orderBy, ast.limit⟩

def boundedQueryContractVersion : String := "bounded-graph-query-v1"

/-- The AST of `type_check_bounded_query`. -/
def typeCheckBoundedQuery (ast : QueryAst) : Except QueryDiagnostic TypedQueryAst :=
  if ast.contractVersion ≠ boundedQueryContractVersion then
    .error (diagnostic "query_contract_version_invalid" .type "query" "contract_version"
      "query contract version is not supported")
  else do check F (← newTypeChecker ast.matchClause) ast

end Check

end TypeChecker

end Query
