import Depgraph.Protocol.ConditionText
import Depgraph.Protocol.Model
import Depgraph.Store.Record

/-!
# Typed queries

`bounded_query_type.rs` and `bounded_query_execute.rs`: the expressions of a type-checked query and
what a scalar predicate says of a node, a path, an edge, a site or a piece of evidence.
-/

namespace Query

open Json Protocol Store Std

/-! ### Expressions -/

inductive EntityType where
  | node
  | path
  | edge
  | site
  | evidence
deriving DecidableEq

inductive ScalarType where
  | string
  | unsignedInteger
  | boolean
deriving DecidableEq

inductive QueryType where
  | entity (type : EntityType)
  | scalar (type : ScalarType)
  | list (type : ScalarType)

inductive Literal where
  | string (value : String)
  | unsigned (value : Nat)
  | boolean (value : Bool)
  | null
deriving DecidableEq

inductive ScalarOperator where
  | equal (literal : Literal)
  | notEqual (literal : Literal)
  | less (literal : Literal)
  | lessOrEqual (literal : Literal)
  | greater (literal : Literal)
  | greaterOrEqual (literal : Literal)
  | startsWith (literal : Literal)
  | isIn (literals : List Literal)

structure TypedFieldReference where
  binding : String
  entityType : EntityType
  field : String
  scalarType : ScalarType
  nullable : Bool
deriving DecidableEq

structure TypedScalarPredicate where
  field : TypedFieldReference
  operator : ScalarOperator
  operandType : QueryType

inductive TypedEntityExpression where
  | or (terms : List TypedEntityExpression)
  | and (terms : List TypedEntityExpression)
  | not (inner : TypedEntityExpression)
  | scalar (predicate : TypedScalarPredicate)

structure BindingDefinition where
  name : String
  entityType : EntityType
deriving DecidableEq

structure TypedQuantifierPredicate where
  binding : BindingDefinition
  pathBinding : String
  expression : TypedEntityExpression

inductive TypedExpression where
  | or (terms : List TypedExpression)
  | and (terms : List TypedExpression)
  | not (inner : TypedExpression)
  | scalar (predicate : TypedScalarPredicate)
  | quantifier (predicate : TypedQuantifierPredicate)

/-- Induction with the terms of `or` and `and` as a list. -/
theorem TypedExpression.ind {P : TypedExpression → Prop}
    (or : ∀ terms, (∀ term ∈ terms, P term) → P (.or terms))
    (and : ∀ terms, (∀ term ∈ terms, P term) → P (.and terms)) (not : ∀ inner, P inner → P (.not inner))
    (scalar : ∀ predicate, P (.scalar predicate))
    (quantifier : ∀ predicate, P (.quantifier predicate)) : ∀ expression, P expression
  | .or terms => or terms fun term _ => ind or and not scalar quantifier term
  | .and terms => and terms fun term _ => ind or and not scalar quantifier term
  | .not inner => not inner (ind or and not scalar quantifier inner)
  | .scalar predicate => scalar predicate
  | .quantifier predicate => quantifier predicate

inductive QueryDirection where
  | forward
  | reverse

structure RelationshipPattern where
  direction : QueryDirection
  kinds : List String
  minDepth : Nat
  maxDepth : Nat

structure TypedNodePattern where
  binding : BindingDefinition
  kind : Option String

structure TypedMatchClause where
  path : BindingDefinition
  source : TypedNodePattern
  relationship : RelationshipPattern
  target : TypedNodePattern

inductive TypedProjection where
  | binding (binding : BindingDefinition)
  | field (field : TypedFieldReference)
deriving DecidableEq

inductive SortDirection where
  | ascending
  | descending

structure TypedOrderItem where
  projection : TypedProjection
  direction : SortDirection

structure TypedReturnClause where
  distinct : Bool
  projections : List TypedProjection

structure TypedQueryAst where
  matchClause : TypedMatchClause
  whereClause : Option TypedExpression
  returnClause : TypedReturnClause
  orderBy : List TypedOrderItem
  limit : Nat

/-! ### Scalar predicates -/

def directionName : QueryDirection → String
  | .forward => "forward"
  | .reverse => "reverse"

inductive EntityView where
  | node (node : NodeRecord)
  | path (id : Option String) (depth : Nat) (direction : String)
  | edge (edge : EdgeRecord)
  | site (site : SiteRecord)
  | evidence (evidence : EvidenceRecord)

/-- A string, or `null`. -/
def optionalString (s : Option String) : Value := s.elim .null .string

def literalValue : Literal → Value
  | .string value => .string value
  | .unsigned value => natValue value
  | .boolean value => .bool value
  | .null => .null

def asU64 : Number → Option Nat
  | .int n => if 0 ≤ n then some n.toNat else none
  | .float _ => none

def scalarOrder : Value → Value → Option Ordering
  | .string left, .string right => some (compare left right)
  | .number left, .number right => do
    let left ← asU64 left
    let right ← asU64 right
    return compare left right
  | _, _ => none

section Fields

variable (F : FloatText)

def entityFieldValue (entity : EntityView) (field : String) : Option Value :=
  match entity with
  | .node node =>
    match field with
    | "id" => some (.string node.id)
    | "kind" => some (.string node.kind)
    | "locator" => some (.string node.locator)
    | "display_name" => some (.string node.displayName)
    | _ => none
  | .path id depth direction =>
    match field with
    | "id" => some (optionalString id)
    | "depth" => some (natValue depth)
    | "direction" => some (.string direction)
    | _ => none
  | .edge edge =>
    match field with
    | "id" => some (.string edge.id)
    | "kind" => some (.string edge.kind)
    | "phase" => some (.string edge.phase)
    | "environment" => some (.string edge.environment)
    | "profile_id" => some (.string edge.profileId)
    | "resolution_status" => some (.string edge.resolutionStatus)
    | "precision" => some (.string edge.precision)
    | "condition" => some (.string (renderCondition F edge.condition.value))
    | "generated" => some (.bool edge.generated)
    | _ => none
  | .site site =>
    match field with
    | "id" => some (.string site.id)
    | "kind" => some (.string site.kind)
    | "specifier" => some (optionalString site.specifier)
    | "profile_id" => some (.string site.profileId)
    | "resolution_status" => some (.string site.resolutionStatus)
    | "precision" => some (.string site.precision)
    | "condition" => some (.string (renderCondition F site.condition.value))
    | "reason" => some (optionalString site.reason)
    | _ => none
  | .evidence evidence =>
    match field with
    | "owner_type" => some (.string evidence.ownerType)
    | "kind" => some (.string evidence.kind)
    | "extractor" => some (.string evidence.extractor)
    | "extractor_version" => some (.string evidence.extractorVersion)
    | "path" => some (.string evidence.path)
    | "start_line" => some (natValue evidence.startLine)
    | "start_column" => some (natValue evidence.startColumn)
    | "end_line" => some (natValue evidence.endLine)
    | "end_column" => some (natValue evidence.endColumn)
    | "ordinal" => if 0 ≤ evidence.ordinal then some (natValue evidence.ordinal.toNat) else none
    | _ => none

/-- The two orders that `<=` or `>=` accepts. -/
def isOrEqual (order : Ordering) (result : Option Ordering) : Bool :=
  result == some order || result == some .eq

/-- The operator, on the value of the field. -/
def applyOperator (left : Value) : ScalarOperator → Bool
  | .equal literal => left == literalValue literal
  | .notEqual literal => !(left == literalValue literal)
  | .less literal => scalarOrder left (literalValue literal) == some .lt
  | .lessOrEqual literal => isOrEqual .lt (scalarOrder left (literalValue literal))
  | .greater literal => scalarOrder left (literalValue literal) == some .gt
  | .greaterOrEqual literal => isOrEqual .gt (scalarOrder left (literalValue literal))
  | .startsWith (.string start) =>
    match left with
    | .string value => (utf8 start).isPrefixOf (utf8 value)
    | _ => false
  | .startsWith _ => false
  | .isIn literals => literals.any fun literal => left == literalValue literal

def evaluateScalarPredicate (predicate : TypedScalarPredicate) (entity : EntityView) : Bool :=
  (entityFieldValue F entity predicate.field.field).any fun left =>
    applyOperator left predicate.operator

mutual

def evaluateEntityExpression (entity : EntityView) : TypedEntityExpression → Bool
  | .or terms => anyEntityTerm entity terms
  | .and terms => allEntityTerms entity terms
  | .not inner => !evaluateEntityExpression entity inner
  | .scalar predicate => evaluateScalarPredicate F predicate entity

def anyEntityTerm (entity : EntityView) : List TypedEntityExpression → Bool
  | [] => false
  | term :: terms => evaluateEntityExpression entity term || anyEntityTerm entity terms

def allEntityTerms (entity : EntityView) : List TypedEntityExpression → Bool
  | [] => true
  | term :: terms => evaluateEntityExpression entity term && allEntityTerms entity terms

end

end Fields

/-! ### What an expression asks for -/

/-- The quantifier is about sites or evidence, some of which must match. -/
def TypedQuantifierPredicate.isSome (predicate : TypedQuantifierPredicate) : Bool :=
  predicate.binding.entityType == .site || predicate.binding.entityType == .evidence

mutual

def collectSomePredicates : TypedExpression → List TypedQuantifierPredicate
  | .or terms => collectFromTerms terms
  | .and terms => collectFromTerms terms
  | .not inner => collectSomePredicates inner
  | .scalar _ => []
  | .quantifier predicate => if predicate.isSome then [predicate] else []

def collectFromTerms : List TypedExpression → List TypedQuantifierPredicate
  | [] => []
  | term :: terms => collectSomePredicates term ++ collectFromTerms terms

end

mutual

/-- `expression_references_only_source`. -/
def referencesOnlySource (sourceBinding : String) : TypedExpression → Bool
  | .or terms => termsReferenceOnlySource sourceBinding terms
  | .and terms => termsReferenceOnlySource sourceBinding terms
  | .not inner => referencesOnlySource sourceBinding inner
  | .scalar predicate => predicate.field.binding == sourceBinding
  | .quantifier _ => false

def termsReferenceOnlySource (sourceBinding : String) : List TypedExpression → Bool
  | [] => true
  | term :: terms =>
    referencesOnlySource sourceBinding term && termsReferenceOnlySource sourceBinding terms

end

mutual

/-- The `find` of `source_id_lookup`. -/
def findSourceId (sourceBinding : String) : TypedExpression → Option String
  | .scalar predicate =>
    if predicate.field.binding == sourceBinding && predicate.field.field == "id" then
      match predicate.operator with
      | .equal (.string value) => some value
      | _ => none
    else none
  | .and terms => findSourceIdIn sourceBinding terms
  | _ => none

def findSourceIdIn (sourceBinding : String) : List TypedExpression → Option String
  | [] => none
  | term :: terms => (findSourceId sourceBinding term).or (findSourceIdIn sourceBinding terms)

end

def sourceIdLookup (query : TypedQueryAst) : Option String :=
  query.whereClause.bind (findSourceId query.matchClause.source.binding.name)

end Query
