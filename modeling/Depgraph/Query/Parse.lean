import Depgraph.Query.TypeCheck

/-!
# The parser of bounded queries

The parser of `bounded_query.rs`, from the tokens to the syntax tree. It looks at one token at a time
and would panic if it looked past the last one. Each loop reads a token before its next round, so it
has at most as many rounds as there are tokens; expressions nest as deep as the levels allow.
-/

namespace Query

open Json Protocol SortDedup Metered

/-! ### Tokens -/

inductive TokenKind where
  | identifier (value : String)
  | string (value : String)
  | unsigned (value : Nat)
  | leftParen
  | rightParen
  | leftBracket
  | rightBracket
  | comma
  | colon
  | dot
  | equal
  | notEqual
  | less
  | lessOrEqual
  | greater
  | greaterOrEqual
  | pipe
  | star
  | range
  | dash
  | arrowRight
  | arrowLeft
  | semicolon
  | endOfInput
deriving DecidableEq

/-- `class`. -/
def TokenKind.tokenClass : TokenKind → String
  | .identifier _ => "identifier"
  | .string _ => "string"
  | .unsigned _ => "unsigned_integer"
  | .leftParen => "left_parenthesis"
  | .rightParen => "right_parenthesis"
  | .leftBracket => "left_bracket"
  | .rightBracket => "right_bracket"
  | .comma => "comma"
  | .colon => "colon"
  | .dot => "dot"
  | .equal => "equal"
  | .notEqual => "not_equal"
  | .less => "less"
  | .lessOrEqual => "less_or_equal"
  | .greater => "greater"
  | .greaterOrEqual => "greater_or_equal"
  | .pipe => "pipe"
  | .star => "star"
  | .range => "range"
  | .dash => "dash"
  | .arrowRight => "right_arrow"
  | .arrowLeft => "left_arrow"
  | .semicolon => "semicolon"
  | .endOfInput => "end_of_input"

structure Token where
  kind : TokenKind
  origin : TypeChecker.QueryOrigin

/-! ### Serialized syntax trees -/

def FieldReference.value (reference : FieldReference) : Value :=
  .object [("binding", .string reference.binding), ("field", .string reference.field)]

def ScalarPredicate.value (predicate : ScalarPredicate) : Value :=
  .object [("field", predicate.field.value), ("operator", predicate.operator.value)]

def QuantifierKind.name : QuantifierKind → String
  | .everyEdge => "every_edge"
  | .someSite => "some_site"
  | .someEvidence => "some_evidence"

mutual

def EntityExpression.value : EntityExpression → Value
  | .or terms => tagged "or" (.array (entityExpressionValues terms))
  | .and terms => tagged "and" (.array (entityExpressionValues terms))
  | .not inner => tagged "not" inner.value
  | .scalar predicate => tagged "scalar" predicate.value

def entityExpressionValues : List EntityExpression → List Value
  | [] => []
  | term :: terms => term.value :: entityExpressionValues terms

end

def QuantifierPredicate.value (predicate : QuantifierPredicate) : Value :=
  .object [("kind", .string predicate.kind.name), ("binding", .string predicate.binding),
    ("path_binding", .string predicate.pathBinding), ("expression", predicate.expression.value)]

mutual

def Expression.value : Expression → Value
  | .or terms => tagged "or" (.array (expressionValues terms))
  | .and terms => tagged "and" (.array (expressionValues terms))
  | .not inner => tagged "not" inner.value
  | .scalar predicate => tagged "scalar" predicate.value
  | .quantifier predicate => tagged "quantifier" predicate.value

def expressionValues : List Expression → List Value
  | [] => []
  | term :: terms => term.value :: expressionValues terms

end

/-! ### Nodes of syntax trees -/

def scalarPredicateCount (predicate : ScalarPredicate) : Nat :=
  2 + match predicate.operator with
    | .isIn literals => 1 + literals.length
    | _ => 1

mutual

def entityExpressionCount : EntityExpression → Nat
  | .or terms => 1 + entityExpressionCounts terms
  | .and terms => 1 + entityExpressionCounts terms
  | .not inner => 1 + entityExpressionCount inner
  | .scalar predicate => 1 + scalarPredicateCount predicate

def entityExpressionCounts : List EntityExpression → Nat
  | [] => 0
  | term :: terms => entityExpressionCount term + entityExpressionCounts terms

end

mutual

def expressionCount : Expression → Nat
  | .or terms => 1 + expressionCounts terms
  | .and terms => 1 + expressionCounts terms
  | .not inner => 1 + expressionCount inner
  | .scalar predicate => 1 + scalarPredicateCount predicate
  | .quantifier predicate => 1 + (1 + entityExpressionCount predicate.expression)

def expressionCounts : List Expression → Nat
  | [] => 0
  | term :: terms => expressionCount term + expressionCounts terms

end

def nodePatternCount (pattern : NodePattern) : Nat := 1 + pattern.kind.isSome.toNat

def relationshipCount (pattern : RelationshipPattern) : Nat := 1 + pattern.kinds.length + 2

def projectionCount : Projection → Nat
  | .binding _ => 1
  | .field _ => 2

def orderItemCount (item : OrderItem) : Nat := 1 + projectionCount item.projection

def astNodeCount (ast : QueryAst) : Nat :=
  1 + 1 + nodePatternCount ast.matchClause.source
    + relationshipCount ast.matchClause.relationship
    + nodePatternCount ast.matchClause.target
    + (ast.whereClause.map expressionCount).getD 0
    + 1
    + (ast.returnClause.projections.map projectionCount).sum
    + (ast.orderBy.map orderItemCount).sum
    + 1

/-! ### Bounds -/

def maxQueryAstNodes : Nat := 512

def maxQueryExpressionNesting : Nat := 16

def maxQueryExistentialPredicates : Nat := 16

def maxQueryListLiterals : Nat := 64

def maxQueryProjections : Nat := 32

def maxQueryDepth : Nat := 8

def maxQueryLimit : Nat := 10000

/-- `Parser`: the tokens from the index on, and the number of existential predicates read. -/
structure Parser where
  tokens : List Token
  existentialPredicates : Nat

namespace Parser

open TypeChecker

/-- A diagnostic, or the panic of a look past the last token. -/
inductive Failure where
  | diagnostic (diagnostic : QueryDiagnostic)
  | outOfBounds

/-- A step of the parser. -/
abbrev Parse : Type → Type := Work Parser Failure

/-! ### Single tokens -/

def current : Parse Token := fun parser =>
  match parser.tokens with
  | [] => .error .outOfBounds
  | token :: _ => .ok (token, parser)

/-- `self.index += 1`. -/
def advance : Parse Unit := fun parser => .ok ((), { parser with tokens := parser.tokens.tail })

def error {α : Type} (code : String) (failureClass : QueryFailureClass) (clause message : String) :
    Parse α := do
  let token ← current
  fail (.diagnostic ⟨code, failureClass, clause, token.kind.tokenClass, token.origin, message⟩)

/-- A value that the current token stands for. -/
def take {α : Type} (of : Token → Option α) (code clause message : String) : Parse α := do
  let token ← current
  match of token with
  | some value =>
    advance
    return value
  | none => error code .syntactic clause message

/-- Reads the current token if it is of a kind. -/
def consumeIf (isKind : TokenKind → Bool) : Parse Bool := do
  let token ← current
  if isKind token.kind then
    advance
    return true
  else return false

/-- The test of `current_keyword`. -/
def isKeyword (keyword : String) : TokenKind → Bool
  | .identifier value => eqIgnoreAsciiCase value keyword
  | _ => false

def currentKeyword (keyword : String) : Parse Bool := do
  let token ← current
  return isKeyword keyword token.kind

def consumeKeyword (keyword : String) : Parse Bool := consumeIf (isKeyword keyword)

def expectKeyword (keyword clause : String) : Parse Unit := do
  if ← consumeKeyword keyword then return ()
  else error "query_keyword_expected" .syntactic clause "required keyword is missing"

/-- `consume_simple`: the variants are compared. -/
def consumeSimple (expected : TokenKind) : Parse Bool :=
  consumeIf fun kind => kind.ctorIdx == expected.ctorIdx

def expectSimple (expected : TokenKind) (clause : String) : Parse Unit := do
  if ← consumeSimple expected then return ()
  else error "query_token_expected" .syntactic clause "required grammar token is missing"

def identifierOf (token : Token) : Option String :=
  match token.kind with
  | .identifier value => some value
  | _ => none

def stringOf (token : Token) : Option String :=
  match token.kind with
  | .string value => some value
  | _ => none

def unsignedOf (token : Token) : Option (Nat × QueryOrigin) :=
  match token.kind with
  | .unsigned value => some (value, token.origin)
  | _ => none

def literalOf (token : Token) : Option Literal :=
  match token.kind with
  | .string value => some (.string value)
  | .unsigned value => some (.unsigned value)
  | .identifier value =>
    if eqIgnoreAsciiCase value "true" then some (.boolean true)
    else if eqIgnoreAsciiCase value "false" then some (.boolean false)
    else if eqIgnoreAsciiCase value "null" then some .null
    else none
  | _ => none

def expectIdentifier (clause : String) : Parse String :=
  take identifierOf "query_identifier_expected" clause "identifier is missing"

def expectString (clause : String) : Parse String :=
  take stringOf "query_string_expected" clause "string literal is missing"

def expectUnsigned (clause : String) : Parse (Nat × QueryOrigin) :=
  take unsignedOf "query_unsigned_expected" clause "unsigned integer is missing"

def parseLiteral (clause : String) : Parse Literal :=
  take literalOf "query_literal_expected" clause "literal is missing or outside the grammar"

/-! ### Lists -/

/-- A loop that reads an item after each token that `more` reads. Where no round is left, no token
is, so that the next look at a token panics. -/
def loop {T : Type} (more : Parse Bool) (item : List T → Parse T) : Nat → List T → Parse (List T)
  | 0, _ => fail .outOfBounds
  | rounds + 1, items => do
    if ← more then
      let made ← item items
      loop more item rounds (items ++ [made])
    else return items

/-- The first item and those of the loop. -/
def itemsFrom {T : Type} (more : Parse Bool) (item : List T → Parse T) (first : T) :
    Parse (List T) := fun parser =>
  loop more item parser.tokens.length [first] parser

/-- Items with a token between. -/
def parseItems {T : Type} (more : Parse Bool) (item : Parse T) : Parse (List T) := do
  let first ← item
  itemsFrom more (fun _ => item) first

/-- Items with commas between, up to a maximum. -/
def parseLimited {T : Type} (maximum : Nat) (code clause message : String) (item : Parse T) :
    Parse (List T) := do
  let first ← item
  itemsFrom (consumeSimple .comma)
    (fun items =>
      if maximum ≤ items.length then error code .limit clause message else item) first

/-! ### Match clauses -/

/-- The kind of a node, after a colon. -/
def parseKind (clause : String) : Parse (Option String) := do
  if ← consumeSimple .colon then
    let kind ← expectString clause
    return some kind
  else return none

def parseNode (clause : String) : Parse NodePattern := do
  expectSimple .leftParen clause
  let binding ← expectIdentifier clause
  let kind ← parseKind clause
  expectSimple .rightParen clause
  return ⟨binding, kind⟩

/-- How the relationship starts. -/
def parseDirection : Parse QueryDirection := do
  if ← consumeSimple .arrowLeft then return .reverse
  else
    expectSimple .dash "match"
    return .forward

/-- The sorted kinds of the relationship. -/
def parseKinds : Parse (List String) := do
  let kinds ← parseItems (consumeSimple .pipe) (expectString "match")
  if hasTwins (sortByKey id kinds) then
    error "query_duplicate_relationship_kind" .syntactic "match"
      "relationship kind set contains a duplicate"
  else return sortByKey id kinds

/-- How the relationship ends. -/
def directionEnd : QueryDirection → TokenKind
  | .forward => .arrowRight
  | .reverse => .dash

/-- A depth within the bounds. -/
def checkDepth (depth : Nat × QueryOrigin) (message : String) : Parse Nat :=
  if 1 ≤ depth.1 ∧ depth.1 ≤ maxQueryDepth then return depth.1
  else fail (.diagnostic ⟨"query_depth_out_of_range", .limit, "match", "unsigned_integer",
    depth.2, message⟩)

def parseRelationship : Parse RelationshipPattern := do
  let direction ← parseDirection
  expectSimple .leftBracket "match"
  let kinds ← parseKinds
  expectSimple .star "match"
  let minimum ← expectUnsigned "match"
  expectSimple .range "match"
  let maximum ← expectUnsigned "match"
  expectSimple .rightBracket "match"
  expectSimple (directionEnd direction) "match"
  let minDepth ← checkDepth minimum "minimum depth is outside the bounded range"
  let maxDepth ← checkDepth maximum "maximum depth is outside the bounded range"
  if maxDepth < minDepth then
    fail (.diagnostic ⟨"query_depth_range_invalid", .syntactic, "match", "unsigned_integer",
      minimum.2, "minimum depth exceeds maximum depth"⟩)
  else return ⟨direction, kinds, minDepth, maxDepth⟩

/-- The match clause. -/
def parseMatch : Parse MatchClause := do
  expectKeyword "MATCH" "match"
  let pathBinding ← expectIdentifier "match"
  expectSimple .equal "match"
  let source ← parseNode "match"
  let relationship ← parseRelationship
  let target ← parseNode "match"
  return ⟨pathBinding, source, relationship, target⟩

/-! ### Scalar predicates -/

def parseField (clause : String) : Parse FieldReference := do
  let binding ← expectIdentifier clause
  expectSimple .dot clause
  let field ← expectIdentifier clause
  return ⟨binding, field⟩

/-- The literals of an `IN`, sorted. -/
def parseLiterals (clause : String) : Parse (List Literal) := do
  expectSimple .leftBracket clause
  let literals ← parseLimited maxQueryListLiterals "query_list_literal_limit_exceeded" clause
    "query exceeds the list literal limit" (parseLiteral clause)
  expectSimple .rightBracket clause
  if hasTwins (sortByKey literalKey literals) then
    error "query_duplicate_list_literal" .syntactic clause "IN list contains a duplicate literal"
  else return sortByKey literalKey literals

/-- The operators of one literal that are tokens, in the order in which they are tried. -/
def literalOperators : List (TokenKind × (Literal → ScalarOperator)) :=
  [(.equal, .equal), (.notEqual, .notEqual), (.less, .less), (.lessOrEqual, .lessOrEqual),
    (.greater, .greater), (.greaterOrEqual, .greaterOrEqual)]

/-- The operators that are keywords. -/
def parseKeywordOperator (clause : String) : Parse ScalarOperator := do
  if ← consumeKeyword "STARTS" then
    expectKeyword "WITH" clause
    let literal ← parseLiteral clause
    return .startsWith literal
  else if ← consumeKeyword "IN" then
    let literals ← parseLiterals clause
    return .isIn literals
  else
    error "query_scalar_operator_expected" .syntactic clause
      "scalar operator is missing or outside the grammar"

/-- The first of the operators whose token comes next. -/
def parseOperator (clause : String) :
    List (TokenKind × (Literal → ScalarOperator)) → Parse ScalarOperator
  | [] => parseKeywordOperator clause
  | (kind, operator) :: rest => do
    if ← consumeSimple kind then
      let literal ← parseLiteral clause
      return operator literal
    else parseOperator clause rest

def parseScalarPredicate (clause : String) : Parse ScalarPredicate := do
  let field ← parseField clause
  let operator ← parseOperator clause literalOperators
  return ⟨field, operator⟩

/-! ### Expressions -/

/-- The failure of `ensure_nesting`. -/
def nestingError {α : Type} : Parse α :=
  error "query_expression_nesting_exceeded" .limit "where"
    "query exceeds the expression nesting limit"

/-- The tokens after the parentheses, each with a `NOT` or without, that a term may start with. -/
def skipParens : List Token → List Token
  | [] => []
  | [token] => if token.kind = .leftParen then [] else [token]
  | token :: next :: rest =>
    if token.kind ≠ .leftParen then token :: next :: rest
    else if isKeyword "NOT" next.kind then skipParens rest
    else skipParens (next :: rest)

/-- The tokens after a `NOT`. -/
def skipNot : List Token → List Token
  | [] => []
  | token :: rest => if isKeyword "NOT" token.kind then rest else token :: rest

/-- `entity_term_starts_at`, from the tokens there. -/
def entityTermStarts (binding : String) (tokens : List Token) : Bool :=
  match skipParens (skipNot tokens) with
  | candidate :: dot :: _ => candidate.kind == .identifier binding && dot.kind == .dot
  | _ => false

/-- Whether a term about the binding comes after the current token. -/
def termFollows (binding : String) : Parse Bool := fun parser =>
  .ok (entityTermStarts binding parser.tokens.tail, parser)

/-- Reads a keyword if a term about the binding follows. -/
def consumeBefore (keyword binding : String) : Parse Bool := do
  let token ← current
  let follows ← termFollows binding
  if isKeyword keyword token.kind && follows then
    advance
    return true
  else return false

/-- `NOT`, if it was read. -/
def negate {T : Type} (not : T → T) (negated : Bool) (expression : T) : T :=
  if negated then not expression else expression

section Expressions

variable (F : FloatText)

/-- `canonical_entity_or`, of parsed terms. -/
def canonicalOfEntityOr (terms : List EntityExpression) : EntityExpression :=
  canonicalTerms (fun term => serialized F term.value)
    (fun | .or children => children | term => [term]) .or terms

/-- `canonical_entity_and`, of parsed terms. -/
def canonicalOfEntityAnd (terms : List EntityExpression) : EntityExpression :=
  canonicalTerms (fun term => serialized F term.value)
    (fun | .and children => children | term => [term]) .and terms

/-- `canonical_expression_or`, of parsed terms. -/
def canonicalOfOr (terms : List Expression) : Expression :=
  canonicalTerms (fun term => serialized F term.value)
    (fun | .or children => children | term => [term]) .or terms

/-- `canonical_expression_and`, of parsed terms. -/
def canonicalOfAnd (terms : List Expression) : Expression :=
  canonicalTerms (fun term => serialized F term.value)
    (fun | .and children => children | term => [term]) .and terms

/-- `parse_entity_term`, with the parser of what is in parentheses. -/
def parseEntityTerm (nested : Parse EntityExpression) : Parse EntityExpression := do
  let negated ← consumeKeyword "NOT"
  if ← consumeSimple .leftParen then
    let expression ← nested
    expectSimple .rightParen "where"
    return negate .not negated expression
  else
    let predicate ← parseScalarPredicate "where"
    return negate .not negated (.scalar predicate)

/-- `parse_entity_and_expression`, with the parser of its terms. -/
def parseEntityAndExpression (binding : String) (term : Parse EntityExpression) :
    Parse EntityExpression := do
  let terms ← parseItems (consumeBefore "AND" binding) term
  return canonicalOfEntityAnd F terms

/-- `parse_entity_expression`. The levels are those from its nesting to the deepest that is allowed. -/
def parseEntityExpression (binding : String) : Nat → Parse EntityExpression
  | 0 => nestingError
  | levels + 1 => do
    let terms ← parseItems (consumeBefore "OR" binding)
      (parseEntityAndExpression F binding (parseEntityTerm (parseEntityExpression binding levels)))
    return canonicalOfEntityOr F terms

/-- The kind of a quantifier that starts with `SOME`. -/
def parseSomeKind : Parse QuantifierKind := do
  if ← consumeKeyword "SITES" then return .someSite
  else if ← consumeKeyword "EVIDENCE" then return .someEvidence
  else
    error "query_quantifier_collection_invalid" .syntactic "where"
      "quantifier collection is outside the grammar"

/-- Counts an existential predicate. -/
def countExistential : Parse Unit := fun parser =>
  let counted := { parser with existentialPredicates := parser.existentialPredicates + 1 }
  if maxQueryExistentialPredicates < counted.existentialPredicates then
    error "query_existential_limit_exceeded" .limit "where"
      "query exceeds the existential predicate limit" counted
  else .ok ((), counted)

/-- The start of a quantifier. -/
def parseEvery : Parse Bool := do
  if ← consumeKeyword "EVERY" then return true
  else
    expectKeyword "SOME" "where"
    countExistential
    return false

/-- What a quantifier is about. -/
def parseQuantifierKind (every : Bool) : Parse QuantifierKind := do
  if every then
    expectKeyword "EDGES" "where"
    return .everyEdge
  else parseSomeKind

def parseQuantifier : Nat → Parse QuantifierPredicate
  | 0 => nestingError
  | levels + 1 => do
    let every ← parseEvery
    let binding ← expectIdentifier "where"
    expectKeyword "IN" "where"
    let kind ← parseQuantifierKind every
    expectSimple .leftParen "where"
    let pathBinding ← expectIdentifier "where"
    expectSimple .rightParen "where"
    expectKeyword "SATISFIES" "where"
    let expression ← parseEntityExpression F binding (levels + 1)
    return ⟨kind, binding, pathBinding, expression⟩

/-- `parse_primary_expression`, with the parsers one level deeper. -/
def parsePrimaryExpression (nested : Parse Expression) (quantifier : Parse QuantifierPredicate) :
    Parse Expression := do
  if ← consumeSimple .leftParen then
    let expression ← nested
    expectSimple .rightParen "where"
    return expression
  else if (← currentKeyword "EVERY") || (← currentKeyword "SOME") then
    let predicate ← quantifier
    return .quantifier predicate
  else
    let predicate ← parseScalarPredicate "where"
    return .scalar predicate

/-- `parse_not_expression`, with the parser of a primary expression. -/
def parseNotExpression (primary : Parse Expression) : Parse Expression := do
  let negated ← consumeKeyword "NOT"
  let expression ← primary
  return negate .not negated expression

/-- `parse_and_expression`, with the parser of its terms. -/
def parseAndExpression (term : Parse Expression) : Parse Expression := do
  let terms ← parseItems (consumeKeyword "AND") term
  return canonicalOfAnd F terms

def parseExpression : Nat → Parse Expression
  | 0 => nestingError
  | levels + 1 => do
    let terms ← parseItems (consumeKeyword "OR")
      (parseAndExpression F (parseNotExpression
        (parsePrimaryExpression (parseExpression levels) (parseQuantifier F levels))))
    return canonicalOfOr F terms

/-- The where clause. -/
def parseWhere : Parse (Option Expression) := do
  if ← consumeKeyword "WHERE" then
    let expression ← parseExpression F (maxQueryExpressionNesting + 1)
    return some expression
  else return none

end Expressions

/-! ### Queries -/

def parseProjection (clause : String) : Parse Projection := do
  let binding ← expectIdentifier clause
  if ← consumeSimple .dot then
    let field ← expectIdentifier clause
    return .field ⟨binding, field⟩
  else return .binding binding

/-- The return clause. -/
def parseReturn : Parse ReturnClause := do
  expectKeyword "RETURN" "return"
  let distinct ← consumeKeyword "DISTINCT"
  let projections ← parseLimited maxQueryProjections "query_projection_limit_exceeded" "return"
    "query exceeds the projection limit" (parseProjection "return")
  return ⟨distinct, projections⟩

/-- The direction of an order item. -/
def parseSortDirection : Parse SortDirection := do
  if ← consumeKeyword "DESC" then return .descending
  else
    let _ ← consumeKeyword "ASC"
    return .ascending

def parseOrderItem : Parse OrderItem := do
  let projection ← parseProjection "order_by"
  let direction ← parseSortDirection
  return ⟨projection, direction⟩

/-- The order clause. -/
def parseOrderBy : Parse (List OrderItem) := do
  if ← consumeKeyword "ORDER" then
    expectKeyword "BY" "order_by"
    parseLimited maxQueryProjections "query_order_limit_exceeded" "order_by"
      "query exceeds the order item limit" parseOrderItem
  else return []

/-- The limit clause. -/
def parseLimit : Parse Nat := do
  expectKeyword "LIMIT" "limit"
  let limit ← expectUnsigned "limit"
  if 0 < limit.1 ∧ limit.1 ≤ maxQueryLimit then return limit.1
  else fail (.diagnostic ⟨"query_limit_out_of_range", .limit, "limit", "unsigned_integer",
    limit.2, "LIMIT must be within the bounded range"⟩)

/-- The end of the query. -/
def parseEnd : Parse Unit := do
  let _ ← consumeSimple .semicolon
  let token ← current
  if token.kind = .endOfInput then return ()
  else
    error "query_trailing_tokens" .syntactic "query"
      "query contains trailing tokens or multiple statements"

def parse (F : FloatText) : Parse QueryAst := do
  let matchClause ← parseMatch
  let whereClause ← parseWhere F
  let returnClause ← parseReturn
  let orderBy ← parseOrderBy
  let limit ← parseLimit
  parseEnd
  let ast : QueryAst :=
    ⟨boundedQueryContractVersion, matchClause, whereClause, returnClause, orderBy, limit⟩
  if maxQueryAstNodes < astNodeCount ast then
    error "query_ast_node_limit_exceeded" .limit "query" "query exceeds the AST node limit"
  else return ast

end Parser

end Query
