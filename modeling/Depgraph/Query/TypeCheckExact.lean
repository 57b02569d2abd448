import Depgraph.Query.ExecuteRun
import Depgraph.Query.TypeCheck

/-!
# What the type checker keeps

The expressions of a parsed query have a meaning of their own, by the names of its bindings. The type
checker flattens, sorts and collapses terms, and sorts lists of literals; what it accepts holds of a
path just when the parsed expression does.
-/

namespace Query

open Json Protocol SortDedup Metered Std
open Store hiding GraphSnapshot

namespace TypeChecker

/-! ### The meaning of parsed expressions -/

section Means

variable (E : Executor) (clause : MatchClause)

/-- A parsed scalar predicate, on an entity. -/
def meansScalar (entity : EntityView) (predicate : ScalarPredicate) : Bool :=
  (entityFieldValue E.floatText entity predicate.field.field).any fun left =>
    applyOperator left predicate.operator

mutual

/-- The meaning of an expression about an entity. -/
def meansEntity (entity : EntityView) : EntityExpression → Bool
  | .or terms => meansAnyEntity entity terms
  | .and terms => meansAllEntity entity terms
  | .not inner => !meansEntity entity inner
  | .scalar predicate => meansScalar E entity predicate

def meansAnyEntity (entity : EntityView) : List EntityExpression → Bool
  | [] => false
  | term :: terms => meansEntity entity term || meansAnyEntity entity terms

def meansAllEntity (entity : EntityView) : List EntityExpression → Bool
  | [] => true
  | term :: terms => meansEntity entity term && meansAllEntity entity terms

end

/-- The meaning of a quantifier: about all edges, some site or some evidence of a path. -/
def meansQuantifier (path : List EdgeRecord) (predicate : QuantifierPredicate) : Bool :=
  match predicate.kind with
  | .everyEdge => path.all fun edge => meansEntity E (.edge edge) predicate.expression
  | .someSite => path.any fun edge => (E.siteOf edge).any fun site =>
      meansEntity E (.site site) predicate.expression
  | .someEvidence => path.any fun edge => (E.evidenceWith edge (E.siteOf edge)).any fun evidence =>
      meansEntity E (.evidence evidence) predicate.expression

/-- The entity of a binding of the match clause. -/
def topEntity (source target : NodeRecord) (path : List EdgeRecord) (name : String) : EntityView :=
  if name = clause.source.binding then .node source
  else if name = clause.target.binding then .node target
  else .path none path.length (directionName clause.relationship.direction)

mutual

/-- The meaning of an expression for a path. -/
def means (source target : NodeRecord) (path : List EdgeRecord) : Expression → Bool
  | .or terms => meansAny source target path terms
  | .and terms => meansAll source target path terms
  | .not inner => !means source target path inner
  | .scalar predicate =>
    meansScalar E (topEntity clause source target path predicate.field.binding) predicate
  | .quantifier predicate => meansQuantifier E path predicate

def meansAny (source target : NodeRecord) (path : List EdgeRecord) : List Expression → Bool
  | [] => false
  | term :: terms => means source target path term || meansAny source target path terms

def meansAll (source target : NodeRecord) (path : List EdgeRecord) : List Expression → Bool
  | [] => true
  | term :: terms => means source target path term && meansAll source target path terms

end

end Means

/-- The quantifier asks for some site or evidence. -/
def isExistential : QuantifierKind → Bool
  | .everyEdge => false
  | .someSite | .someEvidence => true

mutual

/-- The number of existential predicates. -/
def existentials : Expression → Nat
  | .or terms => existentialsIn terms
  | .and terms => existentialsIn terms
  | .not inner => existentials inner
  | .scalar _ => 0
  | .quantifier predicate => if isExistential predicate.kind then 1 else 0

def existentialsIn : List Expression → Nat
  | [] => 0
  | term :: terms => existentials term + existentialsIn terms

end

/-! ### Canonical terms -/

section Canonical

variable {T : Type} {text : T → String} {children : T → List T} {join : List T → T}

/-- What the terms of a join give, its canonical form gives: as a disjunction, -/
theorem canonicalTerms_any {eval : T → Bool} (hjoin : ∀ terms, eval (join terms) = terms.any eval)
    (hchildren : ∀ term, (children term).any eval = eval term) (terms : List T) :
    eval (canonicalTerms text children join terms) = terms.any eval := by
  have hsorted : (sortByKey text (terms.flatMap children)).any eval = terms.any eval := by
    rw [(sortByKey_perm text _).any_eq, List.any_flatMap]
    simp only [hchildren]
  rw [← hsorted]
  unfold canonicalTerms
  split
  · rename_i term heq
    rw [heq, List.any_cons, List.any_nil, Bool.or_false]
  · exact hjoin _

/-- as a conjunction, -/
theorem canonicalTerms_all {eval : T → Bool} (hjoin : ∀ terms, eval (join terms) = terms.all eval)
    (hchildren : ∀ term, (children term).all eval = eval term) (terms : List T) :
    eval (canonicalTerms text children join terms) = terms.all eval := by
  have hsorted : (sortByKey text (terms.flatMap children)).all eval = terms.all eval := by
    rw [(sortByKey_perm text _).all_eq, List.all_flatMap]
    simp only [hchildren]
  rw [← hsorted]
  unfold canonicalTerms
  split
  · rename_i term heq
    rw [heq, List.all_cons, List.all_nil, Bool.and_true]
  · exact hjoin _

/-- and as a sum. -/
theorem canonicalTerms_sum {size : T → Nat} (hjoin : ∀ terms, size (join terms) = (terms.map size).sum)
    (hchildren : ∀ term, ((children term).map size).sum = size term) (terms : List T) :
    size (canonicalTerms text children join terms) = (terms.map size).sum := by
  have hsorted : ((sortByKey text (terms.flatMap children)).map size).sum = (terms.map size).sum := by
    rw [((sortByKey_perm text _).map size).sum_eq]
    induction terms with
    | nil => rfl
    | cons term terms ih =>
      rw [List.flatMap_cons, List.map_append, List.sum_append, hchildren, ih, List.map_cons,
        List.sum_cons]
  rw [← hsorted]
  unfold canonicalTerms
  split
  · rename_i term heq
    rw [heq, List.map_singleton, List.sum_singleton]
  · exact hjoin _

end Canonical

section Evaluate

variable {E : Executor} {source target : NodeRecord} {path : List EdgeRecord}

theorem anyEntityTerm_eq {F : FloatText} {entity : EntityView} (terms : List TypedEntityExpression) :
    anyEntityTerm F entity terms = terms.any (evaluateEntityExpression F entity) := by
  induction terms with
  | nil => rfl
  | cons term terms ih => rw [anyEntityTerm, ih, List.any_cons]

theorem allEntityTerms_eq {F : FloatText} {entity : EntityView} (terms : List TypedEntityExpression) :
    allEntityTerms F entity terms = terms.all (evaluateEntityExpression F entity) := by
  induction terms with
  | nil => rfl
  | cons term terms ih => rw [allEntityTerms, ih, List.all_cons]

theorem evaluate_canonicalEntityOr (F : FloatText) (entity : EntityView)
    (terms : List TypedEntityExpression) :
    evaluateEntityExpression E.floatText entity (canonicalEntityOr F terms) =
      anyEntityTerm E.floatText entity terms := by
  rw [anyEntityTerm_eq]
  refine canonicalTerms_any (fun terms => ?_) (fun term => ?_) terms
  · rw [evaluateEntityExpression, anyEntityTerm_eq]
  · cases term with
    | or children => rw [evaluateEntityExpression, anyEntityTerm_eq]; rfl
    | _ => simp [entityOrTerms]

theorem evaluate_canonicalEntityAnd (F : FloatText) (entity : EntityView)
    (terms : List TypedEntityExpression) :
    evaluateEntityExpression E.floatText entity (canonicalEntityAnd F terms) =
      allEntityTerms E.floatText entity terms := by
  rw [allEntityTerms_eq]
  refine canonicalTerms_all (fun terms => ?_) (fun term => ?_) terms
  · rw [evaluateEntityExpression, allEntityTerms_eq]
  · cases term with
    | and children => rw [evaluateEntityExpression, allEntityTerms_eq]; rfl
    | _ => simp [entityAndTerms]

theorem anyHolds_eq (terms : List TypedExpression) :
    E.anyHolds source target path terms = terms.any (E.holds source target path) := by
  induction terms with
  | nil => rfl
  | cons term terms ih => rw [Executor.anyHolds, ih, List.any_cons]

theorem allHold_eq (terms : List TypedExpression) :
    E.allHold source target path terms = terms.all (E.holds source target path) := by
  induction terms with
  | nil => rfl
  | cons term terms ih => rw [Executor.allHold, ih, List.all_cons]

theorem holds_canonicalExpressionOr (F : FloatText) (terms : List TypedExpression) :
    E.holds source target path (canonicalExpressionOr F terms) =
      E.anyHolds source target path terms := by
  rw [anyHolds_eq]
  refine canonicalTerms_any (fun terms => ?_) (fun term => ?_) terms
  · rw [Executor.holds, anyHolds_eq]
  · cases term with
    | or children => rw [Executor.holds, anyHolds_eq]; rfl
    | _ => simp [orTerms]

theorem holds_canonicalExpressionAnd (F : FloatText) (terms : List TypedExpression) :
    E.holds source target path (canonicalExpressionAnd F terms) =
      E.allHold source target path terms := by
  rw [allHold_eq]
  refine canonicalTerms_all (fun terms => ?_) (fun term => ?_) terms
  · rw [Executor.holds, allHold_eq]
  · cases term with
    | and children => rw [Executor.holds, allHold_eq]; rfl
    | _ => simp [andTerms]

/-- The number of existential predicates of a typed expression. -/
def someCount (expression : TypedExpression) : Nat := (collectSomePredicates expression).length

theorem length_collectFromTerms (terms : List TypedExpression) :
    (collectFromTerms terms).length = (terms.map someCount).sum := by
  induction terms with
  | nil => rfl
  | cons term terms ih =>
    rw [collectFromTerms, List.length_append, ih, List.map_cons, List.sum_cons, someCount]

theorem someCount_canonicalExpressionOr (F : FloatText) (terms : List TypedExpression) :
    someCount (canonicalExpressionOr F terms) = (terms.map someCount).sum := by
  refine canonicalTerms_sum (fun terms => ?_) (fun term => ?_) terms
  · rw [someCount, collectSomePredicates, length_collectFromTerms]
  · cases term with
    | or children => rw [someCount, collectSomePredicates, length_collectFromTerms]; rfl
    | _ => simp [orTerms]

theorem someCount_canonicalExpressionAnd (F : FloatText) (terms : List TypedExpression) :
    someCount (canonicalExpressionAnd F terms) = (terms.map someCount).sum := by
  refine canonicalTerms_sum (fun terms => ?_) (fun term => ?_) terms
  · rw [someCount, collectSomePredicates, length_collectFromTerms]
  · cases term with
    | and children => rw [someCount, collectSomePredicates, length_collectFromTerms]; rfl
    | _ => simp [andTerms]

end Evaluate

/-! ### Scalar predicates -/

theorem resolveField_ok {reference : FieldReference} {entityType : EntityType} {whereContext : Bool}
    {field : TypedFieldReference} (h : resolveField reference entityType whereContext = .ok field) :
    field.binding = reference.binding ∧ field.field = reference.field ∧
      field.entityType = entityType ∧ ∃ definition ∈ fieldRegistry,
        definition.entityType = entityType ∧ definition.name = reference.field := by
  unfold resolveField at h
  split at h
  · cases h
  · rename_i definition hfind
    split_ifs at h
    obtain rfl := Except.ok.inj h
    have hdefinition := List.find?_some hfind
    rw [Bool.and_eq_true, beq_iff_eq, beq_iff_eq] at hdefinition
    exact ⟨rfl, rfl, rfl, definition, List.mem_of_find?_eq_some hfind, hdefinition⟩

/-- A checked operator says the same: at most the literals of a list are in another order. -/
theorem checkOperator_ok {field : TypedFieldReference} {operator operator' : ScalarOperator}
    {operandType : QueryType} (h : checkOperator field operator = .ok (operator', operandType))
    (left : Value) : applyOperator left operator' = applyOperator left operator := by
  have same {checked : Except QueryDiagnostic Unit} {type : QueryType}
      (hbind : (checked >>= fun _ => pure (operator, type)) = Except.ok (operator', operandType)) :
      operator' = operator := by
    obtain ⟨-, -, hok⟩ := Fallible.bind_eq_ok.1 hbind
    exact (Prod.mk.inj (Except.ok.inj hok)).1.symm
  cases operator with
  | startsWith literal =>
    cases literal with
    | string start =>
      rw [checkOperator] at h
      split_ifs at h
      obtain ⟨rfl, -⟩ := Prod.mk.inj (Except.ok.inj h)
      rfl
    | _ => cases h
  | isIn literals =>
    rw [checkOperator] at h
    split_ifs at h
    obtain ⟨rfl, -⟩ := Prod.mk.inj (Except.ok.inj h)
    -- membership does not depend on the order of the literals
    exact (sortByKey_perm literalKey literals).any_eq
  | _ => rw [same h]

theorem checkScalar_ok {E : Executor} {predicate : ScalarPredicate} {entityType : EntityType}
    {typed : TypedScalarPredicate} (h : checkScalar predicate entityType = .ok typed) :
    typed.field.binding = predicate.field.binding ∧ ∀ entity,
      evaluateScalarPredicate E.floatText typed entity = meansScalar E entity predicate := by
  obtain ⟨field, hfield, h⟩ := Fallible.bind_eq_ok.1 h
  obtain ⟨⟨operator, operandType⟩, hoperator, h⟩ := Fallible.bind_eq_ok.1 h
  obtain rfl := Except.ok.inj h
  obtain ⟨hbinding, hname, -, -⟩ := resolveField_ok hfield
  refine ⟨hbinding, fun entity => ?_⟩
  rw [evaluateScalarPredicate, meansScalar, hname]
  exact congrArg (fun p => Option.any p _) (funext (checkOperator_ok hoperator))

/-! ### Expressions -/

section Expressions

variable {E : Executor} {F : FloatText} {binding : String} {entityType : EntityType}

mutual

theorem checkEntityExpression_ok {entity : EntityView} : (expression : EntityExpression) →
    ∀ {typed : TypedEntityExpression},
      checkEntityExpression F binding entityType expression = .ok typed →
        evaluateEntityExpression E.floatText entity typed = meansEntity E entity expression
  | .or terms, typed, h => by
    obtain ⟨made, hmade, h⟩ := Fallible.bind_eq_ok.1 h
    obtain rfl := Except.ok.inj h
    rw [evaluate_canonicalEntityOr, meansEntity, (checkEntityTerms_ok terms hmade).1]
  | .and terms, typed, h => by
    obtain ⟨made, hmade, h⟩ := Fallible.bind_eq_ok.1 h
    obtain rfl := Except.ok.inj h
    rw [evaluate_canonicalEntityAnd, meansEntity, (checkEntityTerms_ok terms hmade).2]
  | .not inner, typed, h => by
    obtain ⟨made, hmade, h⟩ := Fallible.bind_eq_ok.1 h
    obtain rfl := Except.ok.inj h
    rw [evaluateEntityExpression, meansEntity, checkEntityExpression_ok inner hmade]
  | .scalar predicate, typed, h => by
    rw [checkEntityExpression] at h
    split_ifs at h
    obtain ⟨made, hmade, h⟩ := Fallible.bind_eq_ok.1 h
    obtain rfl := Except.ok.inj h
    rw [evaluateEntityExpression, meansEntity, (checkScalar_ok hmade).2]

theorem checkEntityTerms_ok {entity : EntityView} : (terms : List EntityExpression) →
    ∀ {typed : List TypedEntityExpression},
      checkEntityTerms F binding entityType terms = .ok typed →
        anyEntityTerm E.floatText entity typed = meansAnyEntity E entity terms ∧
        allEntityTerms E.floatText entity typed = meansAllEntity E entity terms
  | [], typed, h => by
    obtain rfl := Except.ok.inj h
    exact ⟨rfl, rfl⟩
  | term :: terms, typed, h => by
    obtain ⟨first, hfirst, h⟩ := Fallible.bind_eq_ok.1 h
    obtain ⟨rest, hrest, h⟩ := Fallible.bind_eq_ok.1 h
    obtain rfl := Except.ok.inj h
    obtain ⟨hany, hall⟩ := checkEntityTerms_ok terms hrest
    rw [anyEntityTerm, allEntityTerms, meansAnyEntity, meansAllEntity, hany, hall,
      checkEntityExpression_ok term hfirst]
    exact ⟨rfl, rfl⟩

end

/-- The names and the direction of the executor's query are those of a match clause. -/
structure Names (E : Executor) (clause : MatchClause) : Prop where
  source : E.query.matchClause.source.binding.name = clause.source.binding
  target : E.query.matchClause.target.binding.name = clause.target.binding
  direction : E.query.matchClause.relationship.direction = clause.relationship.direction

theorem holds_quantifier {source target : NodeRecord} {path : List EdgeRecord}
    {predicate : QuantifierPredicate} {typed : TypedEntityExpression}
    (h : checkEntityExpression F predicate.binding predicate.kind.entityType predicate.expression =
      .ok typed) :
    E.holds source target path (.quantifier ⟨⟨predicate.binding, predicate.kind.entityType⟩,
      predicate.pathBinding, typed⟩) = meansQuantifier E path predicate := by
  have hentity (entity : EntityView) : evaluateEntityExpression E.floatText entity typed =
      meansEntity E entity predicate.expression := checkEntityExpression_ok _ h
  unfold meansQuantifier
  rw [Executor.holds]
  cases hkind : predicate.kind with
  | everyEdge => simp only [QuantifierKind.entityType, hentity]
  | someSite =>
    simp only [QuantifierKind.entityType]
    refine congrArg (fun p => path.any p) (funext fun edge => ?_)
    simp only [Executor.meets, Executor.brings, hentity]
  | someEvidence =>
    simp only [QuantifierKind.entityType]
    refine congrArg (fun p => path.any p) (funext fun edge => ?_)
    simp only [Executor.meets, Executor.brings, hentity]

variable {clause : MatchClause} {topLevel : ExtTreeMap String EntityType}

mutual

/-- **A checked expression means what the parsed one does**, and has as many existential predicates. -/
theorem checkExpression_ok (hnames : Names E clause) {source target : NodeRecord}
    {path : List EdgeRecord} : (expression : Expression) → ∀ {taken taken' : ExtTreeSet String}
    {typed : TypedExpression}, checkExpression F topLevel taken expression = .ok (typed, taken') →
      E.holds source target path typed = means E clause source target path expression ∧
      someCount typed = existentials expression
  | .or terms, taken, taken', typed, h => by
    obtain ⟨⟨made, rest⟩, hmade, h⟩ := Fallible.bind_eq_ok.1 h
    obtain ⟨rfl, -⟩ := Prod.mk.inj (Except.ok.inj h)
    obtain ⟨hany, -, hcount⟩ := checkTerms_ok hnames terms hmade
    rw [holds_canonicalExpressionOr, means, hany, someCount_canonicalExpressionOr, existentials,
      hcount]
    exact ⟨rfl, rfl⟩
  | .and terms, taken, taken', typed, h => by
    obtain ⟨⟨made, rest⟩, hmade, h⟩ := Fallible.bind_eq_ok.1 h
    obtain ⟨rfl, -⟩ := Prod.mk.inj (Except.ok.inj h)
    obtain ⟨-, hall, hcount⟩ := checkTerms_ok hnames terms hmade
    rw [holds_canonicalExpressionAnd, means, hall, someCount_canonicalExpressionAnd, existentials,
      hcount]
    exact ⟨rfl, rfl⟩
  | .not inner, taken, taken', typed, h => by
    obtain ⟨⟨made, rest⟩, hmade, h⟩ := Fallible.bind_eq_ok.1 h
    obtain ⟨rfl, -⟩ := Prod.mk.inj (Except.ok.inj h)
    obtain ⟨hholds, hcount⟩ := checkExpression_ok hnames inner hmade
    rw [Executor.holds, means, hholds, someCount, collectSomePredicates, existentials]
    exact ⟨rfl, hcount⟩
  | .scalar predicate, taken, taken', typed, h => by
    obtain ⟨made, hmade, h⟩ := Fallible.bind_eq_ok.1 h
    obtain ⟨rfl, -⟩ := Prod.mk.inj (Except.ok.inj h)
    unfold checkTopLevelScalar at hmade
    split at hmade
    · cases hmade
    obtain ⟨hbinding, hscalar⟩ := checkScalar_ok (E := E) hmade
    rw [Executor.holds, means, Executor.scalarHolds, hscalar, hbinding, hnames.source, hnames.target,
      hnames.direction]
    exact ⟨rfl, rfl⟩
  | .quantifier predicate, taken, taken', typed, h => by
    obtain ⟨-, -, h⟩ := Fallible.bind_eq_ok.1 h
    obtain ⟨made, hmade, h⟩ := Fallible.bind_eq_ok.1 h
    obtain ⟨rfl, -⟩ := Prod.mk.inj (Except.ok.inj h)
    refine ⟨holds_quantifier hmade, ?_⟩
    rw [someCount, collectSomePredicates, existentials, TypedQuantifierPredicate.isSome]
    cases predicate.kind <;> rfl

theorem checkTerms_ok (hnames : Names E clause) {source target : NodeRecord}
    {path : List EdgeRecord} : (terms : List Expression) → ∀ {taken taken' : ExtTreeSet String}
    {typed : List TypedExpression}, checkTerms F topLevel taken terms = .ok (typed, taken') →
      E.anyHolds source target path typed = meansAny E clause source target path terms ∧
      E.allHold source target path typed = meansAll E clause source target path terms ∧
      (typed.map someCount).sum = existentialsIn terms
  | [], taken, taken', typed, h => by
    obtain ⟨rfl, -⟩ := Prod.mk.inj (Except.ok.inj h)
    exact ⟨rfl, rfl, rfl⟩
  | term :: terms, taken, taken', typed, h => by
    obtain ⟨⟨first, taken₁⟩, hfirst, h⟩ := Fallible.bind_eq_ok.1 h
    obtain ⟨⟨rest, taken₂⟩, hrest, h⟩ := Fallible.bind_eq_ok.1 h
    obtain ⟨rfl, -⟩ := Prod.mk.inj (Except.ok.inj h)
    obtain ⟨hholds, hcount⟩ := checkExpression_ok hnames term hfirst
    obtain ⟨hany, hall, hcounts⟩ := checkTerms_ok hnames terms hrest
    rw [Executor.anyHolds, Executor.allHold, meansAny, meansAll, List.map_cons, List.sum_cons,
      existentialsIn, hholds, hany, hall, hcount, hcounts]
    exact ⟨rfl, rfl, rfl⟩

end

end Expressions

/-! ### Accepted queries -/

/-- What a query that was accepted has been checked for. -/
structure Checked (F : FloatText) (ast : QueryAst) (query : TypedQueryAst)
    (topLevel : ExtTreeMap String EntityType) : Prop where
  bindings : newTypeChecker ast.matchClause = .ok topLevel
  matchClause : checkMatchClause ast.matchClause = .ok query.matchClause
  whereClause : checkWhere F topLevel ast.whereClause = .ok query.whereClause
  returnClause : checkReturnClause topLevel ast.returnClause = .ok query.returnClause
  orderBy : ast.orderBy.mapM (checkOrderItem topLevel query.returnClause.projections) =
    .ok query.orderBy

theorem exists_checked {F : FloatText} {ast : QueryAst} {query : TypedQueryAst}
    (h : typeCheckBoundedQuery F ast = .ok query) : ∃ topLevel, Checked F ast query topLevel := by
  unfold typeCheckBoundedQuery at h
  split_ifs at h
  obtain ⟨topLevel, htop, h⟩ := Fallible.bind_eq_ok.1 h
  obtain ⟨matchClause, hmatch, h⟩ := Fallible.bind_eq_ok.1 h
  obtain ⟨whereClause, hwhere, h⟩ := Fallible.bind_eq_ok.1 h
  obtain ⟨returnClause, hreturn, h⟩ := Fallible.bind_eq_ok.1 h
  obtain ⟨orderBy, horder, h⟩ := Fallible.bind_eq_ok.1 h
  obtain rfl := Except.ok.inj h
  exact ⟨topLevel, htop, hmatch, hwhere, hreturn, horder⟩

theorem Checked.names {F : FloatText} {ast : QueryAst} {query : TypedQueryAst}
    {topLevel : ExtTreeMap String EntityType} (h : Checked F ast query topLevel) {E : Executor}
    (hE : E.query = query) : Names E ast.matchClause := by
  have hmatch := h.matchClause
  unfold checkMatchClause at hmatch
  dsimp only at hmatch
  split_ifs at hmatch
  have hclause := Except.ok.inj hmatch
  exact ⟨by rw [hE, ← hclause]; rfl, by rw [hE, ← hclause]; rfl, by rw [hE, ← hclause]⟩

/-- The clause that the executor evaluates holds of a path just when the parsed clause does, and it has
as many existential predicates. -/
theorem Checked.keeps_meaning {F : FloatText} {ast : QueryAst} {query : TypedQueryAst}
    {topLevel : ExtTreeMap String EntityType} (h : Checked F ast query topLevel) {E : Executor}
    (hE : E.query = query) :
    (query.whereClause.elim [] collectSomePredicates).length =
        ast.whereClause.elim 0 existentials ∧
      ∀ source target path, E.whereHolds source target path =
        ast.whereClause.all (means E ast.matchClause source target path) := by
  have hnames := h.names hE
  have hwhere := h.whereClause
  unfold Executor.whereHolds
  rw [hE]
  cases hclause : ast.whereClause with
  | none =>
    rw [hclause] at hwhere
    rw [← Except.ok.inj hwhere]
    exact ⟨rfl, fun _ _ _ => rfl⟩
  | some expression =>
    rw [hclause] at hwhere
    obtain ⟨⟨typed, taken⟩, htyped, hwhere⟩ := Fallible.bind_eq_ok.1 hwhere
    rw [← Except.ok.inj hwhere]
    have hkeeps (source target : NodeRecord) (path : List EdgeRecord) :
        E.holds source target path typed = means E ast.matchClause source target path expression ∧
          someCount typed = existentials expression := checkExpression_ok hnames expression htyped
    let node : NodeRecord := ⟨"", "", "", "", .null⟩
    exact ⟨(hkeeps node node []).2, fun source target path => (hkeeps source target path).1⟩

end TypeChecker

end Query
