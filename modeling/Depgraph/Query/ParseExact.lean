import Depgraph.Library.Advance
import Depgraph.Query.Parse
import Depgraph.Query.TypeCheckExact

/-!
# What the parser accepts

On tokens of which the last one ends the input, the parser never looks past it, since it never reads
it. What it accepts is within the bounds: the depths, the limit, the lengths of the lists, the
existential predicates and the nodes. Its lists are strictly sorted, and its expressions canonical.
-/

namespace Query

open Json Protocol SortDedup Metered Advance TypeChecker

/-! ### Sorted lists -/

/-- A sorted list without twins ascends strictly. -/
theorem sortByKey_strict_of_hasTwins {T K : Type} [DecidableEq T] [LinearOrder K] {key : T → K}
    (hkey : Function.Injective key) {items : List T}
    (h : hasTwins (sortByKey key items) = false) :
    (sortByKey key items).Pairwise fun a b => key a < key b := by
  have htrans : IsTrans T fun a b : T => key a < key b := ⟨fun _ _ _ => lt_trans⟩
  have hsorted := (sortByKey_sorted key items).isChain
  refine List.isChain_iff_pairwise.1 ?_
  generalize sortByKey key items = sorted at h hsorted
  induction hsorted with
  | nil => exact .nil
  | singleton a => exact .singleton a
  | cons_cons hle _ ih =>
    obtain ⟨hne, hrest⟩ := Bool.or_eq_false_iff.1 h
    refine .cons_cons (lt_of_le_of_ne hle fun heq => ?_) (ih hrest)
    exact beq_eq_false_iff_ne.1 hne (hkey heq)

theorem literalKey_injective : Function.Injective literalKey := by
  intro a b h
  cases a <;> cases b <;> simp_all [literalKey]
  rename_i a b
  cases a <;> cases b <;> simp_all

/-! ### Canonical expressions -/

/-- The literals of an `IN` are within the bounds and ascend strictly. -/
def ScalarOperator.Bounded : ScalarOperator → Prop
  | .isIn literals => literals ≠ [] ∧ literals.length ≤ maxQueryListLiterals ∧
      literals.Pairwise fun a b => literalKey a < literalKey b
  | _ => True

/-- Kinds of a relationship: some, strictly ascending. -/
def AscendingKinds (kinds : List String) : Prop := kinds ≠ [] ∧ kinds.Pairwise (· < ·)

/-- The relationship of an accepted query. -/
structure RelationshipPattern.Bounded (relationship : RelationshipPattern) : Prop where
  kinds : AscendingKinds relationship.kinds
  least : 1 ≤ relationship.minDepth
  ordered : relationship.minDepth ≤ relationship.maxDepth
  greatest : relationship.maxDepth ≤ maxQueryDepth

def EntityExpression.isOr : EntityExpression → Bool
  | .or _ => true
  | _ => false

def EntityExpression.isAnd : EntityExpression → Bool
  | .and _ => true
  | _ => false

def Expression.isOr : Expression → Bool
  | .or _ => true
  | _ => false

def Expression.isAnd : Expression → Bool
  | .and _ => true
  | _ => false

/-- Two terms or more, sorted by their texts. -/
def SortedTerms {T : Type} (text : T → String) (terms : List T) : Prop :=
  2 ≤ terms.length ∧ terms.Pairwise fun a b => text a ≤ text b

theorem SortedTerms.ne_nil {T : Type} {text : T → String} {terms : List T}
    (h : SortedTerms text terms) : terms ≠ [] := by
  rintro rfl
  exact absurd h.1 (Nat.not_succ_le_zero 1)

theorem forall_singleton {T : Type} {C : T → Prop} {term : T} (h : C term) :
    ∀ child ∈ [term], C child :=
  fun _ hchild => List.mem_singleton.1 hchild ▸ h

/-- An expression about an entity without a disjunction that is a term of another, or such a
conjunction, and with sorted terms. -/
inductive EntityExpression.Canonical (F : FloatText) : EntityExpression → Prop
  | or {terms : List EntityExpression} : SortedTerms (fun term => serialized F term.value) terms →
      (∀ term ∈ terms, term.Canonical F) → (∀ term ∈ terms, term.isOr = false) →
      Canonical F (.or terms)
  | and {terms : List EntityExpression} : SortedTerms (fun term => serialized F term.value) terms →
      (∀ term ∈ terms, term.Canonical F) → (∀ term ∈ terms, term.isAnd = false) →
      Canonical F (.and terms)
  | not {inner : EntityExpression} : inner.Canonical F → Canonical F (.not inner)
  | scalar {predicate : ScalarPredicate} : predicate.operator.Bounded →
      Canonical F (.scalar predicate)

/-- The same of an expression. -/
inductive Expression.Canonical (F : FloatText) : Expression → Prop
  | or {terms : List Expression} : SortedTerms (fun term => serialized F term.value) terms →
      (∀ term ∈ terms, term.Canonical F) → (∀ term ∈ terms, term.isOr = false) →
      Canonical F (.or terms)
  | and {terms : List Expression} : SortedTerms (fun term => serialized F term.value) terms →
      (∀ term ∈ terms, term.Canonical F) → (∀ term ∈ terms, term.isAnd = false) →
      Canonical F (.and terms)
  | not {inner : Expression} : inner.Canonical F → Canonical F (.not inner)
  | scalar {predicate : ScalarPredicate} : predicate.operator.Bounded →
      Canonical F (.scalar predicate)
  | quantifier {predicate : QuantifierPredicate} : predicate.expression.Canonical F →
      Canonical F (.quantifier predicate)

/-- A property that canonical terms have. -/
theorem canonicalTerms_of {T : Type} {text : T → String} {children : T → List T}
    {join : List T → T} {C D : T → Prop}
    (hchildren : ∀ term, C term → children term ≠ [] ∧
      (∀ child ∈ children term, C child) ∧ ∀ child ∈ children term, D child)
    (hjoin : ∀ terms, SortedTerms text terms → (∀ term ∈ terms, C term) →
      (∀ term ∈ terms, D term) → C (join terms))
    {terms : List T} (hne : terms ≠ []) (hterms : ∀ term ∈ terms, C term) :
    C (canonicalTerms text children join terms) := by
  have hflat : ∀ term ∈ sortByKey text (terms.flatMap children), C term ∧ D term := by
    intro child hchild
    obtain ⟨term, hterm, hchild⟩ := List.mem_flatMap.1 ((mem_sortByKey text).1 hchild)
    obtain ⟨-, hC, hD⟩ := hchildren term (hterms term hterm)
    exact ⟨hC child hchild, hD child hchild⟩
  have hsome : sortByKey text (terms.flatMap children) ≠ [] := by
    obtain ⟨term, hterm⟩ := List.exists_mem_of_ne_nil terms hne
    obtain ⟨child, hchild⟩ :=
      List.exists_mem_of_ne_nil _ (hchildren term (hterms term hterm)).1
    exact List.ne_nil_of_mem ((mem_sortByKey text).2 (List.mem_flatMap.2 ⟨term, hterm, hchild⟩))
  have hsorted := sortByKey_sorted text (terms.flatMap children)
  unfold canonicalTerms
  split
  · rename_i term heq
    exact (hflat term (heq ▸ List.mem_singleton_self term)).1
  · rename_i hmany
    refine hjoin _ ⟨?_, hsorted⟩ (fun term hterm => (hflat term hterm).1)
      fun term hterm => (hflat term hterm).2
    match hmade : sortByKey text (terms.flatMap children) with
    | [] => exact absurd hmade hsome
    | [term] => exact absurd hmade (hmany term)
    | _ :: _ :: _ => exact Nat.le_add_left 2 _

namespace Parser

section Canonical

variable {F : FloatText}

theorem canonical_entityOr {terms : List EntityExpression} (hne : terms ≠ [])
    (h : ∀ term ∈ terms, term.Canonical F) : (canonicalOfEntityOr F terms).Canonical F := by
  refine canonicalTerms_of (D := fun term => term.isOr = false) (fun term hterm => ?_)
    (fun _ => .or) hne h
  -- a disjunction gives its terms, which are no disjunctions, and another term gives itself
  cases hterm with
  | or hsorted hterms hflat => exact ⟨hsorted.ne_nil, hterms, hflat⟩
  | and hsorted hterms hflat =>
    exact ⟨List.cons_ne_nil _ _, forall_singleton (.and hsorted hterms hflat), forall_singleton rfl⟩
  | not hinner =>
    exact ⟨List.cons_ne_nil _ _, forall_singleton (.not hinner), forall_singleton rfl⟩
  | scalar hbounded =>
    exact ⟨List.cons_ne_nil _ _, forall_singleton (.scalar hbounded), forall_singleton rfl⟩

theorem canonical_entityAnd {terms : List EntityExpression} (hne : terms ≠ [])
    (h : ∀ term ∈ terms, term.Canonical F) : (canonicalOfEntityAnd F terms).Canonical F := by
  refine canonicalTerms_of (D := fun term => term.isAnd = false) (fun term hterm => ?_)
    (fun _ => .and) hne h
  cases hterm with
  | or hsorted hterms hflat =>
    exact ⟨List.cons_ne_nil _ _, forall_singleton (.or hsorted hterms hflat), forall_singleton rfl⟩
  | and hsorted hterms hflat => exact ⟨hsorted.ne_nil, hterms, hflat⟩
  | not hinner =>
    exact ⟨List.cons_ne_nil _ _, forall_singleton (.not hinner), forall_singleton rfl⟩
  | scalar hbounded =>
    exact ⟨List.cons_ne_nil _ _, forall_singleton (.scalar hbounded), forall_singleton rfl⟩

theorem canonical_or {terms : List Expression} (hne : terms ≠ [])
    (h : ∀ term ∈ terms, term.Canonical F) : (canonicalOfOr F terms).Canonical F := by
  refine canonicalTerms_of (D := fun term => term.isOr = false) (fun term hterm => ?_)
    (fun _ => .or) hne h
  cases hterm with
  | or hsorted hterms hflat => exact ⟨hsorted.ne_nil, hterms, hflat⟩
  | and hsorted hterms hflat =>
    exact ⟨List.cons_ne_nil _ _, forall_singleton (.and hsorted hterms hflat), forall_singleton rfl⟩
  | not hinner =>
    exact ⟨List.cons_ne_nil _ _, forall_singleton (.not hinner), forall_singleton rfl⟩
  | scalar hbounded =>
    exact ⟨List.cons_ne_nil _ _, forall_singleton (.scalar hbounded), forall_singleton rfl⟩
  | quantifier hinner =>
    exact ⟨List.cons_ne_nil _ _, forall_singleton (.quantifier hinner), forall_singleton rfl⟩

theorem canonical_and {terms : List Expression} (hne : terms ≠ [])
    (h : ∀ term ∈ terms, term.Canonical F) : (canonicalOfAnd F terms).Canonical F := by
  refine canonicalTerms_of (D := fun term => term.isAnd = false) (fun term hterm => ?_)
    (fun _ => .and) hne h
  cases hterm with
  | or hsorted hterms hflat =>
    exact ⟨List.cons_ne_nil _ _, forall_singleton (.or hsorted hterms hflat), forall_singleton rfl⟩
  | and hsorted hterms hflat => exact ⟨hsorted.ne_nil, hterms, hflat⟩
  | not hinner =>
    exact ⟨List.cons_ne_nil _ _, forall_singleton (.not hinner), forall_singleton rfl⟩
  | scalar hbounded =>
    exact ⟨List.cons_ne_nil _ _, forall_singleton (.scalar hbounded), forall_singleton rfl⟩
  | quantifier hinner =>
    exact ⟨List.cons_ne_nil _ _, forall_singleton (.quantifier hinner), forall_singleton rfl⟩

theorem existentialsIn_eq (terms : List Expression) :
    existentialsIn terms = (terms.map existentials).sum := by
  induction terms with
  | nil => rfl
  | cons term terms ih => rw [existentialsIn, List.map_cons, List.sum_cons, ih]

theorem existentials_or (terms : List Expression) :
    existentials (canonicalOfOr F terms) = (terms.map existentials).sum := by
  refine canonicalTerms_sum (fun terms => ?_) (fun term => ?_) terms
  · rw [existentials, existentialsIn_eq]
  · cases term with
    | or terms => rw [existentials, existentialsIn_eq]
    | and terms => exact List.sum_singleton
    | not inner => exact List.sum_singleton
    | scalar predicate => exact List.sum_singleton
    | quantifier predicate => exact List.sum_singleton

theorem existentials_and (terms : List Expression) :
    existentials (canonicalOfAnd F terms) = (terms.map existentials).sum := by
  refine canonicalTerms_sum (fun terms => ?_) (fun term => ?_) terms
  · rw [existentials, existentialsIn_eq]
  · cases term with
    | or terms => exact List.sum_singleton
    | and terms => rw [existentials, existentialsIn_eq]
    | not inner => exact List.sum_singleton
    | scalar predicate => exact List.sum_singleton
    | quantifier predicate => exact List.sum_singleton

end Canonical

/-! ### Single tokens -/

/-- The last token ends the input. -/
def Ends (tokens : List Token) : Prop :=
  ∃ token, tokens.getLast? = some token ∧ token.kind = .endOfInput

/-- The tokens end, and not too many existential predicates were read. -/
structure Sound (parser : Parser) : Prop where
  ends : Ends parser.tokens
  existential : parser.existentialPredicates ≤ maxQueryExistentialPredicates

/-- The parser read tokens, and `k` existential predicates among them. -/
structure Follows (parser next : Parser) (k : Nat) : Prop where
  sound : next.Sound
  length : next.tokens.length ≤ parser.tokens.length
  count : next.existentialPredicates = parser.existentialPredicates + k

/-- The parser advances, and fails with diagnostics only. -/
def advances : Advance Parser Failure where
  Sound := Sound
  Follows := Follows
  Fails failure := failure ≠ .outOfBounds
  sound h := h.sound
  refl h := ⟨h, le_refl _, rfl⟩
  trans h h' := ⟨h'.sound, h'.length.trans h.length, by rw [h'.count, h.count, Nat.add_assoc]⟩

/-- What a step of the parser yields, at the number of existential predicates that it reads. -/
abbrev Parses {α : Type} (x : Parse α) (Q : Nat → α → Prop) : Prop := advances.Yields x Q

variable {α T : Type} {parser : Parser} {token : Token} {rest : List Token}

theorem Ends.exists_cons {tokens : List Token} (h : Ends tokens) :
    ∃ token rest, tokens = token :: rest := by
  obtain ⟨last, hlast, -⟩ := h
  cases tokens with
  | nil => cases hlast
  | cons token rest => exact ⟨token, rest, rfl⟩

/-- Another token may be read than the last. -/
theorem Ends.tail (h : Ends (token :: rest))
    (hkind : token.kind ≠ .endOfInput) : Ends rest := by
  obtain ⟨last, hlast, hend⟩ := h
  cases rest with
  | nil =>
    obtain rfl : token = last := Option.some.inj hlast
    exact absurd hend hkind
  | cons next rest => exact ⟨last, by rwa [List.getLast?_cons_cons] at hlast, hend⟩

theorem current_eq (h : parser.tokens = token :: rest) :
    current parser = .ok (token, parser) := by
  rw [current, h]

/-- The rule for a look at the current token. -/
theorem yieldsAt_current {f : Token → Parse α} {Q : Nat → α → Prop} (hsound : parser.Sound)
    (hf : ∀ token rest, parser.tokens = token :: rest → advances.YieldsAt parser (f token) Q) :
    advances.YieldsAt parser (current >>= f) Q := by
  obtain ⟨token, rest, htokens⟩ := hsound.ends.exists_cons
  have hbind : (current >>= f) parser = f token parser := by
    simp only [Bind.bind, StateT.bind, current_eq htokens, Except.bind]
  obtain ⟨herror, hok⟩ := hf token rest htokens
  exact ⟨fun e he => herror e (hbind ▸ he), fun a s' ha => hok a s' (hbind ▸ ha)⟩

theorem follows_advance (hsound : parser.Sound) (htokens : parser.tokens = token :: rest)
    (hkind : token.kind ≠ .endOfInput) :
    parser.Follows { parser with tokens := parser.tokens.tail } 0 where
  sound := ⟨by rw [htokens]; exact Ends.tail (htokens ▸ hsound.ends) hkind, hsound.existential⟩
  length := by rw [List.length_tail]; exact Nat.sub_le _ _
  count := rfl

theorem yieldsAt_advance {Q : Nat → α → Prop} {a : α} (hsound : parser.Sound)
    (htokens : parser.tokens = token :: rest) (hkind : token.kind ≠ .endOfInput) (h : Q 0 a) :
    advances.YieldsAt parser (advance >>= fun _ => pure a) Q := by
  refine ⟨fun e he => ?_, fun b next hb => ?_⟩
  · cases he
  · obtain ⟨rfl, rfl⟩ := Prod.mk.inj (Except.ok.inj hb)
    exact ⟨0, follows_advance hsound htokens hkind, h⟩

theorem parses_error {Q : Nat → α → Prop} {code clause message : String}
    {failureClass : QueryFailureClass} : Parses (error code failureClass clause message) Q :=
  fun _ hsound => yieldsAt_current hsound fun _ _ _ =>
    Yields.fail Failure.noConfusion _ hsound

theorem free_take {of : Token → Option α} {code clause message : String}
    (hend : ∀ token, token.kind = .endOfInput → of token = none) :
    advances.Free (take of code clause message) := by
  refine fun parser hsound => yieldsAt_current hsound fun token rest htokens => ?_
  cases hof : of token with
  | none => exact parses_error parser hsound
  | some value =>
    refine yieldsAt_advance hsound htokens (fun hkind => ?_) rfl
    rw [hend token hkind] at hof
    cases hof

theorem free_expectIdentifier {clause : String} : advances.Free (expectIdentifier clause) :=
  free_take fun token h => by rw [identifierOf, h]

theorem free_expectString {clause : String} : advances.Free (expectString clause) :=
  free_take fun token h => by rw [stringOf, h]

theorem free_expectUnsigned {clause : String} : advances.Free (expectUnsigned clause) :=
  free_take fun token h => by rw [unsignedOf, h]

theorem free_parseLiteral {clause : String} : advances.Free (parseLiteral clause) :=
  free_take fun token h => by rw [literalOf, h]

/-- A test that reads a token when it holds. -/
structure Consumes (more : Parse Bool) : Prop where
  free : advances.Free more
  shorter (parser next : Parser) : parser.Sound → more parser = .ok (true, next) →
    next.tokens.length < parser.tokens.length

/-- The rule for a test of the current token. -/
theorem consumes_of {test : Token → Parse Bool}
    (h : ∀ parser token rest, parser.tokens = token :: rest →
      (test token parser = .ok (true, { parser with tokens := rest }) ∧
        token.kind ≠ .endOfInput) ∨ test token parser = .ok (false, parser)) :
    Consumes (current >>= test) where
  free parser hsound := by
    refine yieldsAt_current hsound fun token rest htokens => ?_
    obtain ⟨htest, hkind⟩ | htest := h parser token rest htokens
    · refine ⟨fun e he => (nomatch htest.symm.trans he), fun b next hb => ?_⟩
      obtain ⟨-, rfl⟩ := Prod.mk.inj (Except.ok.inj (htest.symm.trans hb))
      have hfollows := follows_advance hsound htokens hkind
      rw [htokens] at hfollows
      exact ⟨0, hfollows, rfl⟩
    · refine ⟨fun e he => (nomatch htest.symm.trans he), fun b next hb => ?_⟩
      obtain ⟨-, rfl⟩ := Prod.mk.inj (Except.ok.inj (htest.symm.trans hb))
      exact ⟨0, advances.refl hsound, rfl⟩
  shorter parser next hsound hnext := by
    obtain ⟨token, rest, htokens⟩ := hsound.ends.exists_cons
    have hbind : (current >>= test) parser = test token parser := by
      simp only [Bind.bind, StateT.bind, current_eq htokens, Except.bind]
    rw [hbind] at hnext
    obtain ⟨htest, -⟩ | htest := h parser token rest htokens
    · obtain ⟨-, rfl⟩ := Prod.mk.inj (Except.ok.inj (htest.symm.trans hnext))
      rw [htokens]
      exact Nat.lt_succ_self _
    · exact nomatch htest.symm.trans hnext

theorem advance_true (htokens : parser.tokens = token :: rest) :
    (advance >>= fun _ => pure true : Parse Bool) parser =
      .ok (true, { parser with tokens := rest }) := by
  simp only [Bind.bind, StateT.bind, advance, htokens, List.tail_cons, Except.bind]
  rfl

theorem consumes_consumeIf {isKind : TokenKind → Bool} (hend : isKind .endOfInput = false) :
    Consumes (consumeIf isKind) := by
  refine consumes_of fun parser token rest htokens => ?_
  cases hkind : isKind token.kind with
  | false => exact .inr rfl
  | true =>
    refine .inl ⟨advance_true htokens, fun h => ?_⟩
    rw [h, hend] at hkind
    cases hkind

theorem consumes_consumeKeyword {keyword : String} : Consumes (consumeKeyword keyword) :=
  consumes_consumeIf rfl

theorem consumes_consumeSimple {expected : TokenKind} (h : expected ≠ .endOfInput) :
    Consumes (consumeSimple expected) := by
  refine consumes_consumeIf ?_
  cases expected <;> first | rfl | exact absurd rfl h

theorem consumes_consumeBefore {keyword binding : String} :
    Consumes (consumeBefore keyword binding) := by
  refine consumes_of fun parser token rest htokens => ?_
  have htest : (termFollows binding >>= fun follows =>
      if (isKeyword keyword token.kind && follows) = true then advance >>= fun _ => pure true
      else pure false : Parse Bool) parser =
      (if (isKeyword keyword token.kind && entityTermStarts binding parser.tokens.tail) = true then
        advance >>= fun _ => pure true else pure false : Parse Bool) parser := rfl
  rw [htest]
  cases hkind : isKeyword keyword token.kind with
  | false => exact .inr rfl
  | true =>
    cases entityTermStarts binding parser.tokens.tail with
    | false => exact .inr rfl
    | true =>
      refine .inl ⟨advance_true htokens, fun h => ?_⟩
      rw [h] at hkind
      cases hkind

theorem free_currentKeyword {keyword : String} : advances.Free (currentKeyword keyword) :=
  fun _ hsound => yieldsAt_current hsound fun _ _ _ => .pure hsound rfl

theorem free_expectKeyword {keyword clause : String} :
    advances.Free (expectKeyword keyword clause) :=
  consumes_consumeKeyword.free.then fun _ => .ite (fun _ => .pure rfl) fun _ => parses_error

theorem free_expectSimple {expected : TokenKind} {clause : String}
    (h : expected ≠ .endOfInput) : advances.Free (expectSimple expected clause) :=
  (consumes_consumeSimple h).free.then fun _ => .ite (fun _ => .pure rfl) fun _ => parses_error

/-! ### Lists -/

theorem parsesAt_loop {more : Parse Bool} {item : List T → Parse T} {P : Nat → List T → Prop}
    (hmore : Consumes more)
    (hitem : ∀ k items, P k items → Parses (item items) fun j made => P (k + j) (items ++ [made]))
    (rounds : Nat) {k : Nat} {items : List T} (hitems : P k items) {parser : Parser}
    (hsound : parser.Sound) (hrounds : parser.tokens.length ≤ rounds) :
    advances.YieldsAt parser (loop more item rounds items) fun j made => P (k + j) made := by
  induction rounds generalizing k items parser with
  | zero =>
    obtain ⟨token, rest, htokens⟩ := hsound.ends.exists_cons
    rw [htokens] at hrounds
    exact absurd hrounds (Nat.not_succ_le_zero _)
  | succ rounds ih =>
    rw [loop]
    refine (hmore.free parser hsound).bind fun j b next hnext hfollows hj => ?_
    subst hj
    cases b with
    | false => exact .pure hfollows.sound (by rwa [Nat.add_zero])
    | true =>
      have hshorter := hmore.shorter parser next hsound hnext
      refine (hitem k items hitems next hfollows.sound).bind fun i made after _ hafter hmade => ?_
      refine (ih hmade hafter.sound ?_).mono fun j all hall => ?_
      · exact hafter.length.trans (Nat.lt_succ_iff.1 (hshorter.trans_le hrounds))
      · rwa [Nat.zero_add, ← Nat.add_assoc]

/-- The rule for a loop that starts with an item. -/
theorem parses_itemsFrom {more : Parse Bool} {item : List T → Parse T} {P : Nat → List T → Prop}
    (hmore : Consumes more)
    (hitem : ∀ k items, P k items → Parses (item items) fun j made => P (k + j) (items ++ [made]))
    {k : Nat} {first : T} (hfirst : P k [first]) :
    Parses (itemsFrom more item first) fun j made => P (k + j) made := by
  intro parser hsound
  obtain ⟨herror, hok⟩ := parsesAt_loop hmore hitem _ hfirst hsound (le_refl _)
  exact ⟨herror, hok⟩

/-- Items of a property, of which each costs its size. -/
theorem parses_parseItems {more : Parse Bool} {item : Parse T} {C : T → Prop} {size : T → Nat}
    (hmore : Consumes more) (hitem : Parses item fun k made => k = size made ∧ C made) :
    Parses (parseItems more item) fun k items =>
      k = (items.map size).sum ∧ items ≠ [] ∧ ∀ made ∈ items, C made := by
  refine hitem.bind fun k first hfirst => parses_itemsFrom (P := fun k (items : List T) =>
    k = (items.map size).sum ∧ items ≠ [] ∧ ∀ made ∈ items, C made) hmore ?_ ?_
  · rintro k items ⟨rfl, -, hitems⟩
    refine hitem.mono ?_
    rintro j made ⟨rfl, hmade⟩
    refine ⟨?_, List.append_ne_nil_of_right_ne_nil _ (List.cons_ne_nil _ _), ?_⟩
    · rw [List.map_append, List.sum_append, List.map_singleton, List.sum_singleton]
    · exact List.forall_mem_append.2 ⟨hitems, forall_singleton hmade⟩
  · exact ⟨by rw [hfirst.1, List.map_singleton, List.sum_singleton], List.cons_ne_nil _ _,
      forall_singleton hfirst.2⟩

/-- Items up to a maximum. -/
theorem parses_parseLimited {maximum : Nat} {code clause message : String} {item : Parse T}
    (hmaximum : 1 ≤ maximum) (hitem : advances.Free item) :
    Parses (parseLimited maximum code clause message item) fun k items =>
      k = 0 ∧ items ≠ [] ∧ items.length ≤ maximum := by
  refine hitem.then fun first => (parses_itemsFrom (P := fun k (items : List T) =>
    k = 0 ∧ items ≠ [] ∧ items.length ≤ maximum) (k := 0)
    (consumes_consumeSimple (by decide)) ?_ ⟨rfl, List.cons_ne_nil _ _, hmaximum⟩).mono ?_
  · rintro k items ⟨rfl, -, -⟩
    refine .ite (fun _ => parses_error) fun hlength => hitem.mono fun j made hj => ?_
    refine ⟨by rw [hj], List.append_ne_nil_of_right_ne_nil _ (List.cons_ne_nil _ _), ?_⟩
    rw [List.length_append, List.length_singleton]
    exact Nat.lt_of_not_le hlength
  · rintro j items h
    rwa [Nat.zero_add] at h

/-! ### Match clauses -/

theorem free_consumeSimple {expected : TokenKind} (h : expected ≠ .endOfInput) :
    advances.Free (consumeSimple expected) :=
  (consumes_consumeSimple h).free

theorem free_consumeKeyword {keyword : String} : advances.Free (consumeKeyword keyword) :=
  consumes_consumeKeyword.free

theorem free_parseKind {clause : String} : advances.Free (parseKind clause) :=
  (free_consumeSimple (by decide)).then fun _ =>
    .ite (fun _ => free_expectString.then fun _ => .pure rfl) fun _ => .pure rfl

theorem free_parseNode {clause : String} : advances.Free (parseNode clause) :=
  (free_expectSimple (by decide)).then fun _ => free_expectIdentifier.then fun _ =>
    free_parseKind.then fun _ => (free_expectSimple (by decide)).then fun _ => .pure rfl

theorem free_parseDirection : advances.Free parseDirection :=
  (free_consumeSimple (by decide)).then fun _ =>
    .ite (fun _ => .pure rfl) fun _ => (free_expectSimple (by decide)).then fun _ => .pure rfl

theorem parses_parseKinds : Parses parseKinds fun k kinds => k = 0 ∧ AscendingKinds kinds := by
  have hitem : Parses (expectString "match") fun k made =>
      k = (fun _ : String => 0) made ∧ True :=
    free_expectString.mono fun k _ hk => ⟨hk, trivial⟩
  refine (parses_parseItems (consumes_consumeSimple (by decide)) hitem).bind fun k kinds hkinds => ?_
  obtain ⟨hk, hne, -⟩ := hkinds
  refine .ite (fun _ => parses_error) fun htwins => .pure ⟨?_, fun hnil => ?_, ?_⟩
  · simpa using hk
  · exact hne (List.Perm.nil_eq (hnil ▸ sortByKey_perm id kinds)).symm
  · exact sortByKey_strict_of_hasTwins Function.injective_id (Bool.eq_false_of_not_eq_true htwins)

theorem parses_checkDepth {depth : Nat × QueryOrigin} {message : String} :
    Parses (checkDepth depth message) fun k checked =>
      k = 0 ∧ 1 ≤ checked ∧ checked ≤ maxQueryDepth :=
  .ite (fun h => .pure ⟨rfl, h⟩) fun _ => .fail Failure.noConfusion

theorem parses_parseRelationship :
    Parses parseRelationship fun k relationship => k = 0 ∧ relationship.Bounded := by
  refine free_parseDirection.then fun direction => ?_
  refine (free_expectSimple (by decide)).then fun _ => ?_
  refine parses_parseKinds.bind fun k kinds hkinds => ?_
  obtain ⟨rfl, hkinds⟩ := hkinds
  refine (free_expectSimple (by decide)).then fun _ => free_expectUnsigned.then fun minimum => ?_
  refine (free_expectSimple (by decide)).then fun _ => free_expectUnsigned.then fun maximum => ?_
  refine (free_expectSimple (by decide)).then fun _ => ?_
  refine (free_expectSimple (by cases direction <;> decide)).then fun _ => ?_
  refine parses_checkDepth.bind fun j minDepth hleast => ?_
  obtain ⟨rfl, hleast, -⟩ := hleast
  refine parses_checkDepth.bind fun i maxDepth hgreatest => ?_
  obtain ⟨rfl, -, hgreatest⟩ := hgreatest
  refine .ite (fun _ => .fail Failure.noConfusion) fun hordered => .pure ⟨rfl, ?_⟩
  exact ⟨hkinds, hleast, Nat.le_of_not_lt hordered, hgreatest⟩

theorem parses_parseMatch :
    Parses parseMatch fun k clause => k = 0 ∧ clause.relationship.Bounded := by
  refine free_expectKeyword.then fun _ => free_expectIdentifier.then fun pathBinding => ?_
  refine (free_expectSimple (by decide)).then fun _ => free_parseNode.then fun source => ?_
  refine parses_parseRelationship.bind fun k relationship h => ?_
  obtain ⟨rfl, h⟩ := h
  exact free_parseNode.then fun target => .pure ⟨rfl, h⟩

/-! ### Scalar predicates -/

theorem free_parseField {clause : String} : advances.Free (parseField clause) :=
  free_expectIdentifier.then fun _ => (free_expectSimple (by decide)).then fun _ =>
    free_expectIdentifier.then fun _ => .pure rfl

theorem parses_parseLiterals {clause : String} :
    Parses (parseLiterals clause) fun k literals =>
      k = 0 ∧ (ScalarOperator.isIn literals).Bounded := by
  refine (free_expectSimple (by decide)).then fun _ => ?_
  refine (parses_parseLimited (by decide) free_parseLiteral).bind fun k literals h => ?_
  obtain ⟨rfl, hne, hlength⟩ := h
  refine (free_expectSimple (by decide)).then fun _ => ?_
  refine .ite (fun _ => parses_error) fun htwins => .pure ⟨rfl, fun hnil => ?_, ?_, ?_⟩
  · exact hne (List.Perm.nil_eq (hnil ▸ sortByKey_perm literalKey literals)).symm
  · rwa [(sortByKey_perm literalKey literals).length_eq]
  · exact sortByKey_strict_of_hasTwins literalKey_injective (Bool.eq_false_of_not_eq_true htwins)

theorem parses_parseKeywordOperator {clause : String} :
    Parses (parseKeywordOperator clause) fun k operator => k = 0 ∧ operator.Bounded := by
  refine free_consumeKeyword.then fun _ => .ite (fun _ => ?_) fun _ => ?_
  · exact free_expectKeyword.then fun _ => free_parseLiteral.then fun _ => .pure ⟨rfl, trivial⟩
  · refine free_consumeKeyword.then fun _ => .ite (fun _ => ?_) fun _ => parses_error
    exact parses_parseLiterals.map fun _ _ h => h

theorem parses_parseOperator {clause : String}
    {operators : List (TokenKind × (Literal → ScalarOperator))}
    (h : ∀ entry ∈ operators, entry.1 ≠ .endOfInput ∧ ∀ literal, (entry.2 literal).Bounded) :
    Parses (parseOperator clause operators) fun k operator => k = 0 ∧ operator.Bounded := by
  induction operators with
  | nil => exact parses_parseKeywordOperator
  | cons entry operators ih =>
    obtain ⟨hkind, hbounded⟩ := h entry List.mem_cons_self
    refine (free_consumeSimple hkind).then fun _ => .ite (fun _ => ?_) fun _ => ?_
    · exact free_parseLiteral.then fun literal => .pure ⟨rfl, hbounded literal⟩
    · exact ih fun entry hentry => h entry (List.mem_cons_of_mem _ hentry)

theorem literalOperators_bounded : ∀ entry ∈ literalOperators,
    entry.1 ≠ .endOfInput ∧ ∀ literal, (entry.2 literal).Bounded := by
  simp [literalOperators, ScalarOperator.Bounded]

theorem parses_parseScalarPredicate {clause : String} :
    Parses (parseScalarPredicate clause) fun k predicate => k = 0 ∧ predicate.operator.Bounded :=
  free_parseField.then fun _ => (parses_parseOperator literalOperators_bounded).map fun _ _ h => h

/-! ### Expressions -/

section Expressions

variable {F : FloatText}

theorem parses_parseEntityTerm {nested : Parse EntityExpression}
    (hnested : Parses nested fun k expression => k = 0 ∧ expression.Canonical F) :
    Parses (parseEntityTerm nested) fun k expression => k = 0 ∧ expression.Canonical F := by
  have hnegate (negated : Bool) {expression : EntityExpression} (h : expression.Canonical F) :
      (negate .not negated expression).Canonical F := by
    cases negated with
    | false => exact h
    | true => exact .not h
  refine free_consumeKeyword.then fun negated => (free_consumeSimple (by decide)).then fun _ => ?_
  refine .ite (fun _ => ?_) fun _ => ?_
  · refine hnested.bind fun k expression h => ?_
    obtain ⟨rfl, h⟩ := h
    exact (free_expectSimple (by decide)).then fun _ => .pure ⟨rfl, hnegate negated h⟩
  · exact parses_parseScalarPredicate.map fun k predicate h => ⟨h.1, hnegate negated (.scalar h.2)⟩

/-- The rule for terms of an expression about an entity, without existential predicates. -/
theorem parses_entityTerms {more : Parse Bool} {term : Parse EntityExpression}
    {join : List EntityExpression → EntityExpression} (hmore : Consumes more)
    (hterm : Parses term fun k expression => k = 0 ∧ expression.Canonical F)
    (hjoin : ∀ terms, terms ≠ [] → (∀ term ∈ terms, term.Canonical F) → (join terms).Canonical F) :
    Parses (parseItems more term >>= fun terms => pure (join terms)) fun k expression =>
      k = 0 ∧ expression.Canonical F := by
  refine (parses_parseItems hmore hterm).map fun k terms h => ?_
  obtain ⟨hk, hne, hterms⟩ := h
  exact ⟨by simpa using hk, hjoin terms hne hterms⟩

theorem parses_parseEntityExpression {binding : String} (levels : Nat) :
    Parses (parseEntityExpression F binding levels) fun k expression =>
      k = 0 ∧ expression.Canonical F := by
  induction levels with
  | zero => exact parses_error
  | succ levels ih =>
    rw [parseEntityExpression]
    exact parses_entityTerms consumes_consumeBefore (parses_entityTerms consumes_consumeBefore
      (parses_parseEntityTerm ih) fun _ => canonical_entityAnd) fun _ => canonical_entityOr

theorem error_eq (parser : Parser) (h : Ends parser.tokens) (code clause message : String)
    (failureClass : QueryFailureClass) : ∃ diagnostic,
      (error code failureClass clause message : Parse α) parser =
        .error (.diagnostic diagnostic) := by
  obtain ⟨token, rest, htokens⟩ := h.exists_cons
  refine ⟨⟨code, failureClass, clause, token.kind.tokenClass, token.origin, message⟩, ?_⟩
  simp only [error, Bind.bind, StateT.bind, current_eq htokens, Except.bind]
  rfl

theorem parses_countExistential : Parses countExistential fun k _ => k = 1 := by
  intro parser hsound
  by_cases hmany : maxQueryExistentialPredicates < parser.existentialPredicates + 1
  · obtain ⟨diagnostic, herror⟩ := error_eq (α := Unit)
      { parser with existentialPredicates := parser.existentialPredicates + 1 }
      hsound.ends "query_existential_limit_exceeded" "where"
      "query exceeds the existential predicate limit" .limit
    have hcount : countExistential parser = .error (.diagnostic diagnostic) :=
      (if_pos hmany).trans herror
    refine ⟨fun e he => ?_, fun a next ha => ?_⟩
    · obtain rfl := Except.error.inj (hcount.symm.trans he)
      exact Failure.noConfusion
    · exact nomatch hcount.symm.trans ha
  · have hcount : countExistential parser =
        .ok ((), { parser with existentialPredicates := parser.existentialPredicates + 1 }) :=
      if_neg hmany
    refine ⟨fun e he => (nomatch hcount.symm.trans he), fun a next ha => ?_⟩
    obtain ⟨-, rfl⟩ := Prod.mk.inj (Except.ok.inj (hcount.symm.trans ha))
    exact ⟨1, ⟨⟨hsound.ends, Nat.le_of_not_lt hmany⟩, le_refl _, rfl⟩, rfl⟩

theorem parses_parseEvery : Parses parseEvery fun k every => k = if every then 0 else 1 := by
  refine free_consumeKeyword.then fun _ => .ite (fun _ => .pure rfl) fun _ => ?_
  exact free_expectKeyword.then fun _ => parses_countExistential.map fun k _ h => h

theorem parses_parseSomeKind :
    Parses parseSomeKind fun k kind => k = 0 ∧ isExistential kind = true :=
  free_consumeKeyword.then fun _ => .ite (fun _ => .pure ⟨rfl, rfl⟩) fun _ =>
    free_consumeKeyword.then fun _ => .ite (fun _ => .pure ⟨rfl, rfl⟩) fun _ => parses_error

theorem parses_parseQuantifierKind (every : Bool) :
    Parses (parseQuantifierKind every) fun k kind => k = 0 ∧ isExistential kind = !every := by
  cases every with
  | false => exact parses_parseSomeKind
  | true => exact free_expectKeyword.then fun _ => .pure ⟨rfl, rfl⟩

theorem parses_parseQuantifier (levels : Nat) :
    Parses (parseQuantifier F levels) fun k predicate =>
      k = existentials (.quantifier predicate) ∧ predicate.expression.Canonical F := by
  cases levels with
  | zero => exact parses_error
  | succ levels =>
    refine parses_parseEvery.bind fun k every hevery => ?_
    refine free_expectIdentifier.then fun binding => free_expectKeyword.then fun _ => ?_
    refine (parses_parseQuantifierKind every).bind fun j kind hkind => ?_
    obtain ⟨rfl, hkind⟩ := hkind
    refine (free_expectSimple (by decide)).then fun _ => free_expectIdentifier.then fun _ => ?_
    refine (free_expectSimple (by decide)).then fun _ => free_expectKeyword.then fun _ => ?_
    refine (parses_parseEntityExpression (levels + 1)).map fun i expression h => ?_
    obtain ⟨rfl, h⟩ := h
    refine ⟨?_, h⟩
    rw [existentials, hkind, hevery]
    cases every <;> rfl

/-- What the parsers of expressions yield. -/
abbrev Parsed (F : FloatText) (k : Nat) (expression : Expression) : Prop :=
  k = existentials expression ∧ expression.Canonical F

theorem parses_parsePrimaryExpression {nested : Parse Expression}
    {quantifier : Parse QuantifierPredicate} (hnested : Parses nested (Parsed F))
    (hquantifier : Parses quantifier fun k predicate =>
      k = existentials (.quantifier predicate) ∧ predicate.expression.Canonical F) :
    Parses (parsePrimaryExpression nested quantifier) (Parsed F) := by
  refine (free_consumeSimple (by decide)).then fun _ => .ite (fun _ => ?_) fun _ => ?_
  · refine hnested.bind fun k expression h => ?_
    exact (free_expectSimple (by decide)).then fun _ => .pure h
  · refine free_currentKeyword.then fun _ => free_currentKeyword.then fun _ => ?_
    refine .ite (fun _ => ?_) fun _ => ?_
    · exact hquantifier.map fun k predicate h => ⟨h.1, .quantifier h.2⟩
    · exact parses_parseScalarPredicate.map fun k predicate h => ⟨h.1, .scalar h.2⟩

theorem parses_parseNotExpression {primary : Parse Expression}
    (hprimary : Parses primary (Parsed F)) : Parses (parseNotExpression primary) (Parsed F) := by
  refine free_consumeKeyword.then fun negated => hprimary.map fun k expression h => ?_
  cases negated with
  | false => exact h
  | true => exact ⟨h.1, .not h.2⟩

/-- The rule for terms of an expression. -/
theorem parses_terms {more : Parse Bool} {term : Parse Expression}
    {join : List Expression → Expression} (hmore : Consumes more)
    (hterm : Parses term (Parsed F))
    (hjoin : ∀ terms, terms ≠ [] → (∀ term ∈ terms, term.Canonical F) → (join terms).Canonical F)
    (hsum : ∀ terms, existentials (join terms) = (terms.map existentials).sum) :
    Parses (parseItems more term >>= fun terms => pure (join terms)) (Parsed F) := by
  refine (parses_parseItems hmore hterm).map fun k terms h => ?_
  obtain ⟨hk, hne, hterms⟩ := h
  exact ⟨hk.trans (hsum terms).symm, hjoin terms hne hterms⟩

theorem parses_parseExpression (levels : Nat) : Parses (parseExpression F levels) (Parsed F) := by
  induction levels with
  | zero => exact parses_error
  | succ levels ih =>
    rw [parseExpression]
    exact parses_terms consumes_consumeKeyword (parses_terms consumes_consumeKeyword
      (parses_parseNotExpression (parses_parsePrimaryExpression ih (parses_parseQuantifier levels)))
      (fun _ => canonical_and) existentials_and) (fun _ => canonical_or) existentials_or

end Expressions

/-! ### Queries -/

theorem parses_parseWhere {F : FloatText} : Parses (parseWhere F) fun k clause =>
    k = clause.elim 0 existentials ∧ ∀ expression, clause = some expression →
      expression.Canonical F := by
  refine free_consumeKeyword.then fun _ => .ite (fun _ => ?_) fun _ => ?_
  · refine (parses_parseExpression _).map fun k expression h => ⟨h.1, fun other hother => ?_⟩
    exact Option.some.inj hother ▸ h.2
  · exact .pure ⟨rfl, fun other hother => by cases hother⟩

theorem free_parseProjection {clause : String} : advances.Free (parseProjection clause) :=
  free_expectIdentifier.then fun _ => (free_consumeSimple (by decide)).then fun _ =>
    .ite (fun _ => free_expectIdentifier.then fun _ => .pure rfl) fun _ => .pure rfl

theorem parses_parseReturn : Parses parseReturn fun k clause =>
    k = 0 ∧ clause.projections ≠ [] ∧ clause.projections.length ≤ maxQueryProjections :=
  free_expectKeyword.then fun _ => free_consumeKeyword.then fun _ =>
    (parses_parseLimited (by decide) free_parseProjection).map fun _ _ h => h

theorem free_parseSortDirection : advances.Free parseSortDirection :=
  free_consumeKeyword.then fun _ => .ite (fun _ => .pure rfl) fun _ =>
    free_consumeKeyword.then fun _ => .pure rfl

theorem free_parseOrderItem : advances.Free parseOrderItem :=
  free_parseProjection.then fun _ => free_parseSortDirection.then fun _ => .pure rfl

theorem parses_parseOrderBy :
    Parses parseOrderBy fun k items => k = 0 ∧ items.length ≤ maxQueryProjections := by
  refine free_consumeKeyword.then fun _ => .ite (fun _ => ?_) fun _ => .pure ⟨rfl, Nat.zero_le _⟩
  refine free_expectKeyword.then fun _ => ?_
  exact (parses_parseLimited (by decide) free_parseOrderItem).mono fun k items h => ⟨h.1, h.2.2⟩

theorem parses_parseLimit :
    Parses parseLimit fun k limit => k = 0 ∧ 0 < limit ∧ limit ≤ maxQueryLimit :=
  free_expectKeyword.then fun _ => free_expectUnsigned.then fun _ =>
    .ite (fun h => .pure ⟨rfl, h⟩) fun _ => .fail Failure.noConfusion

theorem free_current : advances.Free current :=
  fun parser hsound => by
    obtain ⟨token, rest, htokens⟩ := hsound.ends.exists_cons
    have hcurrent := current_eq htokens
    refine ⟨fun e he => (nomatch hcurrent.symm.trans he), fun a next ha => ?_⟩
    obtain ⟨-, rfl⟩ := Prod.mk.inj (Except.ok.inj (hcurrent.symm.trans ha))
    exact ⟨0, advances.refl hsound, rfl⟩

theorem free_parseEnd : advances.Free parseEnd :=
  (free_consumeSimple (by decide)).then fun _ => free_current.then fun _ =>
    .ite (fun _ => .pure rfl) fun _ => parses_error

end Parser

/-- What the parser promises of a query. -/
structure QueryAst.WellFormed (F : FloatText) (ast : QueryAst) : Prop where
  version : ast.contractVersion = boundedQueryContractVersion
  relationship : ast.matchClause.relationship.Bounded
  whereClause (expression : Expression) : ast.whereClause = some expression →
    expression.Canonical F
  existentials : ast.whereClause.elim 0 existentials ≤ maxQueryExistentialPredicates
  projected : ast.returnClause.projections ≠ []
  projections : ast.returnClause.projections.length ≤ maxQueryProjections
  orderBy : ast.orderBy.length ≤ maxQueryProjections
  positive : 0 < ast.limit
  limit : ast.limit ≤ maxQueryLimit
  nodes : astNodeCount ast ≤ maxQueryAstNodes

namespace Parser

/-- The existential predicates are counted, the rest is within the bounds. -/
theorem parses_parse {F : FloatText} : Parses (parse F) fun k ast =>
    k = ast.whereClause.elim 0 existentials ∧
      (ast.whereClause.elim 0 existentials ≤ maxQueryExistentialPredicates → ast.WellFormed F) := by
  refine parses_parseMatch.bind fun k clause hclause => ?_
  obtain ⟨rfl, hclause⟩ := hclause
  refine parses_parseWhere.bind fun j whereClause hwhere => ?_
  obtain ⟨rfl, hwhere⟩ := hwhere
  refine parses_parseReturn.bind fun i returnClause hreturn => ?_
  obtain ⟨rfl, hprojected, hprojections⟩ := hreturn
  refine parses_parseOrderBy.bind fun i orderBy horder => ?_
  obtain ⟨rfl, horder⟩ := horder
  refine parses_parseLimit.bind fun i limit hlimit => ?_
  obtain ⟨rfl, hpositive, hlimit⟩ := hlimit
  refine free_parseEnd.then fun _ => .ite (fun _ => parses_error) fun hnodes => .pure ⟨?_, ?_⟩
  · simp only [Nat.zero_add, Nat.add_zero]
  · exact fun hfew => ⟨rfl, hclause, hwhere, hfew, hprojected, hprojections, horder, hpositive,
      hlimit, Nat.le_of_not_lt hnodes⟩

end Parser

end Query
