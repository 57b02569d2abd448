import Depgraph.Json.Proper
import Depgraph.Library.Clauses
import Depgraph.Protocol.Framework
import Mathlib.Data.Fintype.Card

/-!
# Conditions that allow an environment

`condition_allows_environment` accepts a condition when one of its environment predicates names the
environment. It treats the operands of `all` like those of `any`, and does not look at other keys. Here
it is compared with satisfiability: whether the condition holds under some assignment of the keys with
that environment. That is decided by the alternatives of the condition and their clashes.
-/

namespace Protocol

open Json Clauses

/-! ### Satisfiability -/

/-- A condition as it is read: its values are JSON values. -/
structure JsonCondition where
  condition : Condition
  proper : Condition.Over (fun value => value.distinctKeys = true) condition

/-- The condition holds under an assignment of JSON values to keys that has this environment. -/
def Satisfiable (environment : String) (condition : Condition) : Prop :=
  ∃ env : String → Option Proper, env "environment" = some (Proper.string environment) ∧
    condition.holds (fun key => (env key).map Proper.value) = true

/-! ### Literals -/

inductive Atom
  | eq (value : Value)
  | isIn (values : List Value)
  | defined

namespace Atom

def values : Atom → List Value
  | eq value => [value]
  | isIn values => values
  | defined => []

def isDefined : Atom → Bool
  | defined => true
  | _ => false

def holds (value : Option Value) : Atom → Bool
  | eq expected => value.any (· == expected)
  | isIn values => value.any fun w => values.any (w == ·)
  | defined => value.isSome

end Atom

/-- An atom or its negation, at a key. -/
structure Literal where
  key : String
  atom : Atom
  positive : Bool

def Literal.admits (literal : Literal) (value : Option Value) : Bool :=
  literal.atom.holds value == literal.positive

namespace Condition

mutual

/-- The alternatives under which a condition has a truth value. Negation only changes the sign. -/
def alternatives (positive : Bool) : Condition → List (List Literal)
  | .all conditions => if positive then product (alternativesOf positive conditions)
      else (alternativesOf positive conditions).flatten
  | .any conditions => if positive then (alternativesOf positive conditions).flatten
      else product (alternativesOf positive conditions)
  | .not condition => condition.alternatives (!positive)
  | .eq key value => [[⟨key, .eq value, positive⟩]]
  | .isIn key values => [[⟨key, .isIn values, positive⟩]]
  | .defined key => [[⟨key, .defined, positive⟩]]

def alternativesOf (positive : Bool) : List Condition → List (List (List Literal))
  | [] => []
  | condition :: conditions =>
    condition.alternatives positive :: alternativesOf positive conditions

end

mutual

/-- The leaves that stand under no negation. -/
def openLeaves : Condition → List Condition
  | .all conditions => openLeavesOf conditions
  | .any conditions => openLeavesOf conditions
  | .not _ => []
  | .eq key value => [.eq key value]
  | .isIn key values => [.isIn key values]
  | .defined key => [.defined key]

def openLeavesOf : List Condition → List Condition
  | [] => []
  | condition :: conditions => condition.openLeaves ++ openLeavesOf conditions

end

/-- The condition is an environment predicate with this environment among its values. -/
def Names (environment : String) : Condition → Prop
  | .eq key value => key = "environment" ∧ value = .string environment
  | .isIn key values => key = "environment" ∧ .string environment ∈ values
  | _ => False

/-- An environment predicate under no negation names the environment. Inside of another condition it
has to have no values but strings that are not empty. -/
def NamedOpenly (environment : String) (condition : Condition) : Prop :=
  condition.Names environment ∨
    ∃ leaf ∈ condition.openLeaves, leaf.hasEnvironmentPredicate = true ∧ leaf.Names environment

end Condition

/-! ### Clashes -/

/-- Literals at one key that can hold together: the key may be absent, or have a value that none of them
lists, or have one of the values that they ask for. -/
def fitTogether (literals : List Literal) : Bool :=
  literals.all (fun literal => !literal.positive) ||
  literals.all (fun literal => literal.atom.isDefined == literal.positive) ||
  (literals.flatMap fun literal => if literal.positive then literal.atom.values else []).any
    fun value => literals.all (·.admits (some value))

def literalsAt (key : String) (alternative : List Literal) : List Literal :=
  alternative.filter (·.key == key)

/-- Nothing in the alternative clashes with the environment, or at any other key. -/
def clashFree (environment : String) (alternative : List Literal) : Bool :=
  (literalsAt "environment" alternative).all (·.admits (some (.string environment))) &&
  alternative.all fun literal =>
    literal.key == "environment" || fitTogether (literalsAt literal.key alternative)

/-! ### Meaning of alternatives -/

namespace Condition

theorem alternativesOf_eq_map (positive : Bool) (conditions : List Condition) :
    alternativesOf positive conditions = conditions.map (alternatives positive) := by
  induction conditions with
  | nil => rfl
  | cons condition conditions ih => rw [alternativesOf, ih, List.map_cons]

theorem openLeavesOf_eq (conditions : List Condition) :
    openLeavesOf conditions = conditions.flatMap openLeaves := by
  induction conditions with
  | nil => rfl
  | cons condition conditions ih => rw [openLeavesOf, ih, List.flatMap_cons]

/-- **A condition has a truth value exactly when one of its alternatives for it holds.** -/
theorem meets_alternatives (env : Assignment) (condition : Condition) (positive : Bool) :
    meets (fun literal => literal.admits (env literal.key)) (condition.alternatives positive) =
      (condition.holds env == positive) := by
  induction condition generalizing positive with
  | all conditions ih =>
    rw [alternatives, alternativesOf_eq_map, holds_all]
    cases positive with
    | true =>
      rw [if_pos rfl, meets_product, List.all_map, beq_true]
      exact all_congr_of_mem fun c hc => (ih c hc true).trans (beq_true _)
    | false =>
      rw [if_neg (by decide), meets_flatten, List.any_map, beq_false, List.not_all_eq_any_not]
      exact any_congr_of_mem fun c hc => (ih c hc false).trans (beq_false _)
  | any conditions ih =>
    rw [alternatives, alternativesOf_eq_map, holds_any]
    cases positive with
    | true =>
      rw [if_pos rfl, meets_flatten, List.any_map, beq_true]
      exact any_congr_of_mem fun c hc => (ih c hc true).trans (beq_true _)
    | false =>
      rw [if_neg (by decide), meets_product, List.all_map, beq_false, List.not_any_eq_all_not]
      exact all_congr_of_mem fun c hc => (ih c hc false).trans (beq_false _)
  | not condition ih =>
    rw [alternatives, ih, holds_not]
    cases condition.holds env <;> cases positive <;> rfl
  | eq key value => exact meets_singleton _
  | isIn key values => exact meets_singleton _
  | defined key => exact meets_singleton _

/-- The literals of a condition list values of the condition. -/
theorem alternatives_over {P : Value → Prop} {condition : Condition} (h : Over P condition)
    (positive : Bool) : ∀ alternative ∈ condition.alternatives positive,
      ∀ literal ∈ alternative, ∀ value ∈ literal.atom.values, P value := by
  have hflatten {conditions : List Condition} {positive : Bool}
      (ih : ∀ c ∈ conditions, ∀ alternative ∈ c.alternatives positive,
        ∀ literal ∈ alternative, ∀ value ∈ literal.atom.values, P value) :
      ∀ alternative ∈ (conditions.map (alternatives positive)).flatten,
        ∀ literal ∈ alternative, ∀ value ∈ literal.atom.values, P value := by
    intro alternative halternative
    obtain ⟨operand, hoperand, hmem⟩ := List.mem_flatten.1 halternative
    obtain ⟨c, hc, rfl⟩ := List.mem_map.1 hoperand
    exact ih c hc alternative hmem
  have hproduct {conditions : List Condition} {positive : Bool}
      (ih : ∀ c ∈ conditions, ∀ alternative ∈ c.alternatives positive,
        ∀ literal ∈ alternative, ∀ value ∈ literal.atom.values, P value) :
      ∀ alternative ∈ product (conditions.map (alternatives positive)),
        ∀ literal ∈ alternative, ∀ value ∈ literal.atom.values, P value := by
    intro alternative halternative literal hliteral
    obtain ⟨operand, hoperand, part, hpart, hmem⟩ := mem_product halternative hliteral
    obtain ⟨c, hc, rfl⟩ := List.mem_map.1 hoperand
    exact ih c hc part hpart literal hmem
  have hleaf (key : String) (atom : Atom) (positive : Bool) (hatom : ∀ value ∈ atom.values, P value) :
      ∀ alternative ∈ [[(⟨key, atom, positive⟩ : Literal)]],
        ∀ literal ∈ alternative, ∀ value ∈ literal.atom.values, P value := by
    intro alternative halternative literal hliteral
    rw [List.mem_singleton.1 halternative, List.mem_singleton] at hliteral
    rwa [hliteral]
  induction h generalizing positive with
  | all _ ih =>
    rw [alternatives, alternativesOf_eq_map]
    split_ifs
    · exact hproduct fun c hc => ih c hc positive
    · exact hflatten fun c hc => ih c hc positive
  | any _ ih =>
    rw [alternatives, alternativesOf_eq_map]
    split_ifs
    · exact hflatten fun c hc => ih c hc positive
    · exact hproduct fun c hc => ih c hc positive
  | not _ ih => exact ih _
  | @eq k v h => exact hleaf k (.eq v) positive (List.forall_mem_singleton.2 h)
  | @isIn k vs h => exact hleaf k (.isIn vs) positive h
  | defined k => exact hleaf k .defined positive fun _ hvalue => absurd hvalue List.not_mem_nil

end Condition

/-! ### Literals at one key -/

namespace Atom

theorem holds_none (atom : Atom) : atom.holds none = false := by
  cases atom <;> rfl

/-- A value that an atom does not list only makes it hold when it asks for no value. -/
theorem holds_unlisted {atom : Atom} {value : Value} (h : ∀ v ∈ atom.values, (value == v) = false) :
    atom.holds (some value) = atom.isDefined := by
  cases atom with
  | eq expected => exact h expected (List.mem_singleton.2 rfl)
  | isIn values => exact List.any_eq_false.2 fun v hv => by rw [h v hv]; decide
  | defined => rfl

theorem holds_listed {atom : Atom} (hatom : atom.isDefined = false) {value : Value} :
    atom.holds (some value) = true ↔ ∃ v ∈ atom.values, (value == v) = true := by
  cases atom with
  | eq expected => simp [holds, values]
  | isIn values => exact List.any_eq_true
  | defined => cases hatom

theorem holds_of_isDefined {atom : Atom} (hatom : atom.isDefined = true) (value : Value) :
    atom.holds (some value) = true := by
  cases atom with
  | defined => rfl
  | eq => cases hatom
  | isIn => cases hatom

/-- Equal values are told apart by no atom. -/
theorem holds_congr {atom : Atom} {v w : Value} (hv : v.distinctKeys = true)
    (hw : w.distinctKeys = true) (h : (v == w) = true) :
    atom.holds (some v) = atom.holds (some w) := by
  have hsame (u : Value) : (v == u) = (w == u) := by
    rw [beq_eq] at h
    rw [beq_eq, beq_eq, Bool.eq_iff_iff]
    exact ⟨w.beq_trans v u (v.beq_symm w hv hw h), v.beq_trans w u h⟩
  cases atom with
  | eq expected => exact hsame expected
  | isIn values => exact Clauses.any_congr_of_mem fun u _ => hsame u
  | defined => rfl

end Atom

/-- The integer of a number. -/
def integerOf : Value → Option Int
  | .number (.int n) => some n
  | _ => none

theorem integerOf_of_beq {n : Int} {value : Value} (h : (Value.number (.int n) == value) = true) :
    integerOf value = some n := by
  rw [beq_eq] at h
  cases value with
  | number m =>
    cases m with
    | int m =>
      rw [Value.beq, Number.numEq, beq_iff_eq] at h
      rw [h, integerOf]
    | float f => simp [Value.beq, Number.numEq] at h
  | _ => simp [Value.beq] at h

/-- Some value equals none of the listed ones. -/
theorem exists_unlisted (values : List Value) :
    ∃ n : Int, ∀ value ∈ values, (Value.number (.int n) == value) = false := by
  obtain ⟨n, hn⟩ := Infinite.exists_notMem_finset (values.filterMap integerOf).toFinset
  refine ⟨n, fun value hvalue => Bool.eq_false_iff.2 fun hbeq => hn ?_⟩
  exact List.mem_toFinset.2 (List.mem_filterMap.2 ⟨value, hvalue, integerOf_of_beq hbeq⟩)

theorem Literal.admits_iff {literal : Literal} {value : Option Value} :
    literal.admits value = true ↔ literal.atom.holds value = literal.positive := beq_iff_eq

/-- **Literals at one key fit together exactly when some value, or none, meets them all.** -/
theorem fitTogether_iff {literals : List Literal}
    (hproper : ∀ literal ∈ literals, ∀ value ∈ literal.atom.values, value.distinctKeys = true) :
    fitTogether literals = true ↔
      ∃ value : Option Proper, ∀ literal ∈ literals,
        literal.admits (value.map Proper.value) = true := by
  rw [fitTogether, Bool.or_eq_true, Bool.or_eq_true]
  constructor
  · rintro ((habsent | hfresh) | hlisted)
    · refine ⟨none, fun literal hliteral => Literal.admits_iff.2 ?_⟩
      have hnot := List.all_eq_true.1 habsent literal hliteral
      rw [Option.map_none, Atom.holds_none]
      simpa using hnot
    · obtain ⟨n, hn⟩ := exists_unlisted (literals.flatMap fun literal => literal.atom.values)
      refine ⟨some (Proper.int n), fun literal hliteral => Literal.admits_iff.2 ?_⟩
      have hunlisted : ∀ v ∈ literal.atom.values, (Value.number (.int n) == v) = false :=
        fun v hv => hn v (List.mem_flatMap.2 ⟨literal, hliteral, hv⟩)
      exact (Atom.holds_unlisted hunlisted).trans
        (beq_iff_eq.1 (List.all_eq_true.1 hfresh literal hliteral))
    · obtain ⟨value, hvalue, hall⟩ := List.any_eq_true.1 hlisted
      obtain ⟨source, hsource, hmem⟩ := List.mem_flatMap.1 hvalue
      split_ifs at hmem with hpositive
      · exact ⟨some ⟨value, hproper source hsource value hmem⟩, List.all_eq_true.1 hall⟩
      · cases hmem
  -- a value that meets a literal with listed values equals one of these, and any other value is told
  -- apart from a fresh one by no literal
  · rintro ⟨_ | value, hall⟩
    · refine Or.inl (Or.inl (List.all_eq_true.2 fun literal hliteral => ?_))
      have hnone := Literal.admits_iff.1 (hall literal hliteral)
      rw [Option.map_none, Atom.holds_none] at hnone
      rw [← hnone]
      rfl
    by_cases hlisted : ∃ literal ∈ literals, literal.positive = true ∧ literal.atom.isDefined = false
    · obtain ⟨source, hsource, hpositive, hdefined⟩ := hlisted
      have hholds := Literal.admits_iff.1 (hall source hsource)
      rw [hpositive] at hholds
      obtain ⟨v, hv, hbeq⟩ := (Atom.holds_listed hdefined).1 hholds
      refine Or.inr (List.any_eq_true.2 ⟨v, List.mem_flatMap.2 ⟨source, hsource, ?_⟩,
        List.all_eq_true.2 fun literal hliteral => Literal.admits_iff.2 ?_⟩)
      · rwa [if_pos hpositive]
      · rw [← Atom.holds_congr value.distinct (hproper source hsource v hv) hbeq]
        exact Literal.admits_iff.1 (hall literal hliteral)
    · refine Or.inl (Or.inr (List.all_eq_true.2 fun literal hliteral => beq_iff_eq.2 ?_))
      have hholds := Literal.admits_iff.1 (hall literal hliteral)
      cases hdefined : literal.atom.isDefined with
      | true => rw [← hholds]; exact (Atom.holds_of_isDefined hdefined _).symm
      | false =>
        cases hpositive : literal.positive with
        | false => rfl
        | true => exact absurd ⟨literal, hliteral, hpositive, hdefined⟩ hlisted

/-! ### Alternatives without a clash -/

theorem mem_literalsAt {key : String} {alternative : List Literal} {literal : Literal} :
    literal ∈ literalsAt key alternative ↔ literal ∈ alternative ∧ literal.key = key := by
  rw [literalsAt, List.mem_filter, beq_iff_eq]

/-- **An alternative is free of clashes exactly when it holds under some assignment.** -/
theorem clashFree_iff {environment : String} {alternative : List Literal}
    (hproper : ∀ literal ∈ alternative, ∀ value ∈ literal.atom.values, value.distinctKeys = true) :
    clashFree environment alternative = true ↔
      ∃ env : String → Option Proper, env "environment" = some (Proper.string environment) ∧
        ∀ literal ∈ alternative, literal.admits ((env literal.key).map Proper.value) = true := by
  have hat (key : String) : ∀ literal ∈ literalsAt key alternative,
      ∀ value ∈ literal.atom.values, value.distinctKeys = true :=
    fun literal hliteral => hproper literal (mem_literalsAt.1 hliteral).1
  rw [clashFree, Bool.and_eq_true, List.all_eq_true, List.all_eq_true]
  constructor
  -- literals at different keys are independent
  · rintro ⟨henvironment, hother⟩
    have hkey : ∀ key, ∃ value : Option Proper,
        (key = "environment" → value = some (Proper.string environment)) ∧
          ∀ literal ∈ alternative, literal.key = key →
            literal.admits (value.map Proper.value) = true := by
      intro key
      by_cases heq : key = "environment"
      · subst heq
        exact ⟨some (Proper.string environment), fun _ => rfl, fun literal hliteral hk =>
          henvironment literal (mem_literalsAt.2 ⟨hliteral, hk⟩)⟩
      by_cases hsome : ∃ literal ∈ alternative, literal.key = key
      · obtain ⟨literal, hliteral, hk⟩ := hsome
        have hfit := (Bool.or_eq_true _ _ ▸ hother literal hliteral).resolve_left
          (by rwa [hk, beq_iff_eq])
        rw [hk] at hfit
        obtain ⟨value, hvalue⟩ := (fitTogether_iff (hat key)).1 hfit
        exact ⟨value, fun h => absurd h heq, fun literal hliteral hk =>
          hvalue literal (mem_literalsAt.2 ⟨hliteral, hk⟩)⟩
      · exact ⟨none, fun h => absurd h heq, fun literal hliteral hk =>
          absurd ⟨literal, hliteral, hk⟩ hsome⟩
    obtain ⟨env, henv, hadmits⟩ := (exists_assignment_iff Literal.key _ _).2 hkey
    exact ⟨env, henv _ rfl, hadmits⟩
  · rintro ⟨env, henvironment, hadmits⟩
    refine ⟨fun literal hliteral => ?_, fun literal hliteral => ?_⟩
    · obtain ⟨hmem, hk⟩ := mem_literalsAt.1 hliteral
      have hholds := hadmits literal hmem
      rwa [hk, henvironment] at hholds
    · rw [Bool.or_eq_true]
      refine Or.inr ((fitTogether_iff (hat _)).2 ⟨env literal.key, fun other hother => ?_⟩)
      obtain ⟨hmem, hk⟩ := mem_literalsAt.1 hother
      exact hk ▸ hadmits other hmem

theorem satisfiable_iff (environment : String) (condition : JsonCondition) :
    Satisfiable environment condition.condition ↔
      ∃ alternative ∈ condition.condition.alternatives true,
        clashFree environment alternative = true := by
  have hmeets (env : String → Option Proper) :
      condition.condition.holds (fun key => (env key).map Proper.value) = true ↔
        ∃ alternative ∈ condition.condition.alternatives true, ∀ literal ∈ alternative,
          literal.admits ((env literal.key).map Proper.value) = true := by
    have h := Condition.meets_alternatives (fun key => (env key).map Proper.value)
      condition.condition true
    rw [beq_true] at h
    rw [← h, meets_iff]
  have hover := Condition.alternatives_over condition.proper true
  simp only [Satisfiable, hmeets]
  constructor
  · rintro ⟨env, henvironment, alternative, hmem, hadmits⟩
    exact ⟨alternative, hmem, (clashFree_iff (hover alternative hmem)).2 ⟨env, henvironment, hadmits⟩⟩
  · rintro ⟨alternative, hmem, hfree⟩
    obtain ⟨env, henvironment, hadmits⟩ := (clashFree_iff (hover alternative hmem)).1 hfree
    exact ⟨env, henvironment, alternative, hmem, hadmits⟩

/-! ### What is accepted -/

namespace Condition

theorem anyAllowsEnvironment_iff {environment : String} {conditions : List Condition} :
    anyAllowsEnvironment environment conditions = true ↔ ∃ c ∈ conditions,
      c.hasEnvironmentPredicate = true ∧ c.allowsEnvironment environment = true := by
  induction conditions with
  | nil => simp [anyAllowsEnvironment]
  | cons c conditions ih => simp [anyAllowsEnvironment, ih]

theorem anyHasEnvironmentPredicate_iff {conditions : List Condition} :
    anyHasEnvironmentPredicate conditions = true ↔
      ∃ c ∈ conditions, c.hasEnvironmentPredicate = true := by
  induction conditions with
  | nil => simp [anyHasEnvironmentPredicate]
  | cons c conditions ih => simp [anyHasEnvironmentPredicate, ih]

/-- A predicate inside of a condition is found from outside. -/
theorem hasEnvironmentPredicate_of_leaf {condition leaf : Condition}
    (hleaf : leaf ∈ condition.openLeaves) (h : leaf.hasEnvironmentPredicate = true) :
    condition.hasEnvironmentPredicate = true := by
  induction condition with
  | all conditions ih =>
    rw [openLeaves, openLeavesOf_eq] at hleaf
    obtain ⟨c, hc, hmem⟩ := List.mem_flatMap.1 hleaf
    exact anyHasEnvironmentPredicate_iff.2 ⟨c, hc, ih c hc hmem⟩
  | any conditions ih =>
    rw [openLeaves, openLeavesOf_eq] at hleaf
    obtain ⟨c, hc, hmem⟩ := List.mem_flatMap.1 hleaf
    exact anyHasEnvironmentPredicate_iff.2 ⟨c, hc, ih c hc hmem⟩
  | not condition ih => cases hleaf
  | eq key value => exact List.mem_singleton.1 hleaf ▸ h
  | isIn key values => exact List.mem_singleton.1 hleaf ▸ h
  | defined key => exact List.mem_singleton.1 hleaf ▸ h

theorem openLeaves_of_names {environment : String} {condition : Condition}
    (h : condition.Names environment) : condition.openLeaves = [condition] := by
  cases condition with
  | eq key value => rfl
  | isIn key values => rfl
  | all conditions => exact h.elim
  | any conditions => exact h.elim
  | not condition => exact h.elim
  | defined key => exact h.elim

theorem stringOf_iff {value : Value} {text : String} :
    (stringOf value == some text) = true ↔ value = .string text := by
  rw [beq_iff_eq]
  cases value <;> simp [stringOf]

/-- `all` and `any` are accepted alike, for a predicate in one of their operands. -/
theorem anyAllowsEnvironment_iff_leaf {environment : String} {conditions : List Condition}
    (ih : ∀ c ∈ conditions, c.allowsEnvironment environment = true ↔ c.NamedOpenly environment) :
    anyAllowsEnvironment environment conditions = true ↔
      ∃ leaf ∈ conditions.flatMap openLeaves,
        leaf.hasEnvironmentPredicate = true ∧ leaf.Names environment := by
  rw [anyAllowsEnvironment_iff]
  constructor
  · rintro ⟨c, hc, hpredicate, hallows⟩
    rcases (ih c hc).1 hallows with hnames | ⟨leaf, hleaf, hfound⟩
    · refine ⟨c, List.mem_flatMap.2 ⟨c, hc, ?_⟩, hpredicate, hnames⟩
      rw [openLeaves_of_names hnames]
      exact List.mem_singleton.2 rfl
    · exact ⟨leaf, List.mem_flatMap.2 ⟨c, hc, hleaf⟩, hfound⟩
  · rintro ⟨leaf, hleaf, hpredicate, hnames⟩
    obtain ⟨c, hc, hmem⟩ := List.mem_flatMap.1 hleaf
    exact ⟨c, hc, hasEnvironmentPredicate_of_leaf hmem hpredicate,
      (ih c hc).2 (Or.inr ⟨leaf, hmem, hpredicate, hnames⟩)⟩

/-- **What is accepted: a condition with an open predicate that names the environment.** -/
theorem allowsEnvironment_iff (environment : String) (condition : Condition) :
    condition.allowsEnvironment environment = true ↔ condition.NamedOpenly environment := by
  have hleaf {leaf : Condition} (hopen : leaf.openLeaves = [leaf])
      (hallows : leaf.allowsEnvironment environment = true ↔ leaf.Names environment) :
      leaf.allowsEnvironment environment = true ↔ leaf.NamedOpenly environment := by
    rw [hallows, NamedOpenly, hopen]
    refine ⟨Or.inl, fun h => h.elim id ?_⟩
    rintro ⟨other, hother, -, hnames⟩
    exact List.mem_singleton.1 hother ▸ hnames
  induction condition with
  | all conditions ih =>
    rw [allowsEnvironment, anyAllowsEnvironment_iff_leaf ih, NamedOpenly, openLeaves, openLeavesOf_eq]
    exact (or_iff_right id).symm
  | any conditions ih =>
    rw [allowsEnvironment, anyAllowsEnvironment_iff_leaf ih, NamedOpenly, openLeaves, openLeavesOf_eq]
    exact (or_iff_right id).symm
  | not condition ih =>
    refine iff_of_false (by rw [allowsEnvironment]; decide) ?_
    rintro (hnames | ⟨leaf, hmem, -⟩)
    · exact hnames
    · cases hmem
  | eq key value =>
    refine hleaf rfl ?_
    rw [allowsEnvironment, Bool.and_eq_true, beq_iff_eq, stringOf_iff, Names]
  | isIn key values =>
    refine hleaf rfl ?_
    rw [allowsEnvironment, Bool.and_eq_true, beq_iff_eq, List.any_eq_true, Names]
    simp only [stringOf_iff, exists_eq_right]
  | defined key => exact hleaf rfl (iff_of_false (by rw [allowsEnvironment]; decide) id)

end Condition

/-- **What is accepted can hold in the environment exactly when no open predicate names the environment
or some alternative of the condition is free of clashes.** -/
theorem allowsEnvironment_satisfiable_iff (environment : String) (condition : JsonCondition) :
    (condition.condition.allowsEnvironment environment = true →
        Satisfiable environment condition.condition) ↔
      ¬ condition.condition.NamedOpenly environment ∨
        ∃ alternative ∈ condition.condition.alternatives true,
          clashFree environment alternative = true := by
  rw [Condition.allowsEnvironment_iff, satisfiable_iff, imp_iff_not_or]

/-! ### A conjunction of two environments -/

namespace EnvironmentSample

/-- The edge is of the server and of the client at once. -/
def serverAndClient : Condition :=
  .all [.eq "environment" (.string "server"), .eq "environment" (.string "client")]

theorem conjunction_is_accepted :
    serverAndClient.allowsEnvironment "server" = true ∧ ¬ Satisfiable "server" serverAndClient := by
  refine ⟨by decide +kernel, ?_⟩
  rintro ⟨env, henvironment, hholds⟩
  rw [serverAndClient, Condition.holds_all, List.all_eq_true] at hholds
  have hclient := hholds (.eq "environment" (.string "client"))
    (List.mem_cons_of_mem _ List.mem_cons_self)
  rw [Condition.holds, henvironment] at hclient
  revert hclient
  decide +kernel

end EnvironmentSample

end Protocol
