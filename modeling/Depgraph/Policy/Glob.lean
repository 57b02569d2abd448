import Depgraph.Library.Worklist
import Depgraph.Policy.Work

/-!
# Patterns of selectors and profile filters

`policy.rs` and `policy_engine.rs`: exact, prefix and glob patterns. A glob is matched without
recursion, by a search over pairs of positions in the pattern and in the value.

* `Describes` says what a glob means: `*` stands for a run of characters without a slash, `**` for
  any run, and a slash after `**` may be absent.
* `settles_globMatches`: the search ends and decides what the glob means.
-/

namespace Policy

open Relation Charged Drain Worklist

/-! ### The meaning of a glob -/

/-- The texts that a glob describes. -/
def Describes : List Char → List Char → Prop
  | [], value => value = []
  | '*' :: '*' :: '/' :: pattern, value =>
    ∃ run rest, value = run ++ rest ∧ (Describes ('/' :: pattern) rest ∨ Describes pattern rest)
  | '*' :: '*' :: pattern, value => ∃ run rest, value = run ++ rest ∧ Describes pattern rest
  | '*' :: pattern, value =>
    ∃ run rest, value = run ++ rest ∧ '/' ∉ run ∧ Describes pattern rest
  | c :: pattern, value =>
    ∃ d rest, value = d :: rest ∧ (c = '?' ∧ d ≠ '/' ∨ c = d) ∧ Describes pattern rest
termination_by pattern => pattern.length

/-- The first character of a run is in it, or there is none. -/
theorem run_iff {P : List Char → Prop} {Q : Char → Prop} {value : List Char} :
    (∃ run rest, value = run ++ rest ∧ (∀ d ∈ run, Q d) ∧ P rest) ↔
      P value ∨ ∃ d rest, value = d :: rest ∧ Q d ∧
        ∃ run rest', rest = run ++ rest' ∧ (∀ d ∈ run, Q d) ∧ P rest' := by
  constructor
  · rintro ⟨run, rest, rfl, hrun, hrest⟩
    cases run with
    | nil => exact Or.inl hrest
    | cons d run =>
      obtain ⟨hd, hrun⟩ := List.forall_mem_cons.1 hrun
      exact Or.inr ⟨d, run ++ rest, rfl, hd, run, rest, rfl, hrun, hrest⟩
  · rintro (h | ⟨d, _, rfl, hd, run, rest, rfl, hrun, hrest⟩)
    · exact ⟨[], value, rfl, by simp, h⟩
    · exact ⟨d :: run, rest, rfl, List.forall_mem_cons.2 ⟨hd, hrun⟩, hrest⟩

/-! ### The search -/

/-- The pairs of positions that a pair is followed by, in the order in which they are pushed. -/
def globNext (pattern value : List Char) : Nat × Nat → List (Nat × Nat)
  | (patternIndex, valueIndex) =>
    match pattern[patternIndex]? with
    | none => []
    | some '*' =>
      let double := pattern[patternIndex + 1]? == some '*'
      let nextPattern := patternIndex + double.toNat + 1
      (nextPattern, valueIndex) ::
        ((if double && pattern[nextPattern]? == some '/' then [(nextPattern + 1, valueIndex)]
          else []) ++
        match value[valueIndex]? with
        | some d => if double || d != '/' then [(patternIndex, valueIndex + 1)] else []
        | none => [])
    | some c =>
      match value[valueIndex]? with
      | some d =>
        if c == '?' && d != '/' || c == d then [(patternIndex + 1, valueIndex + 1)] else []
      | none => []

/-- A turn of the loop, on a pair of positions that has not been seen. -/
def globVisit (pattern value : List Char) : Visit (Nat × Nat) String := fun state =>
  if state.1 = pattern.length then
    if state.2 = value.length then return none else return some []
  else do
    let next := globNext pattern value state
    steps next.length
    return some next.reverse

def globMatchesBounded (fuel : Nat) (pattern value : String) : PolicyWork Bool := do
  steps pattern.toList.length
  steps value.toList.length
  loop (globVisit pattern.toList value.toList) fuel [(0, 0)] []

/-- What is left of the pattern describes what is left of the value. -/
def Accepts (pattern value : List Char) (state : Nat × Nat) : Prop :=
  Describes (pattern.drop state.1) (value.drop state.2)

theorem describes_star {pattern value : List Char} (h : ∀ rest, pattern ≠ '*' :: rest) :
    Describes ('*' :: pattern) value ↔
      ∃ run rest, value = run ++ rest ∧ (∀ d ∈ run, d ≠ '/') ∧ Describes pattern rest := by
  have hrun (run : List Char) : '/' ∉ run ↔ ∀ d ∈ run, d ≠ '/' :=
    ⟨fun h d hd heq => h (heq ▸ hd), fun h hmem => h _ hmem rfl⟩
  rw [Describes]
  · simp only [hrun]
  · rintro rest rfl
    exact h _ rfl
  · rintro rest rfl
    exact h _ rfl

theorem describes_double {pattern value : List Char} :
    Describes ('*' :: '*' :: pattern) value ↔
      ∃ run rest, value = run ++ rest ∧ (∀ d ∈ run, True) ∧
        (Describes pattern rest ∨ ∃ after, pattern = '/' :: after ∧ Describes after rest) := by
  by_cases h : ∃ after, pattern = '/' :: after
  · obtain ⟨after, rfl⟩ := h
    rw [Describes]
    simp
  · rw [Describes]
    · have hnone (rest : List Char) : ¬ ∃ after, pattern = '/' :: after ∧ Describes after rest :=
        fun ⟨after, heq, _⟩ => h ⟨after, heq⟩
      simp [hnone]
    · rintro after rfl
      exact h ⟨after, rfl⟩

theorem describes_other {c : Char} {pattern value : List Char} (h : c ≠ '*') :
    Describes (c :: pattern) value ↔
      ∃ d rest, value = d :: rest ∧ (c = '?' ∧ d ≠ '/' ∨ c = d) ∧ Describes pattern rest := by
  rw [Describes]
  all_goals
    intros
    simp_all

theorem drop_of_some {l : List Char} {i : Nat} {c : Char} (h : l[i]? = some c) :
    l.drop i = c :: l.drop (i + 1) := by
  obtain ⟨hi, rfl⟩ := List.getElem?_eq_some_iff.1 h
  exact List.drop_eq_getElem_cons hi

theorem drop_of_none {l : List Char} {i : Nat} (h : l[i]? = none) : l.drop i = [] :=
  List.drop_eq_nil_of_le (List.getElem?_eq_none_iff.1 h)

/-- A run of characters that is followed by what the rest of the pattern describes, one character at
a time. -/
theorem run_step {P : List Char → Prop} {Q : Char → Prop} {value : List Char} {i : Nat} :
    (∃ run rest, value.drop i = run ++ rest ∧ (∀ d ∈ run, Q d) ∧ P rest) ↔
      P (value.drop i) ∨ ∃ d, value[i]? = some d ∧ Q d ∧
        ∃ run rest, value.drop (i + 1) = run ++ rest ∧ (∀ d ∈ run, Q d) ∧ P rest := by
  rw [run_iff]
  refine or_congr_right ?_
  cases h : value[i]? with
  | none => simp [drop_of_none h]
  | some d =>
    constructor
    · rintro ⟨d', rest, heq, hd, hrest⟩
      rw [drop_of_some h] at heq
      obtain ⟨rfl, rfl⟩ := List.cons.inj heq
      exact ⟨d, rfl, hd, hrest⟩
    · rintro ⟨d', hd', hd, hrest⟩
      obtain rfl := Option.some.inj hd'
      exact ⟨d, _, drop_of_some h, hd, hrest⟩

/-- **What a pair of positions accepts is accepted by a pair that follows it, unless both are at
their ends.** -/
theorem accepts_iff {pattern value : List Char} {state : Nat × Nat}
    (hp : state.1 ≤ pattern.length) (hv : state.2 ≤ value.length) :
    Accepts pattern value state ↔
      state = (pattern.length, value.length) ∨
        ∃ t ∈ globNext pattern value state, Accepts pattern value t := by
  obtain ⟨i, j⟩ := state
  have hend (h : i < pattern.length) : (i, j) ≠ (pattern.length, value.length) :=
    fun heq => absurd (Prod.mk.inj heq).1 (Nat.ne_of_lt h)
  unfold Accepts globNext
  dsimp only at hp hv ⊢
  split
  · rename_i h
    have hi : i = pattern.length := le_antisymm hp (List.getElem?_eq_none_iff.1 h)
    rw [drop_of_none h, Describes, hi, List.drop_eq_nil_iff, Prod.mk.injEq]
    simp only [true_and, List.not_mem_nil, false_and, exists_false, or_false]
    omega
  · rename_i h
    rw [or_iff_right (hend (List.getElem?_eq_some_iff.1 h).1), drop_of_some h]
    by_cases hdouble : pattern[i + 1]? = some '*'
    · have hagain : Describes (pattern.drop i) (value.drop (j + 1)) ↔
          ∃ run rest, value.drop (j + 1) = run ++ rest ∧ (∀ d ∈ run, True) ∧
            (Describes (pattern.drop (i + 1 + 1)) rest ∨
              ∃ after, pattern.drop (i + 1 + 1) = '/' :: after ∧ Describes after rest) := by
        rw [drop_of_some h, drop_of_some hdouble, describes_double]
      have hslash (rest : List Char) :
          (∃ after, pattern.drop (i + 1 + 1) = '/' :: after ∧ Describes after rest) ↔
            pattern[i + 1 + 1]? = some '/' ∧ Describes (pattern.drop (i + 1 + 1 + 1)) rest := by
        constructor
        · rintro ⟨after, heq, hafter⟩
          have hhead : pattern[i + 1 + 1]? = some '/' := by
            rw [← List.head?_drop, heq]
            rfl
          rw [drop_of_some hhead] at heq
          exact ⟨hhead, (List.cons.inj heq).2 ▸ hafter⟩
        · rintro ⟨hhead, hafter⟩
          exact ⟨_, drop_of_some hhead, hafter⟩
      rw [drop_of_some hdouble, describes_double, run_step, ← hagain, hslash]
      simp only [hdouble, beq_self_eq_true, Bool.toNat_true, Bool.true_and, Bool.true_or, if_true,
        List.exists_mem_cons_iff, List.mem_append, or_and_right, exists_or, or_assoc]
      refine or_congr_right (or_congr ?_ ?_)
      · by_cases h : pattern[i + 1 + 1]? = some '/' <;> simp [h]
      · cases value[j]? <;> simp
    · have hnext : ∀ rest, pattern.drop (i + 1) ≠ '*' :: rest := by
        intro rest heq
        rw [← List.head?_drop, heq] at hdouble
        exact hdouble rfl
      have hagain : Describes (pattern.drop i) (value.drop (j + 1)) ↔
          ∃ run rest, value.drop (j + 1) = run ++ rest ∧ (∀ d ∈ run, d ≠ '/') ∧
            Describes (pattern.drop (i + 1)) rest := by
        rw [drop_of_some h, describes_star hnext]
      have hfalse : (pattern[i + 1]? == some '*') = false := beq_eq_false_iff_ne.2 hdouble
      rw [describes_star hnext, run_step, ← hagain]
      simp only [hfalse, Bool.toNat_false, Bool.false_and, Bool.false_or, Bool.false_eq_true,
        if_false, List.nil_append, Nat.add_zero, List.exists_mem_cons_iff]
      refine or_congr_right ?_
      cases value[j]? with
      | none => simp
      | some d => by_cases hd : d = '/' <;> simp [hd]
  · rename_i c hc h
    rw [or_iff_right (hend (List.getElem?_eq_some_iff.1 h).1), drop_of_some h, describes_other hc]
    cases hj : value[j]? with
    | none => simp [drop_of_none hj]
    | some d =>
      rw [drop_of_some hj]
      simp only [List.cons.injEq]
      constructor
      · rintro ⟨_, _, ⟨rfl, rfl⟩, hd, hrest⟩
        have hcond : (c == '?' && d != '/' || c == d) = true := by simpa using hd
        rw [if_pos hcond]
        exact ⟨_, List.mem_singleton_self _, hrest⟩
      · rintro ⟨t, ht, hrest⟩
        split_ifs at ht with hcond
        · obtain rfl := List.mem_singleton.1 ht
          exact ⟨d, _, ⟨rfl, rfl⟩, by simpa using hcond, hrest⟩
        · cases ht

/-- The positions up to the ends. -/
def positions (pattern value : List Char) : List (Nat × Nat) :=
  (List.range (pattern.length + 1)).product (List.range (value.length + 1))

theorem mem_positions {pattern value : List Char} {state : Nat × Nat} :
    state ∈ positions pattern value ↔ state.1 ≤ pattern.length ∧ state.2 ≤ value.length := by
  obtain ⟨i, j⟩ := state
  rw [positions, List.pair_mem_product, List.mem_range, List.mem_range, Nat.lt_succ_iff,
    Nat.lt_succ_iff]

/-- A pair that follows another is further on. -/
theorem globNext_lt {pattern value : List Char} {state t : Nat × Nat}
    (ht : t ∈ globNext pattern value state) :
    state.1 + state.2 < t.1 + t.2 ∧ t.1 ≤ pattern.length ∧
      (t.2 = state.2 ∨ t.2 ≤ value.length) := by
  obtain ⟨i, j⟩ := state
  have hlt {i : Nat} {l : List Char} {c : Char} (h : l[i]? = some c) : i < l.length :=
    (List.getElem?_eq_some_iff.1 h).1
  unfold globNext at ht
  dsimp only at ht ⊢
  split at ht
  · cases ht
  · rename_i h
    have hi := hlt h
    by_cases hdouble : pattern[i + 1]? = some '*'
    · have hi' := hlt hdouble
      simp only [hdouble, beq_self_eq_true, Bool.toNat_true, Bool.true_and, Bool.true_or, if_true,
        List.mem_cons, List.mem_append] at ht
      rcases ht with rfl | ht | ht
      · exact ⟨by omega, by omega, Or.inl rfl⟩
      · split_ifs at ht with hslash
        · have := hlt (beq_iff_eq.1 hslash)
          obtain rfl := List.mem_singleton.1 ht
          exact ⟨by omega, by omega, Or.inl rfl⟩
        · cases ht
      · split at ht
        · rename_i hj
          have := hlt hj
          obtain rfl := List.mem_singleton.1 ht
          exact ⟨by omega, by omega, Or.inr (by omega)⟩
        · cases ht
    · have hfalse : (pattern[i + 1]? == some '*') = false := beq_eq_false_iff_ne.2 hdouble
      simp only [hfalse, Bool.toNat_false, Bool.false_and, Bool.false_or, Bool.false_eq_true,
        if_false, List.nil_append, Nat.add_zero, List.mem_cons] at ht
      rcases ht with rfl | ht
      · exact ⟨by omega, by omega, Or.inl rfl⟩
      · split at ht
        · rename_i hj
          have := hlt hj
          split_ifs at ht
          · obtain rfl := List.mem_singleton.1 ht
            exact ⟨by omega, by omega, Or.inr (by omega)⟩
          · cases ht
        · cases ht
  · rename_i h
    have hi := hlt h
    split at ht
    · rename_i hj
      have := hlt hj
      split_ifs at ht
      · obtain rfl := List.mem_singleton.1 ht
        exact ⟨by omega, by omega, Or.inr (by omega)⟩
      · cases ht
    · cases ht

theorem mem_positions_of_next {pattern value : List Char} {state t : Nat × Nat}
    (h : state ∈ positions pattern value) (ht : t ∈ globNext pattern value state) :
    t ∈ positions pattern value := by
  rw [mem_positions] at h ⊢
  have hnext := globNext_lt ht
  omega

/-- **A pair of positions accepts exactly if the ends can be reached from it.** -/
theorem accepts_iff_reaches {pattern value : List Char} {state : Nat × Nat}
    (h : state ∈ positions pattern value) :
    Accepts pattern value state ↔
      ReflTransGen (Follows (globNext pattern value)) state (pattern.length, value.length) := by
  generalize hleft : pattern.length + value.length - (state.1 + state.2) = left
  induction left using Nat.strong_induction_on generalizing state with
  | _ left ih =>
    have hbounds := mem_positions.1 h
    rw [accepts_iff hbounds.1 hbounds.2, ReflTransGen.cases_head_iff]
    refine or_congr Iff.rfl (exists_congr fun t => and_congr_right fun ht => ?_)
    -- a step leads further, so that less is left
    have hinside := mem_positions_of_next h ht
    have hnext := (globNext_lt ht).1
    have hbounds' := mem_positions.1 hinside
    exact ih _ (by omega) hinside rfl

/-- **The search ends and decides what the glob means.** -/
theorem settles_globMatches (pattern value : String) :
    ∃ found, Settles (fun fuel => globMatchesBounded fuel pattern value) (.ok found) ∧
      (found = true ↔ Describes pattern.toList value.toList) := by
  have hstart : ((0, 0) : Nat × Nat) ∈ positions pattern.toList value.toList :=
    mem_positions.2 ⟨Nat.zero_le _, Nat.zero_le _⟩
  have hnodup : (positions pattern.toList value.toList).Nodup :=
    List.Nodup.product List.nodup_range List.nodup_range
  have hvisit (state : Nat × Nat) (_ : state ∈ positions pattern.toList value.toList) :
      Charges (globVisit pattern.toList value.toList state)
        (.ok (if state = (pattern.toList.length, value.toList.length) then none
          else some (globNext pattern.toList value.toList state).reverse)) := by
    obtain ⟨i, j⟩ := state
    unfold globVisit
    by_cases hi : i = pattern.toList.length
    -- at the end of the pattern the search is over, or the pair leads nowhere
    · have hnone : globNext pattern.toList value.toList (i, j) = [] := by
        have hend : pattern.toList[i]? = none := List.getElem?_eq_none (by omega)
        simp only [globNext, hend]
      rw [if_pos hi, hnone, List.reverse_nil]
      by_cases hj : j = value.toList.length
      · rw [if_pos hj, if_pos (by rw [hi, hj])]
        exact Charges.pure none
      · rw [if_neg hj, if_neg fun heq => hj (Prod.mk.inj heq).2]
        exact Charges.pure (some [])
    · rw [if_neg hi, if_neg fun heq => hi (Prod.mk.inj heq).1]
      exact (Charges.steps _).bind (Charges.pure _)
  obtain ⟨found, hsettles, hfound⟩ := Worklist.settles hnodup
    (fun state h t => mem_positions_of_next h) (fun state t => List.mem_reverse) hvisit hstart
  refine ⟨found, ?_, ?_⟩
  · exact (Settles.of_charges (Charges.steps _)).bind
      ((Settles.of_charges (Charges.steps _)).bind hsettles)
  · rw [hfound, exists_eq_right, ← accepts_iff_reaches hstart]
    rfl

/-! ### Patterns -/

/-- `PolicyMatchKind`; `startsWith` is `Prefix`. -/
inductive PolicyMatchKind where
  | exact
  | startsWith
  | glob

structure PolicyPattern where
  matchKind : PolicyMatchKind
  value : String

structure PolicyProfileFilter where
  included : List PolicyPattern
  excluded : List PolicyPattern

/-- The UTF-8 bytes of a text. -/
def bytesOf (s : String) : List UInt8 := s.toByteArray.data.toList

/-- The loop of `literal_prefix_matches_bounded`. -/
def literalMatches : List (UInt8 × UInt8) → PolicyWork Bool
  | [] => return true
  | (expected, actual) :: rest => do
    step
    if expected != actual then
      return false
    literalMatches rest

def literalPrefixMatchesBounded (pattern value : String) : PolicyWork Bool :=
  literalMatches ((bytesOf pattern).zip (bytesOf value))

def patternMatchesBounded (fuel : Nat) (pattern : PolicyPattern) (value : String) :
    PolicyWork Bool := do
  step
  match pattern.matchKind with
  | .exact =>
    if value.utf8ByteSize ≠ pattern.value.utf8ByteSize then return false
    else literalPrefixMatchesBounded pattern.value value
  | .startsWith =>
    if value.utf8ByteSize < pattern.value.utf8ByteSize then return false
    else literalPrefixMatchesBounded pattern.value value
  | .glob => globMatchesBounded fuel pattern.value value

def patternsMatchBounded (fuel : Nat) (value : String) : List PolicyPattern → PolicyWork Bool
  | [] => return false
  | pattern :: patterns => do
    if ← patternMatchesBounded fuel pattern value then
      return true
    patternsMatchBounded fuel value patterns

/-- The profile is included: by a pattern, or because the filter has none. -/
def profileIncludedBounded (fuel : Nat) (filter : PolicyProfileFilter) (profileId : String) :
    PolicyWork Bool :=
  if filter.included.isEmpty then return true
  else patternsMatchBounded fuel profileId filter.included

def profileMatchesBounded (fuel : Nat) (filter : PolicyProfileFilter) (profileId : String) :
    PolicyWork Bool := do
  let included ← profileIncludedBounded fuel filter profileId
  if !included then
    return false
  return !(← patternsMatchBounded fuel profileId filter.excluded)

/-- What a pattern means. -/
def PolicyPattern.Matches (pattern : PolicyPattern) (value : String) : Prop :=
  match pattern.matchKind with
  | .exact => value = pattern.value
  | .startsWith => bytesOf pattern.value <+: bytesOf value
  | .glob => Describes pattern.value.toList value.toList

/-- What a filter means: a profile is included by a pattern, or because there is none, and it is not
excluded. -/
def PolicyProfileFilter.Admits (filter : PolicyProfileFilter) (profileId : String) : Prop :=
  (filter.included = [] ∨ ∃ pattern ∈ filter.included, pattern.Matches profileId) ∧
    ¬ ∃ pattern ∈ filter.excluded, pattern.Matches profileId

theorem bytesOf_injective {s t : String} (h : bytesOf s = bytesOf t) : s = t := by
  refine String.toByteArray_inj.1 ?_
  exact ByteArray.ext (Array.toList_inj.1 h)

/-- The loop compares what both lists have. -/
theorem charges_literalMatches (expected actual : List UInt8)
    (h : expected.length ≤ actual.length) : ∃ found,
      Charges (literalMatches (expected.zip actual)) (.ok found) ∧
        (found = true ↔ expected <+: actual) := by
  induction expected generalizing actual with
  | nil => exact ⟨true, Charges.pure true, by simp⟩
  | cons byte expected ih =>
    cases actual with
    | nil => simp at h
    | cons byte' actual =>
      obtain ⟨found, hloop, hfound⟩ := ih actual (by simpa using h)
      rw [List.zip_cons_cons]
      by_cases heq : byte = byte'
      · refine ⟨found, Charges.step.bind ?_, ?_⟩
        · rw [if_neg (by simpa using heq)]
          exact hloop
        · rw [hfound, List.cons_prefix_cons, and_iff_right heq]
      · refine ⟨false, Charges.step.bind ?_, ?_⟩
        · rw [if_pos (by simpa using heq)]
          exact Charges.pure false
        · simp [List.cons_prefix_cons, heq]

theorem charges_literalPrefixMatches {pattern value : String}
    (h : pattern.utf8ByteSize ≤ value.utf8ByteSize) : ∃ found,
      Charges (literalPrefixMatchesBounded pattern value) (.ok found) ∧
        (found = true ↔ bytesOf pattern <+: bytesOf value) :=
  charges_literalMatches _ _ h

/-- A pattern is decided by its loops. -/
theorem settles_patternMatches (pattern : PolicyPattern) (value : String) : ∃ found,
    Settles (fun fuel => patternMatchesBounded fuel pattern value) (.ok found) ∧
      (found = true ↔ pattern.Matches value) := by
  obtain ⟨kind, pattern⟩ := pattern
  unfold patternMatchesBounded
  have hcompare {x : PolicyWork Bool} {found : Bool} (h : Charges x (.ok found)) :
      Settles (fun _ => step >>= fun _ => x) (.ok found) :=
    .of_charges (Charges.step.bind h)
  cases kind with
  | exact =>
    by_cases hsize : value.utf8ByteSize = pattern.utf8ByteSize
    · obtain ⟨found, hloop, hfound⟩ := charges_literalPrefixMatches hsize.ge
      refine ⟨found, hcompare ?_, ?_⟩
      · change Charges (if value.utf8ByteSize ≠ pattern.utf8ByteSize then pure false
          else literalPrefixMatchesBounded pattern value) _
        rw [if_neg (not_not.2 hsize)]
        exact hloop
      · have hlength : (bytesOf pattern).length = (bytesOf value).length := hsize.symm
        rw [hfound]
        exact ⟨fun h => (bytesOf_injective (h.eq_of_length hlength)).symm,
          fun h : value = pattern => h ▸ List.prefix_refl _⟩
    · refine ⟨false, hcompare ?_, ?_⟩
      · change Charges (if value.utf8ByteSize ≠ pattern.utf8ByteSize then pure false
          else literalPrefixMatchesBounded pattern value) _
        rw [if_pos hsize]
        exact Charges.pure false
      · simp only [Bool.false_eq_true, false_iff]
        exact fun h : value = pattern => hsize (h ▸ rfl)
  | startsWith =>
    by_cases hsize : value.utf8ByteSize < pattern.utf8ByteSize
    · refine ⟨false, hcompare ?_, ?_⟩
      · change Charges (if value.utf8ByteSize < pattern.utf8ByteSize then pure false
          else literalPrefixMatchesBounded pattern value) _
        rw [if_pos hsize]
        exact Charges.pure false
      · simp only [Bool.false_eq_true, false_iff]
        exact fun h : bytesOf pattern <+: bytesOf value => absurd h.length_le (Nat.not_le.2 hsize)
    · obtain ⟨found, hloop, hfound⟩ := charges_literalPrefixMatches (Nat.not_lt.1 hsize)
      refine ⟨found, hcompare ?_, hfound⟩
      change Charges (if value.utf8ByteSize < pattern.utf8ByteSize then pure false
        else literalPrefixMatchesBounded pattern value) _
      rw [if_neg hsize]
      exact hloop
  | glob =>
    obtain ⟨found, hloop, hfound⟩ := settles_globMatches pattern value
    exact ⟨found, (Settles.of_charges Charges.step).bind hloop, hfound⟩

theorem settles_patternsMatch (patterns : List PolicyPattern) (value : String) : ∃ found,
    Settles (fun fuel => patternsMatchBounded fuel value patterns) (.ok found) ∧
      (found = true ↔ ∃ pattern ∈ patterns, pattern.Matches value) := by
  induction patterns with
  | nil => exact ⟨false, .of_charges (Charges.pure false), by simp⟩
  | cons pattern patterns ih =>
    obtain ⟨first, hfirst, hmatches⟩ := settles_patternMatches pattern value
    obtain ⟨found, hloop, hfound⟩ := ih
    refine ⟨first || found, hfirst.bind ?_, ?_⟩
    · cases first with
      | true => exact .of_charges (Charges.pure true)
      | false => exact hloop
    · rw [Bool.or_eq_true, hmatches, hfound, List.exists_mem_cons_iff]

theorem settles_profileIncluded (filter : PolicyProfileFilter) (profileId : String) :
    ∃ included, Settles (fun fuel => profileIncludedBounded fuel filter profileId) (.ok included) ∧
      (included = true ↔
        filter.included = [] ∨ ∃ pattern ∈ filter.included, pattern.Matches profileId) := by
  unfold profileIncludedBounded
  cases filter.included with
  | nil => exact ⟨true, .of_charges (Charges.pure true), by simp⟩
  | cons pattern patterns =>
    obtain ⟨found, hloop, hfound⟩ := settles_patternsMatch (pattern :: patterns) profileId
    exact ⟨found, hloop, by simpa using hfound⟩

/-- **The loops over the patterns of a filter end and decide which profiles the filter admits.** -/
theorem settles_profileMatches (filter : PolicyProfileFilter) (profileId : String) : ∃ admitted,
    Settles (fun fuel => profileMatchesBounded fuel filter profileId) (.ok admitted) ∧
      (admitted = true ↔ filter.Admits profileId) := by
  obtain ⟨included, hfirst, hincluded⟩ := settles_profileIncluded filter profileId
  obtain ⟨excluded, hsecond, hexcluded⟩ := settles_patternsMatch filter.excluded profileId
  refine ⟨included && !excluded, hfirst.bind ?_, ?_⟩
  · cases included with
    | false => exact .of_charges (Charges.pure false)
    | true => exact hsecond.bind (.of_charges (Charges.pure _))
  · rw [Bool.and_eq_true, hincluded, Bool.not_eq_true', ← Bool.not_eq_true, hexcluded]
    rfl

end Policy
