import Depgraph.Json.Value
import Depgraph.Library.EntryList
import Depgraph.Library.Grouping
import Mathlib.Algebra.BigOperators.Group.List.Basic
import Mathlib.Algebra.Order.BigOperators.Group.List
import Mathlib.Algebra.Ring.Nat

/-!
# Joined coverage of the chunks of a stage

`coalesce_stage_completions` makes one completion event out of the chunks of a profile. The coverage
of the first chunk is updated in place with what the later ones carry, so a chunk that carries no
completeness takes nothing away when it comes later, and everything when it comes first.
-/

namespace Analysis

open Std Fallible OrderedMap Json

/-! ### The program -/

/-- A JSON object by its members, whatever their order. -/
abbrev Members : Type := ExtTreeMap String Value

/-- The counters are `u64`. -/
def counterLimit : Nat := 18446744073709551616

def asU64 : Value → Option Nat
  | .number (.int n) => if 0 ≤ n ∧ n < counterLimit then some n.toNat else none
  | _ => none

def asBool : Value → Option Bool
  | .bool b => some b
  | _ => none

def asStr : Value → Option String
  | .string s => some s
  | _ => none

/-- The strings of an array, as a set. -/
def wordsOf : Value → ExtTreeSet String
  | .array values => .ofList (values.filterMap asStr)
  | _ => ∅

def counter (n : Nat) : Value := .number (.int n)

def words (set : ExtTreeSet String) : Value := .array (set.toList.map .string)

/-- A turn of the loop of `merge_coverage`: what is stored under a key. -/
def mergeValue (key : String) (target : Option Value) : Value → Except String Value
  | .number number => do
    let right ← required (asU64 (.number number)) "coverage counter is not unsigned"
    if key = "profiles" then pure (counter (max ((target.bind asU64).getD 0) right))
    else do
      check ((target.bind asU64).getD 0 + right < counterLimit) "coverage counter overflow"
      pure (counter ((target.bind asU64).getD 0 + right))
  | .bool value => pure (.bool ((target.bind asBool).getD false || value))
  | .array values =>
    if key = "completeness" then pure (words (target.elim ∅ wordsOf ∩ wordsOf (.array values)))
    else pure (words (target.elim ∅ wordsOf ∪ wordsOf (.array values)))
  | _ => .error ("unexpected completion coverage field " ++ key)

def mergeField (target : Members) (field : String × Value) : Except String Members := do
  let value ← mergeValue field.1 target[field.1]? field.2
  pure (target.insert field.1 value)

/-- `merge_coverage`, of coverages that are objects. -/
def mergeMembers (target incoming : Members) : Except String Members :=
  incoming.toList.foldlM mergeField target

/-- A completion event: its members `event` and `profile_id` where they are strings, its `coverage`
where it is an object, and the rest. -/
structure StageCompletion where
  event : Option String
  profileId : Option String
  coverage : Option Members
  others : Members

def mergeCoverage (target incoming : Option Members) : Except String Members := do
  let target ← required target "completion coverage is not an object"
  let incoming ← required incoming "completion coverage is not an object"
  mergeMembers target incoming

abbrev StageKey : Type := String ×ₗ String

def StageCompletion.key (completion : StageCompletion) : StageKey :=
  toLex (completion.event.getD "", completion.profileId.getD "")

/-- A turn of the loop of `coalesce_stage_completions`. -/
def coalesceEvent (grouped : ExtTreeMap StageKey StageCompletion) (completion : StageCompletion) :
    Except String (ExtTreeMap StageKey StageCompletion) := do
  let _ ← required completion.event "completion kind is missing"
  match grouped[completion.key]? with
  | some existing => do
    let coverage ← mergeCoverage existing.coverage completion.coverage
    pure (grouped.insert completion.key { existing with coverage := some coverage })
  | none => pure (grouped.insert completion.key completion)

def coalesceStageCompletions (events : List StageCompletion) :
    Except String (List StageCompletion) := do
  let grouped ← events.foldlM coalesceEvent ∅
  pure (values grouped)

/-! ### Completions and their join -/

/-- What a field of a coverage holds. -/
inductive FieldKind
  | counter
  | flag
  | list

def HasKind : FieldKind → Value → Prop
  | .counter, value => ∃ n < counterLimit, value = counter n
  | .flag, value => ∃ b, value = .bool b
  | .list, value => ∃ items : List String, value = .array (items.map .string)

/-- Every field that is there holds a value of its kind. -/
def Typed (kindOf : String → FieldKind) (coverage : Members) : Prop :=
  ∀ (key : String) (value : Value), coverage[key]? = some value → HasKind (kindOf key) value

/-- A completion event with a coverage whose fields are of the given kinds; any field may be absent. -/
structure Completion (kindOf : String → FieldKind) where
  kind : String
  profileId : Option String
  coverage : Members
  others : Members
  typed : Typed kindOf coverage

def counterOf (coverage : Members) (key : String) : Nat := (coverage[key]?.bind asU64).getD 0

def flagOf (coverage : Members) (key : String) : Bool := (coverage[key]?.bind asBool).getD false

def listOf (coverage : Members) (key : String) : ExtTreeSet String := coverage[key]?.elim ∅ wordsOf

/-- The sum of a counter over all chunks. -/
def total (chunks : List Members) (key : String) : Nat := (chunks.map (counterOf · key)).sum

/-- All of the join but the completeness. -/
structure Joins (kindOf : String → FieldKind) (chunks : List Members) (coverage : Members) :
    Prop where
  typed : Typed kindOf coverage
  present : ∀ key, key ∈ coverage ↔ ∃ chunk ∈ chunks, key ∈ chunk
  counter : ∀ key, kindOf key = .counter → key ≠ "profiles" →
    counterOf coverage key = total chunks key
  profiles : kindOf "profiles" = .counter →
    counterOf coverage "profiles" = (chunks.map (counterOf · "profiles")).foldr max 0
  flag : ∀ key, kindOf key = .flag →
    (flagOf coverage key = true ↔ ∃ chunk ∈ chunks, flagOf chunk key = true)
  union : ∀ key, kindOf key = .list → key ≠ "completeness" → ∀ word,
    word ∈ listOf coverage key ↔ ∃ chunk ∈ chunks, word ∈ listOf chunk key

/-- **The join of the coverages of all chunks.** -/
structure IsJoin (kindOf : String → FieldKind) (chunks : List Members) (coverage : Members) : Prop
    extends Joins kindOf chunks coverage where
  completeness : kindOf "completeness" = .list → ∀ word,
    word ∈ listOf coverage "completeness" ↔ ∀ chunk ∈ chunks, word ∈ listOf chunk "completeness"

section

variable {kindOf : String → FieldKind}

def Completion.event (completion : Completion kindOf) : StageCompletion where
  event := some completion.kind
  profileId := completion.profileId
  coverage := some completion.coverage
  others := completion.others

def Completion.key (completion : Completion kindOf) : StageKey := completion.event.key

/-- The chunks of a kind and a profile. -/
def chunksOf (key : StageKey) (events : List (Completion kindOf)) : List Members :=
  (events.filter fun completion => decide (completion.key = key)).map Completion.coverage

/-- Some counter does not fit into 64 bits. -/
def Overflows (events : List (Completion kindOf)) : Prop :=
  ∃ key field, kindOf field = .counter ∧ field ≠ "profiles" ∧
    counterLimit ≤ total (chunksOf key events) field

/-- **One event for every kind and profile, with the join of its chunks; or the error of a counter that
overflows.** -/
inductive Coalesces (events : List (Completion kindOf)) :
    Except String (List StageCompletion) → Prop
  | overflow (overflows : Overflows events) : Coalesces events (.error "coverage counter overflow")
  | joined {completions : List StageCompletion} (fits : ¬ Overflows events)
      (sorted : (completions.map StageCompletion.key).Pairwise fun a b => compare a b = .lt)
      (keys : ∀ key, key ∈ completions.map StageCompletion.key ↔
        ∃ completion ∈ events, completion.key = key)
      (join : ∀ completion ∈ completions, ∃ coverage, completion.coverage = some coverage ∧
        IsJoin kindOf (chunksOf completion.key events) coverage) :
      Coalesces events (.ok completions)

/-- Some chunk carries no completeness, some do, and these have a level in common. -/
def Masked (chunks : List Members) : Prop :=
  (∃ chunk ∈ chunks, "completeness" ∉ chunk) ∧ (∃ chunk ∈ chunks, "completeness" ∈ chunk) ∧
    ∃ word, ∀ chunk ∈ chunks, "completeness" ∈ chunk → word ∈ listOf chunk "completeness"

/-! ### One field -/

theorem asU64_counter {n : Nat} (h : n < counterLimit) : asU64 (counter n) = some n := by
  have hrange : (0 : Int) ≤ (n : Int) ∧ (n : Int) < (counterLimit : Int) :=
    ⟨Int.natCast_nonneg n, Int.ofNat_lt.2 h⟩
  simp only [counter, asU64, if_pos hrange, Int.toNat_natCast]

theorem mem_wordsOf_words {set : ExtTreeSet String} {word : String} :
    word ∈ wordsOf (words set) ↔ word ∈ set := by
  rw [words, wordsOf, List.filterMap_map, ExtTreeSet.mem_ofList, ← ExtTreeSet.mem_toList]
  have hall : (set.toList.filterMap (asStr ∘ Value.string)) = set.toList :=
    List.filterMap_some
  rw [hall, List.contains_iff_mem]

/-- What a merged field holds. -/
inductive Merges (key : String) (target : Option Value) : FieldKind → Value → Value → Prop
  | sum {n : Nat} (h : key ≠ "profiles")
      (fits : (target.bind asU64).getD 0 + n < counterLimit) :
      Merges key target .counter (counter n) (counter ((target.bind asU64).getD 0 + n))
  | max {n : Nat} (h : key = "profiles") :
      Merges key target .counter (counter n) (counter (max ((target.bind asU64).getD 0) n))
  | or {b : Bool} :
      Merges key target .flag (.bool b) (.bool ((target.bind asBool).getD false || b))
  | inter {value : Value} (h : key = "completeness") :
      Merges key target .list value (words (target.elim ∅ wordsOf ∩ wordsOf value))
  | union {value : Value} (h : key ≠ "completeness") :
      Merges key target .list value (words (target.elim ∅ wordsOf ∪ wordsOf value))

theorem mergeValue_typed {key : String} {target : Option Value} {kind : FieldKind} {value : Value}
    (h : HasKind kind value) :
    (∃ merged, mergeValue key target value = .ok merged ∧ Merges key target kind value merged) ∨
    (mergeValue key target value = .error "coverage counter overflow" ∧ kind = .counter ∧
      key ≠ "profiles" ∧ counterLimit ≤
        (target.bind asU64).getD 0 + (asU64 value).getD 0) := by
  cases kind with
  | counter =>
    obtain ⟨n, hn, rfl⟩ := h
    have hread : required (asU64 (counter n)) "coverage counter is not unsigned" = .ok n := by
      rw [asU64_counter hn, required_some]
    by_cases hkey : key = "profiles"
    · refine Or.inl ⟨_, ?_, .max hkey⟩
      rw [counter] at hread
      rw [counter, mergeValue, hread, ok_bind, if_pos hkey]
      rfl
    by_cases hfits : (target.bind asU64).getD 0 + n < counterLimit
    · refine Or.inl ⟨_, ?_, .sum hkey hfits⟩
      rw [counter] at hread
      rw [counter, mergeValue, hread, ok_bind, if_neg hkey, check_of hfits, ok_bind]
      rfl
    · refine Or.inr ⟨?_, rfl, hkey, ?_⟩
      · rw [counter] at hread
        rw [counter, mergeValue, hread, ok_bind, if_neg hkey, check_of_not hfits]
        rfl
      · rw [asU64_counter hn]
        exact Nat.le_of_not_lt hfits
  | flag =>
    obtain ⟨b, rfl⟩ := h
    exact Or.inl ⟨_, rfl, .or⟩
  | list =>
    obtain ⟨items, rfl⟩ := h
    by_cases hkey : key = "completeness"
    · exact Or.inl ⟨_, if_pos hkey, .inter hkey⟩
    · exact Or.inl ⟨_, if_neg hkey, .union hkey⟩

theorem Merges.hasKind {key : String} {target : Option Value} {kind : FieldKind}
    {value merged : Value} (h : Merges key target kind value merged)
    (htarget : ∀ known ∈ target, HasKind kind known) (hvalue : HasKind kind value) :
    HasKind kind merged := by
  cases h with
  | sum _ fits => exact ⟨_, fits, rfl⟩
  | max =>
    obtain ⟨n, hn, heq⟩ := hvalue
    refine ⟨_, Nat.max_lt.2 ⟨?_, ?_⟩, rfl⟩
    · cases target with
      | none => decide
      | some known =>
        obtain ⟨m, hm, rfl⟩ := htarget known rfl
        rwa [Option.bind_some, asU64_counter hm]
    · rw [counter, counter, Value.number.injEq, Number.int.injEq, Int.natCast_inj] at heq
      rwa [heq]
  | or => exact ⟨_, rfl⟩
  | inter => exact ⟨_, rfl⟩
  | union => exact ⟨_, rfl⟩

/-! ### One chunk -/

/-- Every field of the chunk has been merged, and the other fields are as they were. -/
structure MergedBy (fields : List (String × Value)) (target merged : Members) : Prop where
  stored : ∀ field ∈ fields, ∃ value,
    mergeValue field.1 target[field.1]? field.2 = .ok value ∧ merged[field.1]? = some value
  kept : ∀ key, key ∉ fields.map Prod.fst → merged[key]? = target[key]?

theorem mergeFields_spec {fields : List (String × Value)} (hnodup : (fields.map Prod.fst).Nodup)
    (target : Members) :
    (∃ merged, fields.foldlM mergeField target = .ok merged ∧ MergedBy fields target merged) ∨
    ∃ error, fields.foldlM mergeField target = .error error ∧
      ∃ field ∈ fields, mergeValue field.1 target[field.1]? field.2 = .error error := by
  induction fields generalizing target with
  | nil => exact Or.inl ⟨target, rfl, fun _ h => absurd h List.not_mem_nil, fun _ _ => rfl⟩
  | cons field fields ih =>
    rw [List.map_cons, List.nodup_cons] at hnodup
    rw [List.foldlM_cons]
    cases hvalue : mergeValue field.1 target[field.1]? field.2 with
    | error error =>
      refine Or.inr ⟨error, ?_, field, List.mem_cons_self, hvalue⟩
      rw [mergeField, hvalue]
      rfl
    | ok value =>
      have hstep : mergeField target field = .ok (target.insert field.1 value) := by
        rw [mergeField, hvalue]
        rfl
      have hother {key : String} (h : key ∈ fields.map Prod.fst) :
          (target.insert field.1 value)[key]? = target[key]? := by
        have hne : key ≠ field.1 := fun heq => hnodup.1 (heq ▸ h)
        rw [getElem?_insert, if_neg hne]
      rw [hstep, ok_bind]
      rcases ih hnodup.2 (target.insert field.1 value) with ⟨merged, hrun, hmerged⟩ | ⟨error, hrun, herror⟩
      · refine Or.inl ⟨merged, hrun, fun f hf => ?_, fun key hkey => ?_⟩
        · rcases List.mem_cons.1 hf with rfl | hf
          · exact ⟨value, hvalue, by rw [hmerged.kept _ hnodup.1, getElem?_insert, if_pos rfl]⟩
          · obtain ⟨value', hvalue', hstored⟩ := hmerged.stored f hf
            rw [hother (List.mem_map_of_mem hf)] at hvalue'
            exact ⟨value', hvalue', hstored⟩
        · rw [List.map_cons, List.mem_cons, not_or] at hkey
          rw [hmerged.kept key hkey.2, getElem?_insert, if_neg hkey.1]
      · obtain ⟨f, hf, hvalue'⟩ := herror
        rw [hother (List.mem_map_of_mem hf)] at hvalue'
        exact Or.inr ⟨error, hrun, f, List.mem_cons_of_mem _ hf, hvalue'⟩

/-- A field of the merged coverage. -/
theorem mergedBy_field {target chunk merged : Members} (h : MergedBy chunk.toList target merged)
    (htyped : Typed kindOf chunk) (key : String) :
    (chunk[key]? = none ∧ merged[key]? = target[key]?) ∨
    ∃ value stored, chunk[key]? = some value ∧ merged[key]? = some stored ∧
      Merges key target[key]? (kindOf key) value stored := by
  cases hchunk : chunk[key]? with
  | none =>
    refine Or.inl ⟨rfl, h.kept key fun hkey => ?_⟩
    obtain ⟨⟨k, v⟩, hmem, rfl⟩ := List.mem_map.1 hkey
    rw [mem_toList.1 hmem] at hchunk
    cases hchunk
  | some value =>
    obtain ⟨stored, hvalue, hstored⟩ := h.stored (key, value) (mem_toList.2 hchunk)
    refine Or.inr ⟨value, stored, rfl, hstored, ?_⟩
    rcases @mergeValue_typed key target[key]? _ value (htyped key value hchunk) with
      ⟨merged, hmerged, hmerges⟩ | ⟨herror, -⟩
    · rw [hmerged, Except.ok.injEq] at hvalue
      rwa [← hvalue]
    · rw [herror] at hvalue
      cases hvalue

section

variable {target chunk merged : Members} (h : MergedBy chunk.toList target merged)
  (htyped : Typed kindOf chunk) {key : String}

include h htyped

theorem counterOf_merged (hkind : kindOf key = .counter) (hkey : key ≠ "profiles") :
    counterOf merged key = counterOf target key + counterOf chunk key := by
  rcases mergedBy_field h htyped key with ⟨hnone, hmerged⟩ | ⟨value, stored, hvalue, hstored, hmerges⟩
  · rw [counterOf, counterOf, counterOf, hmerged, hnone]
    rfl
  · rw [hkind] at hmerges
    cases hmerges with
    | sum _ fits =>
      have hn := asU64_counter (Nat.lt_of_le_of_lt (Nat.le_add_left _ _) fits)
      rw [counterOf, counterOf, counterOf, hstored, hvalue, Option.bind_some, Option.bind_some,
        asU64_counter fits, hn, Option.getD_some, Option.getD_some]
    | max heq => exact absurd heq hkey

theorem profiles_merged (htarget : Typed kindOf target) (hkind : kindOf "profiles" = .counter) :
    counterOf merged "profiles" = max (counterOf target "profiles") (counterOf chunk "profiles") := by
  rcases mergedBy_field h htyped "profiles" with
    ⟨hnone, hmerged⟩ | ⟨value, stored, hvalue, hstored, hmerges⟩
  · rw [counterOf, counterOf, counterOf, hmerged, hnone]
    exact (Nat.max_zero _).symm
  · have hstoredkind := hmerges.hasKind (htarget "profiles") (htyped "profiles" value hvalue)
    have hvaluekind := htyped "profiles" value hvalue
    rw [hkind] at hmerges hstoredkind hvaluekind
    cases hmerges with
    | sum hne => exact absurd rfl hne
    | max =>
      obtain ⟨n, hn, hcounter⟩ := hvaluekind
      obtain ⟨m, hm, hmax⟩ := hstoredkind
      rw [counter, counter, Value.number.injEq, Number.int.injEq, Int.natCast_inj] at hcounter hmax
      subst hcounter
      rw [counterOf, counterOf, counterOf, hstored, hvalue, Option.bind_some, Option.bind_some,
        asU64_counter (hmax ▸ hm), asU64_counter hn, Option.getD_some, Option.getD_some]

theorem flagOf_merged (hkind : kindOf key = .flag) :
    flagOf merged key = (flagOf target key || flagOf chunk key) := by
  rcases mergedBy_field h htyped key with ⟨hnone, hmerged⟩ | ⟨value, stored, hvalue, hstored, hmerges⟩
  · rw [flagOf, flagOf, flagOf, hmerged, hnone]
    exact (Bool.or_false _).symm
  · rw [hkind] at hmerges
    cases hmerges with
    | or =>
      rw [flagOf, flagOf, flagOf, hstored, hvalue]
      rfl

theorem listOf_union (hkind : kindOf key = .list) (hkey : key ≠ "completeness") {word : String} :
    word ∈ listOf merged key ↔ word ∈ listOf target key ∨ word ∈ listOf chunk key := by
  rcases mergedBy_field h htyped key with ⟨hnone, hmerged⟩ | ⟨value, stored, hvalue, hstored, hmerges⟩
  · rw [listOf, listOf, listOf, hmerged, hnone]
    exact (or_iff_left ExtTreeSet.not_mem_empty).symm
  · rw [hkind] at hmerges
    cases hmerges with
    | inter heq => exact absurd heq hkey
    | union =>
      rw [listOf, listOf, listOf, hstored, hvalue]
      exact mem_wordsOf_words.trans ExtTreeSet.mem_union_iff

theorem listOf_completeness (hkind : kindOf "completeness" = .list) {word : String} :
    word ∈ listOf merged "completeness" ↔ word ∈ listOf target "completeness" ∧
      ("completeness" ∈ chunk → word ∈ listOf chunk "completeness") := by
  rcases mergedBy_field h htyped "completeness" with
    ⟨hnone, hmerged⟩ | ⟨value, stored, hvalue, hstored, hmerges⟩
  · rw [listOf, listOf, hmerged]
    exact (and_iff_left fun hmem => absurd hmem (not_mem_iff.2 hnone)).symm
  · rw [hkind] at hmerges
    cases hmerges with
    | inter =>
      rw [listOf, listOf, listOf, hstored, hvalue, imp_iff_right (mem_iff.2 ⟨value, hvalue⟩)]
      exact mem_wordsOf_words.trans ExtTreeSet.mem_inter_iff
    | union hne => exact absurd rfl hne

theorem typed_merged (htarget : Typed kindOf target) : Typed kindOf merged := by
  intro key value hmem
  rcases mergedBy_field h htyped key with ⟨-, hmerged⟩ | ⟨chunkValue, stored, hvalue, hstored, hmerges⟩
  · exact htarget key value (hmerged ▸ hmem)
  · rw [hstored, Option.some.injEq] at hmem
    subst hmem
    exact hmerges.hasKind (htarget key) (htyped key chunkValue hvalue)

theorem mem_merged : key ∈ merged ↔ key ∈ target ∨ key ∈ chunk := by
  rcases mergedBy_field h htyped key with ⟨hnone, hmerged⟩ | ⟨value, stored, hvalue, hstored, -⟩
  · rw [mem_iff, hmerged, ← mem_iff, or_iff_left (not_mem_iff.2 hnone)]
  · exact iff_of_true (mem_iff.2 ⟨stored, hstored⟩) (Or.inr (mem_iff.2 ⟨value, hvalue⟩))

end

/-! ### The chunks of one profile -/

/-- A level that is left when the chunks come in this order. -/
def KeptLevel : List Members → String → Prop
  | [], _ => False
  | first :: rest, word => word ∈ listOf first "completeness" ∧
      ∀ chunk ∈ rest, "completeness" ∈ chunk → word ∈ listOf chunk "completeness"

/-- What the coverage of the first chunk has become. -/
structure Accumulated (kindOf : String → FieldKind) (chunks : List Members) (coverage : Members) :
    Prop extends Joins kindOf chunks coverage where
  kept : kindOf "completeness" = .list → ∀ word,
    word ∈ listOf coverage "completeness" ↔ KeptLevel chunks word

theorem total_append (chunks chunks' : List Members) (field : String) :
    total (chunks ++ chunks') field = total chunks field + total chunks' field := by
  rw [total, List.map_append, List.sum_append]
  rfl

theorem total_singleton (chunk : Members) (field : String) :
    total [chunk] field = counterOf chunk field := Nat.add_zero _

theorem Accumulated.start {chunk : Members} (htyped : Typed kindOf chunk) :
    Accumulated kindOf [chunk] chunk where
  typed := htyped
  present _ := by simp
  counter key _ _ := (total_singleton chunk key).symm
  profiles _ := (Nat.max_zero _).symm
  flag _ _ := by simp
  union _ _ _ _ := by simp
  kept _ word := by simp [KeptLevel]

theorem kept_append {chunks : List Members} (hne : chunks ≠ []) {chunk : Members} {word : String} :
    KeptLevel (chunks ++ [chunk]) word ↔
      KeptLevel chunks word ∧ ("completeness" ∈ chunk → word ∈ listOf chunk "completeness") := by
  obtain ⟨first, rest, rfl⟩ := List.exists_cons_of_ne_nil hne
  rw [List.cons_append, KeptLevel, KeptLevel, List.forall_mem_append, List.forall_mem_singleton, and_assoc]

theorem foldr_max_append (l : List Nat) (n : Nat) :
    (l ++ [n]).foldr max 0 = max (l.foldr max 0) n := by
  induction l with
  | nil => exact Nat.max_comm _ _
  | cons m l ih => rw [List.cons_append, List.foldr_cons, ih, List.foldr_cons, max_assoc]

theorem Accumulated.append {chunks : List Members} {target chunk merged : Members}
    (h : Accumulated kindOf chunks target) (hne : chunks ≠ [])
    (hmerged : MergedBy chunk.toList target merged) (htyped : Typed kindOf chunk) :
    Accumulated kindOf (chunks ++ [chunk]) merged where
  typed := typed_merged hmerged htyped h.typed
  present key := by
    rw [mem_merged hmerged htyped, h.present]
    simp [or_and_right, exists_or]
  counter key hkind hkey := by
    rw [counterOf_merged hmerged htyped hkind hkey, h.counter key hkind hkey, total_append,
      total_singleton]
  profiles hkind := by
    rw [profiles_merged hmerged htyped h.typed hkind, h.profiles hkind, List.map_append,
      List.map_singleton, foldr_max_append]
  flag key hkind := by
    rw [flagOf_merged hmerged htyped hkind, Bool.or_eq_true, h.flag key hkind]
    simp [or_and_right, exists_or]
  union key hkind hkey word := by
    rw [listOf_union hmerged htyped hkind hkey, h.union key hkind hkey]
    simp [or_and_right, exists_or]
  kept hkind word := by
    rw [listOf_completeness hmerged htyped hkind, h.kept hkind, kept_append hne]

/-- **A chunk is merged, or a counter overflows.** -/
theorem mergeMembers_spec {chunks : List Members} {target chunk : Members}
    (h : Accumulated kindOf chunks target) (hne : chunks ≠ []) (htyped : Typed kindOf chunk) :
    (∃ merged, mergeMembers target chunk = .ok merged ∧
      Accumulated kindOf (chunks ++ [chunk]) merged) ∨
    (mergeMembers target chunk = .error "coverage counter overflow" ∧
      ∃ field, kindOf field = .counter ∧ field ≠ "profiles" ∧
        counterLimit ≤ total (chunks ++ [chunk]) field) := by
  rcases @mergeFields_spec chunk.toList keys_nodup target with
    ⟨merged, hrun, hmerged⟩ | ⟨error, hrun, ⟨key, value⟩, hmem, herror⟩
  · exact Or.inl ⟨merged, hrun, h.append hne hmerged htyped⟩
  · have hvalue : chunk[key]? = some value := mem_toList.1 hmem
    rcases @mergeValue_typed key target[key]? _ value (htyped key value hvalue) with
      ⟨merged, hok, -⟩ | ⟨hoverflow, hkind, hkey, hsum⟩
    · rw [hok] at herror
      cases herror
    · rw [hoverflow, Except.error.injEq] at herror
      refine Or.inr ⟨herror ▸ hrun, key, hkind, hkey, ?_⟩
      rw [total_append, total_singleton, ← h.counter key hkind hkey, counterOf, counterOf, hvalue]
      exact hsum

/-- A sum that is stored fits. -/
theorem Accumulated.fits {chunks : List Members} {coverage : Members}
    (h : Accumulated kindOf chunks coverage) {field : String} (hkind : kindOf field = .counter)
    (hfield : field ≠ "profiles") : total chunks field < counterLimit := by
  rw [← h.counter field hkind hfield, counterOf]
  cases hvalue : coverage[field]? with
  | none => exact Nat.lt_of_lt_of_le Nat.zero_lt_one (by decide)
  | some value =>
    obtain ⟨n, hn, rfl⟩ := hkind ▸ h.typed field value hvalue
    rwa [Option.bind_some, asU64_counter hn]

/-! ### The events -/

theorem chunksOf_append (key : StageKey) (events : List (Completion kindOf))
    (completion : Completion kindOf) : chunksOf key (events ++ [completion]) =
      chunksOf key events ++ if completion.key = key then [completion.coverage] else [] := by
  rw [chunksOf, chunksOf, List.filter_append, List.map_append]
  by_cases hkey : completion.key = key
  · simp [hkey]
  · simp [hkey]

theorem chunksOf_ne_nil {key : StageKey} {events : List (Completion kindOf)}
    (h : ∃ completion ∈ events, completion.key = key) : chunksOf key events ≠ [] := by
  obtain ⟨completion, hmem, hkey⟩ := h
  exact List.ne_nil_of_mem (List.mem_map_of_mem (List.mem_filter.2 ⟨hmem, decide_eq_true hkey⟩))

theorem overflows_append {events : List (Completion kindOf)} (h : Overflows events)
    (completion : Completion kindOf) : Overflows (events ++ [completion]) := by
  obtain ⟨key, field, hkind, hfield, hsum⟩ := h
  refine ⟨key, field, hkind, hfield, hsum.trans ?_⟩
  rw [chunksOf_append, total_append]
  exact Nat.le_add_right _ _

/-- The events that have been grouped. -/
structure Grouped (events : List (Completion kindOf))
    (grouped : ExtTreeMap StageKey StageCompletion) : Prop where
  keyed : KeyedBy StageCompletion.key grouped
  keys : ∀ key, key ∈ grouped ↔ ∃ completion ∈ events, completion.key = key
  accumulated : ∀ (key : StageKey) (completion : StageCompletion), grouped[key]? = some completion →
    ∃ coverage, completion.coverage = some coverage ∧
      Accumulated kindOf (chunksOf key events) coverage

theorem coalesceEvent_none {grouped : ExtTreeMap StageKey StageCompletion}
    {completion : Completion kindOf} (h : grouped[completion.key]? = none) :
    coalesceEvent grouped completion.event =
      .ok (grouped.insert completion.key completion.event) := by
  have hlookup : grouped[completion.event.key]? = none := h
  rw [coalesceEvent, hlookup]
  rfl

theorem coalesceEvent_some {grouped : ExtTreeMap StageKey StageCompletion}
    {completion : Completion kindOf} {existing : StageCompletion} {target : Members}
    (h : grouped[completion.key]? = some existing) (htarget : existing.coverage = some target) :
    coalesceEvent grouped completion.event = (mergeMembers target completion.coverage).map
      fun coverage => grouped.insert completion.key { existing with coverage := some coverage } := by
  have hlookup : grouped[completion.event.key]? = some existing := h
  have hmerge : mergeCoverage existing.coverage completion.event.coverage =
      mergeMembers target completion.coverage := by
    rw [htarget]
    rfl
  rw [coalesceEvent, hlookup]
  simp only [hmerge]
  cases mergeMembers target completion.coverage with
  | ok merged => rfl
  | error error => rfl

/-- The first event of a key, or an event whose coverage has been merged, takes its place. -/
theorem Grouped.insert {events : List (Completion kindOf)}
    {grouped : ExtTreeMap StageKey StageCompletion} (h : Grouped events grouped)
    {completion : Completion kindOf} {updated : StageCompletion} {coverage : Members}
    (hkey : updated.key = completion.key) (hcoverage : updated.coverage = some coverage)
    (haccumulated : Accumulated kindOf (chunksOf completion.key events ++ [completion.coverage])
      coverage) : Grouped (events ++ [completion]) (grouped.insert completion.key updated) where
  keyed := hkey ▸ h.keyed.insert
  keys key := by
    rw [ExtTreeMap.mem_insert, Std.compare_eq_iff_eq, h.keys]
    simp only [List.mem_append, List.mem_singleton, or_and_right, exists_or, exists_eq_left]
    exact or_comm
  accumulated key stored hstored := by
    rw [getElem?_insert] at hstored
    rw [chunksOf_append]
    by_cases heq : key = completion.key
    · rw [if_pos heq, Option.some.injEq] at hstored
      subst hstored
      subst heq
      rw [if_pos rfl]
      exact ⟨coverage, hcoverage, haccumulated⟩
    · rw [if_neg heq] at hstored
      rw [if_neg (Ne.symm heq), List.append_nil]
      exact h.accumulated key stored hstored

/-- **One event is grouped, or a counter overflows.** -/
theorem Grouped.step {events : List (Completion kindOf)}
    {grouped : ExtTreeMap StageKey StageCompletion} (h : Grouped events grouped)
    (completion : Completion kindOf) :
    (∃ grouped', coalesceEvent grouped completion.event = .ok grouped' ∧
      Grouped (events ++ [completion]) grouped') ∨
    (coalesceEvent grouped completion.event = .error "coverage counter overflow" ∧
      Overflows (events ++ [completion])) := by
  cases hlookup : grouped[completion.key]? with
  | none =>
    have hnone : chunksOf completion.key events = [] := by
      refine List.map_eq_nil_iff.2 (List.filter_eq_nil_iff.2 fun other hother hkey => ?_)
      exact not_mem_iff.2 hlookup ((h.keys _).2 ⟨other, hother, of_decide_eq_true hkey⟩)
    refine Or.inl ⟨_, coalesceEvent_none hlookup, h.insert rfl rfl ?_⟩
    rw [hnone, List.nil_append]
    exact .start completion.typed
  | some existing =>
    obtain ⟨target, htarget, haccumulated⟩ := h.accumulated _ existing hlookup
    have hne : chunksOf completion.key events ≠ [] :=
      chunksOf_ne_nil ((h.keys _).1 (mem_iff.2 ⟨existing, hlookup⟩))
    rw [coalesceEvent_some hlookup htarget]
    rcases mergeMembers_spec haccumulated hne completion.typed with
      ⟨merged, hmerge, hmerged⟩ | ⟨herror, field, hkind, hfield, hsum⟩
    · have hkey : existing.key = completion.key := h.keyed _ _ hlookup
      have hupdated : ({ existing with coverage := some merged } : StageCompletion).key =
        completion.key := hkey
      exact Or.inl ⟨_, by rw [hmerge]; rfl, h.insert hupdated rfl hmerged⟩
    · refine Or.inr ⟨by rw [herror]; rfl, completion.key, field, hkind, hfield, ?_⟩
      rwa [chunksOf_append, if_pos rfl]

/-- **A run of the loop.** -/
theorem grouped_run (events : List (Completion kindOf)) :
    (∃ grouped, (events.map Completion.event).foldlM coalesceEvent ∅ = .ok grouped ∧
      Grouped events grouped) ∨
    ((events.map Completion.event).foldlM coalesceEvent ∅ = .error "coverage counter overflow" ∧
      Overflows events) := by
  induction events using List.reverseRecOn with
  | nil =>
    refine Or.inl ⟨∅, rfl, fun _ _ h => ?_, fun key => ?_, fun _ _ h => ?_⟩
    · rw [ExtTreeMap.getElem?_empty] at h
      cases h
    · simp
    · rw [ExtTreeMap.getElem?_empty] at h
      cases h
  | append_singleton events completion ih =>
    rw [List.map_append, List.foldlM_append]
    rcases ih with ⟨grouped, hrun, hgrouped⟩ | ⟨herror, hoverflows⟩
    · rw [hrun, ok_bind, List.map_singleton, List.foldlM_cons]
      rcases hgrouped.step completion with ⟨grouped', hstep, hgrouped'⟩ | ⟨hstep, hoverflows⟩
      · exact Or.inl ⟨grouped', by rw [hstep]; rfl, hgrouped'⟩
      · exact Or.inr ⟨by rw [hstep]; rfl, hoverflows⟩
    · exact Or.inr ⟨by rw [herror]; rfl, overflows_append hoverflows completion⟩

theorem Grouped.fits {events : List (Completion kindOf)}
    {grouped : ExtTreeMap StageKey StageCompletion} (h : Grouped events grouped) :
    ¬ Overflows events := by
  rintro ⟨key, field, hkind, hfield, hsum⟩
  have hmem : ∃ completion ∈ events, completion.key = key := by
    by_contra hnone
    have hnil : chunksOf key events = [] := by
      refine List.map_eq_nil_iff.2 (List.filter_eq_nil_iff.2 fun other hother hkey => ?_)
      exact hnone ⟨other, hother, of_decide_eq_true hkey⟩
    rw [hnil] at hsum
    exact absurd hsum (Nat.not_le.2 (show 0 < counterLimit by decide))
  obtain ⟨completion, hcompletion⟩ := mem_iff.1 ((h.keys key).2 hmem)
  obtain ⟨coverage, -, haccumulated⟩ := h.accumulated key completion hcompletion
  exact absurd (haccumulated.fits hkind hfield) (Nat.not_lt.2 hsum)

/-! ### Every order of the events -/

theorem chunksOf_perm (key : StageKey) {events events' : List (Completion kindOf)}
    (h : events'.Perm events) : (chunksOf key events').Perm (chunksOf key events) :=
  (h.filter _).map _

theorem overflows_perm {events events' : List (Completion kindOf)} (h : events'.Perm events) :
    Overflows events' ↔ Overflows events := by
  have htotal (key : StageKey) (field : String) :
      total (chunksOf key events') field = total (chunksOf key events) field :=
    ((chunksOf_perm key h).map _).sum_eq
  simp only [Overflows, htotal]

theorem Joins.perm {chunks chunks' : List Members} {coverage : Members}
    (h : Joins kindOf chunks' coverage) (hperm : chunks'.Perm chunks) :
    Joins kindOf chunks coverage where
  typed := h.typed
  present key := by simpa only [hperm.mem_iff] using h.present key
  counter key hkind hkey := (h.counter key hkind hkey).trans (hperm.map _).sum_eq
  profiles hkind := (h.profiles hkind).trans ((hperm.map _).foldr_eq 0)
  flag key hkind := by simpa only [hperm.mem_iff] using h.flag key hkind
  union key hkind hkey word := by simpa only [hperm.mem_iff] using h.union key hkind hkey word

theorem mem_of_listOf {chunk : Members} {key word : String} (h : word ∈ listOf chunk key) :
    key ∈ chunk := by
  by_contra hnot
  rw [listOf, not_mem_iff.1 hnot] at h
  exact ExtTreeSet.not_mem_empty h

theorem kept_iff {chunks : List Members} (hne : chunks ≠ []) (hmasked : ¬ Masked chunks)
    {word : String} :
    KeptLevel chunks word ↔ ∀ chunk ∈ chunks, word ∈ listOf chunk "completeness" := by
  obtain ⟨first, rest, rfl⟩ := List.exists_cons_of_ne_nil hne
  rw [KeptLevel, List.forall_mem_cons]
  refine and_congr_right fun hfirst => ⟨fun hrest chunk hchunk => ?_, fun hrest chunk hchunk _ =>
    hrest chunk hchunk⟩
  by_contra hnot
  refine hmasked ⟨⟨chunk, List.mem_cons_of_mem _ hchunk, fun hmem => hnot (hrest chunk hchunk hmem)⟩,
    ⟨first, List.mem_cons_self, mem_of_listOf hfirst⟩, word, ?_⟩
  exact List.forall_mem_cons.2 ⟨fun _ => hfirst, hrest⟩

/-- Without masked chunks the events are coalesced in any order. -/
theorem coalesces_of_not_masked {events events' : List (Completion kindOf)}
    (h : Overflows events ∨ ∀ key, ¬ Masked (chunksOf key events)) (hperm : events'.Perm events) :
    Coalesces events (coalesceStageCompletions (events'.map Completion.event)) := by
  rcases grouped_run events' with ⟨grouped, hrun, hgrouped⟩ | ⟨herror, hoverflows⟩
  · have hfits : ¬ Overflows events := mt (overflows_perm hperm).2 hgrouped.fits
    rw [coalesceStageCompletions, hrun, ok_bind]
    refine .joined hfits ?_ (fun key => ?_) fun completion hcompletion => ?_
    · rw [map_key_values hgrouped.keyed]
      exact ExtTreeMap.ordered_keys
    · rw [map_key_values hgrouped.keyed, ExtTreeMap.mem_keys, hgrouped.keys]
      simp only [hperm.mem_iff]
    · obtain ⟨key, hlookup⟩ := mem_values.1 hcompletion
      obtain rfl := hgrouped.keyed key completion hlookup
      obtain ⟨coverage, hcoverage, haccumulated⟩ := hgrouped.accumulated _ _ hlookup
      have hchunks := chunksOf_perm completion.key hperm
      have hne : chunksOf completion.key events' ≠ [] :=
        chunksOf_ne_nil ((hgrouped.keys _).1 (mem_iff.2 ⟨completion, hlookup⟩))
      have hmasked : ¬ Masked (chunksOf completion.key events') := by
        have hnot := h.resolve_left hfits completion.key
        simpa only [Masked, hchunks.mem_iff] using hnot
      refine ⟨coverage, hcoverage, haccumulated.toJoins.perm hchunks, fun hkind word => ?_⟩
      rw [haccumulated.kept hkind, kept_iff hne hmasked]
      simp only [hchunks.mem_iff]
  · rw [coalesceStageCompletions, herror]
    exact .overflow ((overflows_perm hperm).1 hoverflows)

/-- Only a field of lists has words. -/
theorem kind_of_listOf {chunk : Members} (htyped : Typed kindOf chunk) {key word : String}
    (h : word ∈ listOf chunk key) : kindOf key = .list := by
  obtain ⟨value, hvalue⟩ := mem_iff.1 (mem_of_listOf h)
  have hkind := htyped key value hvalue
  rw [listOf, hvalue] at h
  cases hkey : kindOf key with
  | list => rfl
  | counter =>
    rw [hkey] at hkind
    obtain ⟨n, -, rfl⟩ := hkind
    exact absurd h ExtTreeSet.not_mem_empty
  | flag =>
    rw [hkey] at hkind
    obtain ⟨b, rfl⟩ := hkind
    exact absurd h ExtTreeSet.not_mem_empty

/-- **Masked chunks are not joined when one that carries completeness comes first.** -/
theorem not_coalesces_of_masked {events : List (Completion kindOf)} (hfits : ¬ Overflows events)
    {key : StageKey} (hmasked : Masked (chunksOf key events)) :
    ∃ events' : List (Completion kindOf), events'.Perm events ∧
      ¬ Coalesces events (coalesceStageCompletions (events'.map Completion.event)) := by
  obtain ⟨⟨absent, habsent, hnot⟩, ⟨carrier, hcarrier, hcarries⟩, word, hword⟩ := hmasked
  obtain ⟨completion, hcompletion, rfl⟩ := List.mem_map.1 hcarrier
  obtain ⟨hmem, hkey⟩ := List.mem_filter.1 hcompletion
  obtain ⟨before, after, rfl⟩ := List.append_of_mem hmem
  -- the chunk that carries the level comes first, so that a chunk without completeness takes no
  -- level away from what has been merged
  have hperm : (completion :: (before ++ after)).Perm (before ++ completion :: after) :=
    List.perm_middle.symm
  refine ⟨_, hperm, fun h => ?_⟩
  rcases grouped_run (completion :: (before ++ after)) with ⟨grouped, hrun, hgrouped⟩ | ⟨-, hoverflows⟩
  · rw [coalesceStageCompletions, hrun, ok_bind] at h
    obtain ⟨stored, hstored⟩ :=
      mem_iff.1 ((hgrouped.keys key).2 ⟨completion, List.mem_cons_self, of_decide_eq_true hkey⟩)
    obtain rfl := hgrouped.keyed key stored hstored
    obtain ⟨coverage, hcoverage, haccumulated⟩ := hgrouped.accumulated _ stored hstored
    have hkind : kindOf "completeness" = .list :=
      kind_of_listOf completion.typed (hword _ hcarrier hcarries)
    have hkept : word ∈ listOf coverage "completeness" := by
      have hcons : chunksOf stored.key (completion :: (before ++ after)) =
          completion.coverage :: chunksOf stored.key (before ++ after) := by
        rw [chunksOf, List.filter_cons, if_pos hkey]
        rfl
      have hchunks := chunksOf_perm stored.key hperm
      rw [hcons] at hchunks
      rw [haccumulated.kept hkind, hcons]
      refine ⟨hword _ hcarrier hcarries, fun chunk hchunk => hword chunk ?_⟩
      exact hchunks.subset (List.mem_cons_of_mem _ hchunk)
    cases h with
    | joined _ _ _ join =>
      obtain ⟨coverage', hcoverage', hjoin⟩ := join stored (mem_values.2 ⟨_, hstored⟩)
      obtain rfl := Option.some.inj (hcoverage.symm.trans hcoverage')
      exact hnot (mem_of_listOf ((hjoin.completeness hkind word).1 hkept absent habsent))
  · exact hfits ((overflows_perm hperm).1 hoverflows)

/-- **The chunks of every profile are joined, whatever their order, exactly when a counter overflows or
no chunk without completeness stands beside chunks that share a level.** -/
theorem coalesceStageCompletions_joins_iff (events : List (Completion kindOf)) :
    (∀ events' : List (Completion kindOf), events'.Perm events →
        Coalesces events (coalesceStageCompletions (events'.map Completion.event))) ↔
      Overflows events ∨ ∀ key, ¬ Masked (chunksOf key events) := by
  refine ⟨fun h => or_iff_not_imp_left.2 fun hfits key hmasked => ?_, fun h events' =>
    coalesces_of_not_masked h⟩
  obtain ⟨events', hperm, hnot⟩ := not_coalesces_of_masked hfits hmasked
  exact hnot (h events' hperm)

end

/-! ### A chunk without completeness that comes second -/

namespace ChunkSample

def kindOf (key : String) : FieldKind := if key = "completeness" then .list else .counter

def sites (n : Nat) : Members := (∅ : Members).insert "dependency_sites" (counter n)

theorem sites_typed {n : Nat} (h : n < counterLimit) : Typed kindOf (sites n) := by
  intro key value hvalue
  rw [sites, getElem?_insert] at hvalue
  split_ifs at hvalue with hkey
  · obtain rfl := Option.some.inj hvalue
    subst hkey
    exact ⟨n, h, rfl⟩
  · rw [ExtTreeMap.getElem?_empty] at hvalue
    cases hvalue

def syntaxComplete : Members :=
  (sites 2).insert "completeness" (.array (["syntax-complete"].map .string))

theorem syntaxComplete_typed : Typed kindOf syntaxComplete := by
  intro key value hvalue
  rw [syntaxComplete, getElem?_insert] at hvalue
  split_ifs at hvalue with hkey
  · obtain rfl := Option.some.inj hvalue
    subst hkey
    exact ⟨["syntax-complete"], rfl⟩
  · exact sites_typed (by decide) key value hvalue

/-- A chunk that is complete in its syntax. -/
def complete : Completion kindOf :=
  ⟨"profile_completed", some "web", syntaxComplete, ∅, syntaxComplete_typed⟩

theorem three_fits : 3 < counterLimit := by decide

/-- A chunk of the same profile that attests nothing. -/
def incomplete : Completion kindOf :=
  ⟨"profile_completed", some "web", sites 3, ∅, sites_typed three_fits⟩

/-- The completeness of the one event that comes out. -/
def levelsOf : Except String (List StageCompletion) → List String
  | .ok [completion] => (listOf (completion.coverage.getD ∅) "completeness").toList
  | _ => []

theorem not_coalesces {outcome : Except String (List StageCompletion)}
    (hlevels : levelsOf outcome = ["syntax-complete"]) : ¬ Coalesces [complete, incomplete] outcome := by
  intro h
  cases h with
  | overflow => cases hlevels
  | @joined completions _ _ keys join =>
    obtain ⟨completion, rfl⟩ : ∃ completion, completions = [completion] := by
      cases completions with
      | nil => cases hlevels
      | cons completion rest =>
        cases rest with
        | nil => exact ⟨completion, rfl⟩
        | cons => cases hlevels
    obtain ⟨coverage, hcoverage, hjoin⟩ := join completion List.mem_cons_self
    have hword : "syntax-complete" ∈ listOf coverage "completeness" := by
      rw [levelsOf, hcoverage, Option.getD_some] at hlevels
      rw [← ExtTreeSet.mem_toList, hlevels]
      exact List.mem_cons_self
    have hkey : incomplete.key = completion.key := by
      obtain ⟨other, hother, hkey⟩ := (keys completion.key).1 List.mem_cons_self
      rw [List.mem_pair] at hother
      rcases hother with rfl | rfl <;> exact hkey
    have hchunk : sites 3 ∈ chunksOf completion.key [complete, incomplete] := by
      refine List.mem_map.2 ⟨incomplete, List.mem_filter.2 ⟨?_, decide_eq_true hkey⟩, rfl⟩
      exact List.mem_cons_of_mem _ List.mem_cons_self
    have hmem := mem_of_listOf ((hjoin.completeness rfl _).1 hword _ hchunk)
    rw [sites, ExtTreeMap.mem_insert] at hmem
    revert hmem
    decide +kernel

/-- The complete chunk masks the incomplete one when it comes first, and not when it comes second. -/
theorem complete_first_masks :
    levelsOf (coalesceStageCompletions [complete.event, incomplete.event]) = ["syntax-complete"] ∧
    levelsOf (coalesceStageCompletions [incomplete.event, complete.event]) = [] ∧
    ¬ Coalesces [complete, incomplete]
      (coalesceStageCompletions ([complete, incomplete].map Completion.event)) := by
  have hfirst : levelsOf (coalesceStageCompletions [complete.event, incomplete.event]) =
      ["syntax-complete"] ∧
      levelsOf (coalesceStageCompletions [incomplete.event, complete.event]) = [] := by
    decide +kernel
  exact ⟨hfirst.1, hfirst.2, not_coalesces hfirst.1⟩

end ChunkSample

end Analysis
