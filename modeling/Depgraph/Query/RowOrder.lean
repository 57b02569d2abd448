import Depgraph.Library.TopSorted
import Depgraph.Protocol.CanonicalSize
import Depgraph.Protocol.Floatless
import Depgraph.Query.Execute

/-!
# The order of rows

`row_order` compares rows column by column and then by their text. It is a total preorder of all
rows, whatever the types of their values, as values of different types are compared by the first
characters of their texts. So the rows that a run keeps, one insertion at a time, are the first ones
of all rows that it was given.
-/

namespace Query

open Json Protocol OrderedMap Metered Std
open Store hiding GraphSnapshot

/-! ### Values -/

/-- The types of values in the order of their first characters. -/
def rank : Value → Nat
  | .string _ => 0
  | .number _ => 1
  | .array _ => 2
  | .bool false => 3
  | .null => 4
  | .bool true => 5
  | .object _ => 6

/-- The first characters of the values of a rank, as code points. -/
def headRange : Nat → Nat × Nat
  | 0 => (34, 34)
  | 1 => (45, 57)
  | 2 => (91, 91)
  | 3 => (102, 102)
  | 4 => (110, 110)
  | 5 => (116, 116)
  | _ => (123, 123)

theorem headRange_lt : ∀ a < 7, ∀ b < 7, a < b → (headRange a).2 < (headRange b).1 := by decide

theorem rank_lt (v : Value) : rank v < 7 := by
  cases v with
  | bool b => cases b <;> decide
  | _ => simp [rank]

theorem rank_canonicalValue (v : Value) : rank (canonicalValue v) = rank v := by
  cases v with
  | bool b => cases b <;> rfl
  | _ => rfl

theorem mem_headRange {v : Value} {c : Char} (h : Head v c) :
    (headRange (rank v)).1 ≤ c.toNat ∧ c.toNat ≤ (headRange (rank v)).2 := by
  cases h with
  | number n h =>
    rcases h with h | rfl
    · have h : 48 ≤ c.toNat ∧ c.toNat ≤ 57 := by
        simpa [Char.isDigit, UInt32.le_iff_toNat_le] using h
      exact ⟨by simp only [rank, headRange]; omega, h.2⟩
    · simp [rank, headRange]
  | _ => simp [rank, headRange]

section Order

variable (E : Executor)

/-- Values of different ranks have their texts in the order of the ranks. -/
theorem canonicalJson_lt_of_rank_lt {v w : Value} (h : rank v < rank w) :
    compare (canonicalJson E.floatText v) (canonicalJson E.floatText w) = .lt := by
  obtain ⟨c, rest, hv, hc⟩ := text_cons E.floatText (canonicalValue v)
  obtain ⟨d, rest', hw, hd⟩ := text_cons E.floatText (canonicalValue w)
  have hcd : c.toNat < d.toNat := by
    have hlt := headRange_lt _ (rank_lt v) _ (rank_lt w) h
    have hc := (mem_headRange hc).2
    have hd := (mem_headRange hd).1
    rw [rank_canonicalValue] at hc hd
    omega
  rw [compare_lt_iff_lt, String.lt_iff_toList_lt, canonicalJson, canonicalJson, hv, hw,
    String.toList_ofList, String.toList_ofList]
  exact List.cons_lt_cons_iff.2 (.inl hcd)

/-- What is compared in values of one rank. -/
def payload (v : Value) : String × Option Nat × String :=
  match v with
  | .string s => (s, none, "")
  | .number n => ("", asU64 n, "")
  | .array _ | .object _ => ("", none, canonicalJson E.floatText v)
  | _ => ("", none, "")

theorem plainOrder_swap (v w : Value) : E.plainOrder v w = (E.plainOrder w v).swap := by
  cases v <;> cases w <;> simp only [Executor.plainOrder] <;> exact OrientedCmp.eq_swap

theorem plainOrder_of_rank_lt {v w : Value} (h : rank v < rank w) : E.plainOrder v w = .lt := by
  unfold Executor.plainOrder
  split
  · exact absurd h (Nat.lt_irrefl 0)
  · exact absurd h (Nat.lt_irrefl 1)
  · rename_i b c
    cases b <;> cases c <;> first | rfl | exact absurd h (by decide)
  · exact canonicalJson_lt_of_rank_lt E h

/-- The comparison of what is compared in one rank. -/
def payloadOrder (left right : Value) : Ordering :=
  compareLex (compareOn fun v => (payload E v).1)
    (compareLex (compareOn fun v => (payload E v).2.1) (compareOn fun v => (payload E v).2.2))
    left right

theorem plainOrder_of_rank_eq {v w : Value} (h : rank v = rank w) :
    E.plainOrder v w = payloadOrder E v w := by
  unfold payloadOrder compareLex compareOn
  cases v with
  | string s =>
    cases w with
    | string t => simp [Executor.plainOrder, payload]
    | bool b => cases b <;> cases h
    | _ => cases h
  | number m =>
    cases w with
    | number n => simp [Executor.plainOrder, payload]
    | bool b => cases b <;> cases h
    | _ => cases h
  | bool b =>
    cases w with
    | bool c =>
      cases b <;> cases c
      · simp [Executor.plainOrder, payload]
      · cases h
      · cases h
      · simp [Executor.plainOrder, payload]
    | _ => cases b <;> cases h
  | null =>
    cases w with
    | null => simp [Executor.plainOrder, payload]
    | bool b => cases b <;> cases h
    | _ => cases h
  | array xs =>
    cases w with
    | array ys => simp [Executor.plainOrder, payload]
    | bool b => cases b <;> cases h
    | _ => cases h
  | object ms =>
    cases w with
    | object ns => simp [Executor.plainOrder, payload]
    | bool b => cases b <;> cases h
    | _ => cases h

/-- **The comparison is by rank** and then by what is compared in one rank. -/
theorem plainOrder_eq (v w : Value) : E.plainOrder v w =
    (compare (rank v) (rank w)).then (payloadOrder E v w) := by
  rcases Nat.lt_trichotomy (rank v) (rank w) with h | h | h
  · rw [plainOrder_of_rank_lt E h, compare_lt_iff_lt.2 h]
    rfl
  · rw [plainOrder_of_rank_eq E h, h, Std.compare_eq_iff_eq.2 rfl]
    rfl
  · rw [plainOrder_swap, plainOrder_of_rank_lt E h, compare_gt_iff_gt.2 h]
    rfl

instance instTransCmpPlainOrder : TransCmp E.plainOrder := by
  have h : E.plainOrder = compareLex (compareOn rank) (compareLex (compareOn fun v => (payload E v).1)
      (compareLex (compareOn fun v => (payload E v).2.1) (compareOn fun v => (payload E v).2.2))) :=
    funext₂ (plainOrder_eq E)
  rw [h]
  infer_instance

/-- Whether a value is not null. -/
def notNull : Value → Bool
  | .null => false
  | _ => true

/-- The comparison in a direction. -/
def directedOrder (direction : SortDirection) (left right : Value) : Ordering :=
  match direction with
  | .ascending => E.plainOrder left right
  | .descending => E.plainOrder right left

instance instTransCmpDirectedOrder (direction : SortDirection) :
    TransCmp (directedOrder E direction) := by
  cases direction with
  | ascending => exact instTransCmpPlainOrder E
  | descending => exact inferInstanceAs (TransCmp fun a b => E.plainOrder b a)

theorem orderedValue_eq (direction : SortDirection) (left right : Value) :
    E.orderedValue direction left right =
      compareLex (compareOn notNull) (directedOrder E direction) left right := by
  unfold Executor.orderedValue
  split
  case h_1 =>
    rw [compareLex, compareOn, (ReflCmp.compare_self : directedOrder E direction .null .null = .eq)]
    rfl
  case h_2 hright =>
    have hnull : notNull right = true := by
      cases right with
      | null => exact absurd rfl hright
      | _ => rfl
    rw [compareLex, compareOn, hnull]
    rfl
  case h_3 hleft =>
    have hnull : notNull left = true := by
      cases left with
      | null => exact absurd rfl hleft
      | _ => rfl
    rw [compareLex, compareOn, hnull]
    rfl
  case h_4 hleft hright _ =>
    have hnull {v : Value} (hv : v ≠ .null) : notNull v = true := by
      cases v with
      | null => exact absurd rfl hv
      | _ => rfl
    rw [compareLex, compareOn, hnull hleft, hnull hright]
    cases direction with
    | ascending => rfl
    | descending => exact (plainOrder_swap E _ _).symm

instance instTransCmpOrderedValue (direction : SortDirection) : TransCmp (E.orderedValue direction) := by
  rw [show E.orderedValue direction = compareLex (compareOn notNull) (directedOrder E direction) from
    funext₂ (orderedValue_eq E direction)]
  infer_instance

/-- A comparison of what a function gives. -/
theorem transCmp_comap {α β : Type} (cmp : β → β → Ordering) [TransCmp cmp] (f : α → β) :
    TransCmp fun a b => cmp (f a) (f b) where
  eq_swap {a b} := (OrientedCmp.eq_swap : cmp (f a) (f b) = (cmp (f b) (f a)).swap)
  isLE_trans {a _ c} hab hbc :=
    (TransCmp.isLE_trans hab hbc : (cmp (f a) (f c)).isLE)

theorem transCmp_rowOrderBy (items : List TypedOrderItem) :
    TransCmp fun left right => E.rowOrderBy left right items := by
  induction items with
  | nil =>
    exact transCmp_comap compare fun row : List Value =>
      canonicalJson E.floatText (.array row)
  | cons item items ih =>
    simp only [Executor.rowOrderBy]
    split
    · exact ih
    · rename_i index _
      have hcolumn := transCmp_comap (E.orderedValue item.direction)
        fun row : List Value => Executor.column row index
      exact inferInstanceAs (TransCmp (compareLex (fun left right =>
        E.orderedValue item.direction (Executor.column left index) (Executor.column right index))
        fun left right => E.rowOrderBy left right items))

/-- **The order of rows is a total preorder.** -/
instance instTransCmpRowOrder : TransCmp E.rowOrder := transCmp_rowOrderBy E E.query.orderBy

/-- A row is not greater than another. -/
def NotGreater (left right : List Value) : Prop := (E.rowOrder left right).isLE = true

instance instDecidableRelNotGreater : DecidableRel (NotGreater E) := fun _ _ =>
  inferInstanceAs (Decidable (_ = true))

instance instTotalNotGreater : Std.Total (NotGreater E) where
  total left right := by
    unfold NotGreater
    rw [(OrientedCmp.eq_swap : E.rowOrder right left = (E.rowOrder left right).swap)]
    cases E.rowOrder left right <;> simp

instance instTransNotGreater : IsTrans (List Value) (NotGreater E) where
  trans left _ right h h' := (TransCmp.isLE_trans h h' : (E.rowOrder left right).isLE)

/-! ### Equal rows -/

theorem notNull_canonicalValue (v : Value) : notNull (canonicalValue v) = notNull v := by
  cases v <;> rfl

variable {E}

/-- Values with one canonical form are not told apart. -/
theorem plainOrder_of_canonicalValue {v w : Value} (h : canonicalValue v = canonicalValue w) :
    E.plainOrder v w = .eq := by
  have hrank : rank v = rank w := by rw [← rank_canonicalValue, h, rank_canonicalValue]
  have hpayload : payload E v = payload E w := by
    have htext : canonicalJson E.floatText v = canonicalJson E.floatText w := by
      rw [canonicalJson, canonicalJson, h]
    -- arrays and objects are compared by their texts
    cases v <;> cases w <;> simp_all [canonicalValue, payload]
  rw [plainOrder_of_rank_eq E hrank, payloadOrder, compareLex, compareLex, compareOn, compareOn,
    compareOn, hpayload]
  simp

theorem orderedValue_of_canonicalValue {v w : Value} (h : canonicalValue v = canonicalValue w)
    (direction : SortDirection) : E.orderedValue direction v w = .eq := by
  have hnull : notNull v = notNull w := by
    rw [← notNull_canonicalValue, h, notNull_canonicalValue]
  have hdirected : directedOrder E direction v w = .eq := by
    cases direction with
    | ascending => exact plainOrder_of_canonicalValue h
    | descending => exact plainOrder_of_canonicalValue h.symm
  rw [orderedValue_eq, compareLex, compareOn, hnull, hdirected]
  simp

/-- Rows with one canonical form are not told apart. -/
theorem rowOrder_of_canonicalItems {left right : List Value}
    (h : canonicalItems left = canonicalItems right) : E.rowOrder left right = .eq := by
  have hcolumn (index : Nat) : canonicalValue (Executor.column left index) =
      canonicalValue (Executor.column right index) := by
    rw [canonicalItems_eq_map, canonicalItems_eq_map] at h
    have hget := congrArg (fun row : List Value => row[index]?) h
    simp only [List.getElem?_map] at hget
    unfold Executor.column
    cases hleft : left[index]? with
    | none =>
      cases hright : right[index]? with
      | none => rfl
      | some w => rw [hleft, hright] at hget; cases hget
    | some v =>
      cases hright : right[index]? with
      | none => rw [hleft, hright] at hget; cases hget
      | some w =>
        rw [hleft, hright] at hget
        exact Option.some.inj hget
  unfold Executor.rowOrder
  induction E.query.orderBy with
  | nil =>
    rw [Executor.rowOrderBy, canonicalJson, canonicalJson, canonicalValue, canonicalValue, h]
    exact ReflCmp.compare_self
  | cons item items ih =>
    rw [Executor.rowOrderBy]
    split
    · exact ih
    · rw [orderedValue_of_canonicalValue (hcolumn _), ih]
      rfl

/-- A value of a row: without doubles and repeated keys. -/
def Sound (v : Value) : Prop := floatless v = true ∧ v.distinctKeys = true

theorem canonicalItems_of_beq {left right : List Value} (hleft : ∀ v ∈ left, Sound v)
    (h : (left == right) = true) : canonicalItems left = canonicalItems right := by
  induction left generalizing right with
  | nil =>
    cases right with
    | nil => rfl
    | cons w right => cases h
  | cons v left ih =>
    cases right with
    | nil => cases h
    | cons w right =>
      rw [List.cons_beq_cons, Bool.and_eq_true] at h
      have hv := hleft v List.mem_cons_self
      rw [canonicalItems, canonicalItems, canonicalValue_eq_of_beq v w hv.1 hv.2 h.1,
        ih (fun v hv => hleft v (List.mem_cons_of_mem _ hv)) h.2]

end Order

/-! ### The rows of a run -/

section Sound

theorem sound_string (s : String) : Sound (.string s) := ⟨rfl, rfl⟩

theorem sound_nat (n : Nat) : Sound (natValue n) := ⟨rfl, rfl⟩

theorem sound_bool (b : Bool) : Sound (.bool b) := ⟨rfl, rfl⟩

theorem sound_optionalString (s : Option String) : Sound (optionalString s) := by
  cases s <;> exact ⟨rfl, rfl⟩

theorem sound_array {vs : List Value} (h : ∀ v ∈ vs, Sound v) : Sound (.array vs) := by
  refine ⟨itemsFloatless_iff.2 fun v hv => (h v hv).1, ?_⟩
  rw [Value.distinctKeys]
  induction vs with
  | nil => rfl
  | cons v vs ih =>
    rw [distinctItems, (h v List.mem_cons_self).2, ih fun v hv => h v (List.mem_cons_of_mem _ hv)]
    rfl

theorem sound_object {ms : List (String × Value)} (hkeys : (ms.map Prod.fst).Nodup)
    (h : ∀ m ∈ ms, Sound m.2) : Sound (.object ms) := by
  refine ⟨membersFloatless_iff.2 fun m hm => (h m hm).1, ?_⟩
  rw [Value.distinctKeys, Bool.and_eq_true, decide_eq_true_eq, distinctMembers_iff]
  exact ⟨hkeys, fun m hm => (h m hm).2⟩

theorem sound_closedNodeValue (node : NodeRecord) : Sound (Executor.closedNodeValue node) :=
  sound_object (by simp) (by simp [sound_string])

theorem sound_closedEdgeValue (E : Executor) (edge : EdgeRecord) : Sound (E.closedEdgeValue edge) :=
  sound_object (by simp) (by simp [sound_string, sound_bool])

theorem sound_closedSiteValue (E : Executor) (site : SiteRecord) : Sound (E.closedSiteValue site) :=
  sound_object (by simp) (by simp [sound_string, sound_optionalString])

theorem sound_closedEvidenceValue (evidence : EvidenceRecord) :
    Sound (Executor.closedEvidenceValue evidence) :=
  sound_object (by simp) (by simp [sound_string, sound_nat])

theorem sound_entityFieldValue {F : FloatText} {entity : EntityView} {field : String} {v : Value}
    (h : entityFieldValue F entity field = some v) : Sound v := by
  cases entity <;> dsimp only [entityFieldValue] at h <;> split at h <;> first
    | (obtain rfl := Option.some.inj h
       simp only [sound_string, sound_nat, sound_bool, sound_optionalString])
    | (split_ifs at h
       obtain rfl := Option.some.inj h
       exact sound_nat _)
    | cases h

theorem sound_pathValue {E : Executor} {S : StableIds} {source target : NodeRecord}
    {witness : Witness} {path : Value} (h : E.pathValue S source target witness = .ok path) :
    Sound path := by
  obtain ⟨nodes, -, h⟩ := Fallible.bind_eq_ok.1 h
  obtain ⟨edges, -, h⟩ := Fallible.bind_eq_ok.1 h
  obtain rfl := Except.ok.inj h
  have hmap {T : Type} {f : T → Value} (hf : ∀ t, Sound (f t)) (l : List T) :
      Sound (.array (l.map f)) := by
    refine sound_array fun v hv => ?_
    obtain ⟨t, -, rfl⟩ := List.mem_map.1 hv
    exact hf t
  refine sound_object (by simp) ?_
  simp [sound_string, sound_nat, hmap sound_closedNodeValue, hmap (sound_closedEdgeValue E),
    hmap (sound_closedSiteValue E), hmap sound_closedEvidenceValue]

theorem sound_projectValue {E : Executor} {source target : NodeRecord} {witness : Witness}
    {path v : Value} (hpath : Sound path) {projection : TypedProjection}
    (h : E.projectValue source target witness path projection = .ok v) : Sound v := by
  cases projection with
  | binding binding =>
    rw [Executor.projectValue] at h
    cases hentity : binding.entityType with
    | node =>
      rw [hentity] at h
      exact Except.ok.inj h ▸ sound_closedNodeValue _
    | path =>
      rw [hentity] at h
      exact Except.ok.inj h ▸ hpath
    | edge => rw [hentity] at h; cases h
    | site => rw [hentity] at h; cases h
    | evidence => rw [hentity] at h; cases h
  | field field =>
    obtain ⟨entity, -, h⟩ := Fallible.bind_eq_ok.1 h
    unfold Executor.projectedField at h
    split at h
    case h_1 value hvalue => exact Except.ok.inj h ▸ sound_entityFieldValue hvalue
    case h_2 => cases h

/-- **The values of a row** have no doubles and no repeated keys. -/
theorem sound_projectRow {E : Executor} {S : StableIds} {source target : NodeRecord}
    {witness : Witness} {row : List Value}
    (h : E.projectRow S source target witness = .ok row) : ∀ v ∈ row, Sound v := by
  obtain ⟨path, hpath, h⟩ := Fallible.bind_eq_ok.1 h
  intro v hv
  obtain ⟨projection, -, hprojection⟩ := Fallible.exists_of_mem_mapM h hv
  exact sound_projectValue (sound_pathValue hpath) hprojection

end Sound

/-! ### The rows that are kept -/

open TopSorted

/-- The first rows of all, without repetitions if the query asks for distinct rows. -/
def firstRows (E : Executor) (made : List (List Value)) : List (List Value) :=
  ((if E.query.returnClause.distinct then firsts (· == ·) made else made).insertionSort
    (NotGreater E)).take E.query.limit

theorem stage_eq (E : Executor) (rows : List (List Value)) (row : List Value) :
    E.stage rows row = if E.query.returnClause.distinct then
      enterNew (· == ·) (NotGreater E) E.query.limit rows row
    else enter (NotGreater E) E.query.limit rows row := by
  unfold Executor.stage enterNew
  cases E.query.returnClause.distinct with
  | false => rfl
  | true =>
    rw [Bool.true_and]
    rfl

/-- **What is kept of the rows, one insertion at a time, are the first of all of them.** -/
theorem foldl_stage (E : Executor) {made : List (List Value)}
    (hmade : ∀ row ∈ made, ∀ v ∈ row, Sound v) : made.foldl E.stage [] = firstRows E made := by
  unfold firstRows
  cases hdistinct : E.query.returnClause.distinct with
  | false =>
    have hstage : E.stage = enter (NotGreater E) E.query.limit := by
      funext rows row
      rw [stage_eq, hdistinct]
      rfl
    rw [hstage]
    exact foldl_enter _ _
  | true =>
    have hstage : E.stage = enterNew (· == ·) (NotGreater E) E.query.limit := by
      funext rows row
      rw [stage_eq, hdistinct]
      rfl
    rw [hstage]
    refine foldl_enterNew _ fun left hleft right _ hsame => ?_
    rw [NotGreater, rowOrder_of_canonicalItems (canonicalItems_of_beq (hmade left hleft) hsame)]
    rfl

end Query
