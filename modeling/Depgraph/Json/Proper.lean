import Depgraph.Json.Value
import Depgraph.Library.Lookup

/-!
# Values with distinct keys

The library's objects are maps: a key occurs once. `Proper` is the type of the values of which this
holds at every level. On them the equality of the library is reflexive and symmetric.
-/

namespace Json

open Lookup

mutual

/-- No object in the value has a key twice. -/
def Value.distinctKeys : Value → Bool
  | .array xs => distinctItems xs
  | .object ms => decide (ms.map Prod.fst).Nodup && distinctMembers ms
  | _ => true

def distinctItems : List Value → Bool
  | [] => true
  | x :: xs => x.distinctKeys && distinctItems xs

def distinctMembers : List (String × Value) → Bool
  | [] => true
  | (_, v) :: ms => v.distinctKeys && distinctMembers ms

end

/-! ### Members -/

section Members

variable {ms ns : List (String × Value)}

theorem distinctMembers_iff :
    distinctMembers ms = true ↔ ∀ m ∈ ms, m.2.distinctKeys = true := by
  induction ms with
  | nil => simp [distinctMembers]
  | cons m ms ih => simp [distinctMembers, ih]

theorem beqMembers_iff : beqMembers ms ns = true ↔
    ∀ m ∈ ms, ∃ w, ns.lookup m.1 = some w ∧ m.2.beq w = true := by
  induction ms with
  | nil => simp [beqMembers]
  | cons m ms ih =>
    obtain ⟨k, v⟩ := m
    rw [beqMembers, Bool.and_eq_true, ih, List.forall_mem_cons]
    refine and_congr_left fun _ => ?_
    cases ns.lookup k <;> simp

/-- Two maps of one size of which one has the keys of the other have the same keys. -/
theorem keys_subset_of_beqMembers (hms : (ms.map Prod.fst).Nodup)
    (hlength : ms.length = ns.length) (h : beqMembers ms ns = true) :
    ns.map Prod.fst ⊆ ms.map Prod.fst := by
  have hsub : ms.map Prod.fst ⊆ ns.map Prod.fst := by
    intro k hk
    obtain ⟨m, hm, rfl⟩ := List.mem_map.1 hk
    obtain ⟨w, hw, -⟩ := beqMembers_iff.1 h m hm
    exact List.mem_map.2 ⟨_, mem_of_lookup hw, rfl⟩
  have hperm := (hms.subperm hsub).perm_of_length_le (by simp [hlength])
  exact hperm.symm.subset

end Members

/-! ### Equality -/

mutual

theorem Value.beq_refl : (v : Value) → v.distinctKeys = true → v.beq v = true
  | .null, _ => rfl
  | .bool b, _ => beq_self_eq_true b
  | .number n, _ => by
    cases n with
    | int n => exact beq_self_eq_true n
    | float f => exact F64.numEq_refl f
  | .string s, _ => beq_self_eq_true s
  | .array xs, h => by
    rw [Value.distinctKeys] at h
    exact beqItems_refl_of_distinct xs h
  | .object ms, h => by
    rw [Value.distinctKeys, Bool.and_eq_true, decide_eq_true_eq] at h
    rw [Value.beq, beq_self_eq_true, Bool.true_and, beqMembers_iff]
    exact fun m hm => ⟨m.2, lookup_of_mem h.1 hm, beqMember_refl ms h.2 m hm⟩

theorem beqItems_refl_of_distinct : (xs : List Value) → distinctItems xs = true →
    beqItems xs xs = true
  | [], _ => rfl
  | x :: xs, h => by
    rw [distinctItems, Bool.and_eq_true] at h
    rw [beqItems, x.beq_refl h.1, beqItems_refl_of_distinct xs h.2, Bool.and_self]

theorem beqMember_refl : (ms : List (String × Value)) → distinctMembers ms = true →
    ∀ m ∈ ms, m.2.beq m.2 = true
  | [], _ => by simp
  | (_, v) :: ms, h => by
    rw [distinctMembers, Bool.and_eq_true] at h
    exact List.forall_mem_cons.2 ⟨v.beq_refl h.1, beqMember_refl ms h.2⟩

end

mutual

theorem Value.beq_symm : (v w : Value) → v.distinctKeys = true → w.distinctKeys = true →
    v.beq w = true → w.beq v = true
  | .null, w, _, _, h => by cases w <;> simp_all [Value.beq]
  | .bool b, w, _, _, h => by
    cases w <;> simp_all [Value.beq]
  | .number n, w, _, _, h => by
    cases w with
    | number m =>
      cases n with
      | int n => cases m <;> simp_all [Value.beq, Number.numEq]
      | float f =>
        cases m with
        | int m => simp [Value.beq, Number.numEq] at h
        | float g => exact F64.numEq_symm h
    | _ => simp [Value.beq] at h
  | .string s, w, _, _, h => by
    cases w <;> simp_all [Value.beq]
  | .array xs, w, hv, hw, h => by
    cases w with
    | array ys =>
      rw [Value.distinctKeys] at hv hw
      exact beqItems_symm xs ys hv hw h
    | _ => simp [Value.beq] at h
  | .object ms, w, hv, hw, h => by
    cases w with
    | object ns =>
      rw [Value.distinctKeys, Bool.and_eq_true, decide_eq_true_eq] at hv hw
      rw [Value.beq, Bool.and_eq_true, beq_iff_eq] at h ⊢
      refine ⟨h.1.symm, beqMembers_iff.2 fun n hn => ?_⟩
      have hkey := keys_subset_of_beqMembers hv.1 h.1 h.2 (List.mem_map_of_mem hn)
      obtain ⟨m, hm, hmn⟩ := List.mem_map.1 hkey
      obtain ⟨w, hlookup, hbeq⟩ := beqMembers_iff.1 h.2 m hm
      obtain rfl : w = n.2 := by
        rw [hmn, lookup_of_mem hw.1 hn] at hlookup
        exact (Option.some.inj hlookup).symm
      refine ⟨m.2, hmn ▸ lookup_of_mem hv.1 hm, ?_⟩
      exact beqMember_symm ms hv.2 m hm n.2 (distinctMembers_iff.1 hw.2 n hn) hbeq
    | _ => simp [Value.beq] at h

theorem beqItems_symm : (xs ys : List Value) → distinctItems xs = true →
    distinctItems ys = true → beqItems xs ys = true → beqItems ys xs = true
  | [], [], _, _, _ => rfl
  | [], _ :: _, _, _, h => by simp [beqItems] at h
  | _ :: _, [], _, _, h => by simp [beqItems] at h
  | x :: xs, y :: ys, hx, hy, h => by
    rw [distinctItems, Bool.and_eq_true] at hx hy
    rw [beqItems, Bool.and_eq_true] at h ⊢
    exact ⟨x.beq_symm y hx.1 hy.1 h.1, beqItems_symm xs ys hx.2 hy.2 h.2⟩

theorem beqMember_symm : (ms : List (String × Value)) → distinctMembers ms = true →
    ∀ m ∈ ms, ∀ w : Value, w.distinctKeys = true → m.2.beq w = true → w.beq m.2 = true
  | [], _ => by simp
  | (_, v) :: ms, h => by
    rw [distinctMembers, Bool.and_eq_true] at h
    exact List.forall_mem_cons.2 ⟨fun w hw => v.beq_symm w h.1 hw, beqMember_symm ms h.2⟩

end

mutual

theorem Value.beq_trans : (u v w : Value) → u.beq v = true → v.beq w = true → u.beq w = true
  | .null, v, w, h, h' => by cases v <;> cases w <;> simp_all [Value.beq]
  | .bool b, v, w, h, h' => by cases v <;> cases w <;> simp_all [Value.beq]
  | .number m, v, w, h, h' => by
    cases v with
    | number n =>
      cases w with
      | number k =>
        rw [Value.beq] at h h' ⊢
        cases m <;> cases n <;> cases k <;> simp only [Number.numEq, Bool.false_eq_true] at h h' ⊢
        · rw [beq_iff_eq.1 h]
          exact h'
        · exact F64.numEq_trans h h'
      | _ => simp [Value.beq] at h'
    | _ => simp [Value.beq] at h
  | .string s, v, w, h, h' => by cases v <;> cases w <;> simp_all [Value.beq]
  | .array xs, v, w, h, h' => by
    cases v with
    | array ys =>
      cases w with
      | array zs => exact beqItems_trans xs ys zs h h'
      | _ => simp [Value.beq] at h'
    | _ => simp [Value.beq] at h
  | .object ms, v, w, h, h' => by
    cases v with
    | object ns =>
      cases w with
      | object ks =>
        rw [Value.beq, Bool.and_eq_true, beq_iff_eq] at h h' ⊢
        refine ⟨h.1.trans h'.1, beqMembers_iff.2 fun m hm => ?_⟩
        obtain ⟨v, hv, hbeq⟩ := beqMembers_iff.1 h.2 m hm
        obtain ⟨w, hw, hbeq'⟩ := beqMembers_iff.1 h'.2 (m.1, v) (mem_of_lookup hv)
        exact ⟨w, hw, beqMember_trans ms m hm v w hbeq hbeq'⟩
      | _ => simp [Value.beq] at h'
    | _ => simp [Value.beq] at h

theorem beqItems_trans : (xs ys zs : List Value) → beqItems xs ys = true →
    beqItems ys zs = true → beqItems xs zs = true
  | [], [], [], _, _ => rfl
  | [], [], _ :: _, _, h => by simp [beqItems] at h
  | [], _ :: _, _, h, _ => by simp [beqItems] at h
  | _ :: _, [], _, h, _ => by simp [beqItems] at h
  | _ :: _, _ :: _, [], _, h => by simp [beqItems] at h
  | x :: xs, y :: ys, z :: zs, h, h' => by
    rw [beqItems, Bool.and_eq_true] at h h' ⊢
    exact ⟨x.beq_trans y z h.1 h'.1, beqItems_trans xs ys zs h.2 h'.2⟩

theorem beqMember_trans : (ms : List (String × Value)) → ∀ m ∈ ms, ∀ v w : Value,
    m.2.beq v = true → v.beq w = true → m.2.beq w = true
  | [], _ => by simp
  | (_, u) :: ms, m => by
    intro hm
    rcases List.mem_cons.1 hm with rfl | hm
    · exact fun v w => u.beq_trans v w
    · exact beqMember_trans ms m hm

end

/-! ### The type -/

/-- `Value::get`: a member of an object. -/
def Value.member (v : Value) (key : String) : Option Value :=
  match v with
  | .object ms => ms.lookup key
  | _ => none

theorem distinctKeys_member {v : Value} {key : String} (h : v.distinctKeys = true) :
    ∀ w ∈ v.member key, w.distinctKeys = true := by
  intro w hw
  cases v with
  | object ms =>
    rw [Value.distinctKeys, Bool.and_eq_true] at h
    exact distinctMembers_iff.1 h.2 _ (mem_of_lookup hw)
  | _ => cases hw

/-- An equality that does not depend on the order of its sides. -/
class CommBEq (α : Type) [BEq α] : Prop where
  comm (a b : α) : (a == b) = (b == a)

instance {α : Type} [BEq α] [LawfulBEq α] : CommBEq α where
  comm a b := Bool.eq_iff_iff.2 (by rw [beq_iff_eq, beq_iff_eq, eq_comm])

instance {α : Type} [BEq α] [CommBEq α] : CommBEq (Option α) where
  comm a b := by
    cases a with
    | none => cases b <;> rfl
    | some a =>
      cases b with
      | none => rfl
      | some b => exact CommBEq.comm a b

instance {α β : Type} [BEq α] [CommBEq α] [BEq β] [CommBEq β] : CommBEq (α × β) where
  comm a b := by
    show (a.1 == b.1 && a.2 == b.2) = (b.1 == a.1 && b.2 == a.2)
    rw [CommBEq.comm a.1, CommBEq.comm a.2]

/-- A value as the library builds it. -/
structure Proper where
  value : Value
  distinct : value.distinctKeys = true

namespace Proper

instance : BEq Proper := ⟨fun v w => v.value.beq w.value⟩

instance : ReflBEq Proper := ⟨fun {v} => v.value.beq_refl v.distinct⟩

instance : CommBEq Proper where
  comm v w := Bool.eq_iff_iff.2 ⟨v.value.beq_symm w.value v.distinct w.distinct,
    w.value.beq_symm v.value w.distinct v.distinct⟩

def null : Proper := ⟨.null, rfl⟩
def bool (b : Bool) : Proper := ⟨.bool b, rfl⟩
def int (n : Int) : Proper := ⟨.number (.int n), rfl⟩
def string (s : String) : Proper := ⟨.string s, rfl⟩

theorem distinctKeys_strings (values : List String) :
    (Value.array (values.map .string)).distinctKeys = true := by
  rw [Value.distinctKeys]
  induction values with
  | nil => rfl
  | cons s values ih => rw [List.map_cons, distinctItems, ih]; rfl

def strings (values : List String) : Proper := ⟨_, distinctKeys_strings values⟩

/-- The value that is there, or `null`. -/
def ofOption {α : Type} (f : α → Proper) (value : Option α) : Proper := value.elim null f

theorem distinctKeys_ofMembers {members : List (String × Proper)}
    (h : (members.map Prod.fst).Nodup) :
    (Value.object (members.map fun m => (m.1, m.2.value))).distinctKeys = true := by
  rw [Value.distinctKeys, Bool.and_eq_true, decide_eq_true_eq, List.map_map, distinctMembers_iff]
  refine ⟨h, fun m hm => ?_⟩
  obtain ⟨member, -, rfl⟩ := List.mem_map.1 hm
  exact member.2.distinct

/-- The object with these members. -/
def object (members : List (String × Proper)) (h : (members.map Prod.fst).Nodup) : Proper :=
  ⟨_, distinctKeys_ofMembers h⟩

/-- A member of an object. -/
def get (v : Proper) (key : String) : Option Proper :=
  (v.value.member key).pmap Proper.mk (distinctKeys_member v.distinct)

def asStr (v : Proper) : Option String :=
  match v.value with
  | .string s => some s
  | _ => none

end Proper

end Json
