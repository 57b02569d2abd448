import Depgraph.Protocol.CanonicalValue

/-!
# Values without doubles

Equal values may have different texts, as `0.0` and `-0.0` do. Values without doubles are equal only
if they have one canonical form: equality of their objects does not depend on the order of the
members, and neither does the canonical form.
-/

namespace Protocol

open Json SortDedup Lookup

mutual

/-- No number in the value is a double. -/
def floatless : Value → Bool
  | .number (.float _) => false
  | .array items => itemsFloatless items
  | .object members => membersFloatless members
  | _ => true

def itemsFloatless : List Value → Bool
  | [] => true
  | v :: vs => floatless v && itemsFloatless vs

def membersFloatless : List (String × Value) → Bool
  | [] => true
  | (_, v) :: ms => floatless v && membersFloatless ms

end

theorem itemsFloatless_iff {vs : List Value} :
    itemsFloatless vs = true ↔ ∀ v ∈ vs, floatless v = true := by
  induction vs with
  | nil => simp [itemsFloatless]
  | cons v vs ih => simp [itemsFloatless, ih]

theorem membersFloatless_iff {ms : List (String × Value)} :
    membersFloatless ms = true ↔ ∀ m ∈ ms, floatless m.2 = true := by
  induction ms with
  | nil => simp [membersFloatless]
  | cons m ms ih => simp [membersFloatless, ih]

/-- Objects of one size of which one has the members of the other have one canonical form. -/
theorem canonicalValue_object_eq {ms ns : List (String × Value)} (hms : (ms.map Prod.fst).Nodup)
    (hlength : ms.length = ns.length)
    (h : ∀ m ∈ ms, ∃ n ∈ ns, n.1 = m.1 ∧ canonicalValue m.2 = canonicalValue n.2) :
    canonicalValue (.object ms) = canonicalValue (.object ns) := by
  have hkeys : (canonicalMembers ms).map Prod.fst = ms.map Prod.fst := by
    rw [canonicalMembers_eq_map, List.map_map]
    rfl
  have hnodup : ((canonicalMembers ms).map Prod.fst).Nodup := hkeys ▸ hms
  have hsub : canonicalMembers ms ⊆ canonicalMembers ns := by
    rw [canonicalMembers_eq_map, canonicalMembers_eq_map]
    intro made hmade
    obtain ⟨m, hm, rfl⟩ := List.mem_map.1 hmade
    obtain ⟨n, hn, hkey, hvalue⟩ := h m hm
    exact List.mem_map.2 ⟨n, hn, Prod.ext hkey hvalue.symm⟩
  have hperm := ((List.Nodup.of_map _ hnodup).subperm hsub).perm_of_length_le (by
    rw [canonicalMembers_eq_map, canonicalMembers_eq_map, List.length_map, List.length_map, hlength])
  rw [canonicalValue, canonicalValue, sortByKey_congr Prod.fst hnodup hperm]

mutual

/-- **Equal values without doubles have one canonical form.** -/
theorem canonicalValue_eq_of_beq : (v w : Value) → floatless v = true → v.distinctKeys = true →
    v.beq w = true → canonicalValue v = canonicalValue w
  | .null, w, _, _, h => by cases w <;> simp_all [canonicalValue, Value.beq]
  | .bool b, w, _, _, h => by cases w <;> simp_all [canonicalValue, Value.beq]
  | .number (.int n), w, _, _, h => by
    cases w with
    | number m => cases m <;> simp_all [Value.beq, Number.numEq]
    | _ => simp [Value.beq] at h
  | .number (.float f), _, hf, _, _ => by simp [floatless] at hf
  | .string s, w, _, _, h => by cases w <;> simp_all [canonicalValue, Value.beq]
  | .array xs, w, hf, hd, h => by
    cases w with
    | array ys =>
      rw [floatless] at hf
      rw [Value.distinctKeys] at hd
      rw [Value.beq] at h
      rw [canonicalValue, canonicalValue, canonicalItems_eq_of_beq xs ys hf hd h]
    | _ => simp [Value.beq] at h
  | .object ms, w, hf, hd, h => by
    cases w with
    | object ns =>
      rw [floatless] at hf
      rw [Value.distinctKeys, Bool.and_eq_true, decide_eq_true_eq] at hd
      rw [Value.beq, Bool.and_eq_true, beq_iff_eq, beqMembers_iff] at h
      refine canonicalValue_object_eq hd.1 h.1 fun m hm => ?_
      obtain ⟨w, hw, hbeq⟩ := h.2 m hm
      exact ⟨(m.1, w), mem_of_lookup hw, rfl, canonicalMember_eq_of_beq ms m hm w
        (membersFloatless_iff.1 hf m hm) (distinctMembers_iff.1 hd.2 m hm) hbeq⟩
    | _ => simp [Value.beq] at h

theorem canonicalItems_eq_of_beq : (xs ys : List Value) → itemsFloatless xs = true →
    distinctItems xs = true → beqItems xs ys = true → canonicalItems xs = canonicalItems ys
  | [], [], _, _, _ => rfl
  | [], _ :: _, _, _, h => by simp [beqItems] at h
  | _ :: _, [], _, _, h => by simp [beqItems] at h
  | x :: xs, y :: ys, hf, hd, h => by
    rw [itemsFloatless, Bool.and_eq_true] at hf
    rw [distinctItems, Bool.and_eq_true] at hd
    rw [beqItems, Bool.and_eq_true] at h
    rw [canonicalItems, canonicalItems, canonicalValue_eq_of_beq x y hf.1 hd.1 h.1,
      canonicalItems_eq_of_beq xs ys hf.2 hd.2 h.2]

theorem canonicalMember_eq_of_beq : (ms : List (String × Value)) → ∀ m ∈ ms, ∀ w : Value,
    floatless m.2 = true → m.2.distinctKeys = true → m.2.beq w = true →
      canonicalValue m.2 = canonicalValue w
  | [], _ => by simp
  | (_, v) :: ms, m => by
    intro hm
    rcases List.mem_cons.1 hm with rfl | hm
    · exact fun w => canonicalValue_eq_of_beq v w
    · exact canonicalMember_eq_of_beq ms m hm

end

end Protocol
