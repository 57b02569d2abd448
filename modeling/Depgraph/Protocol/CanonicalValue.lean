import Depgraph.Json.Proper
import Depgraph.Json.Text
import Depgraph.Protocol.StableId

/-!
# Values with one canonical form

Values with one canonical text have one canonical form. They are equal, and so are their members: what
looks members up by name cannot tell them apart.
-/

namespace Protocol

open Json SortDedup Lookup

theorem canonicalMembers_eq_map (members : List (String × Value)) :
    canonicalMembers members = members.map fun member => (member.1, canonicalValue member.2) := by
  induction members with
  | nil => rfl
  | cons member members ih => rw [canonicalMembers, ih, List.map_cons]

theorem canonicalValue_of_canonicalJson {F : FloatText} {v w : Value}
    (h : canonicalJson F v = canonicalJson F w) : canonicalValue v = canonicalValue w :=
  text_injective F (String.ofList_injective h)

/-- Objects with one canonical form have the same members, but for their order. -/
theorem canonicalMembers_perm {ms ns : List (String × Value)}
    (h : canonicalValue (.object ms) = canonicalValue (.object ns)) :
    (canonicalMembers ms).Perm (canonicalMembers ns) := by
  rw [canonicalValue, canonicalValue, Value.object.injEq] at h
  exact (sortByKey_perm Prod.fst _).symm.trans (h ▸ sortByKey_perm Prod.fst _)

theorem exists_member_of_canonicalValue {ms ns : List (String × Value)}
    (h : canonicalValue (.object ms) = canonicalValue (.object ns)) {m : String × Value}
    (hm : m ∈ ms) : ∃ n ∈ ns, n.1 = m.1 ∧ canonicalValue m.2 = canonicalValue n.2 := by
  have hmem : (m.1, canonicalValue m.2) ∈ canonicalMembers ns := by
    refine (canonicalMembers_perm h).subset ?_
    rw [canonicalMembers_eq_map]
    exact List.mem_map_of_mem hm
  rw [canonicalMembers_eq_map] at hmem
  obtain ⟨n, hn, heq⟩ := List.mem_map.1 hmem
  exact ⟨n, hn, (Prod.mk.inj heq).1, (Prod.mk.inj heq).2.symm⟩

mutual

/-- **Values with one canonical form are equal.** -/
theorem beq_of_canonicalValue : (v w : Value) → w.distinctKeys = true →
    canonicalValue v = canonicalValue w → v.beq w = true
  | .null, w, _, h => by cases w <;> simp_all [canonicalValue, Value.beq]
  | .bool b, w, _, h => by cases w <;> simp_all [canonicalValue, Value.beq]
  | .number n, w, hw, h => by
    cases w with
    | number m =>
      simp only [canonicalValue, Value.number.injEq] at h
      exact h ▸ (Value.number m).beq_refl hw
    | _ => simp [canonicalValue] at h
  | .string s, w, _, h => by cases w <;> simp_all [canonicalValue, Value.beq]
  | .array xs, w, hw, h => by
    cases w with
    | array ys =>
      rw [Value.distinctKeys] at hw
      rw [canonicalValue, canonicalValue, Value.array.injEq] at h
      exact beqItems_of_canonicalItems xs ys hw h
    | _ => simp [canonicalValue] at h
  | .object ms, w, hw, h => by
    cases w with
    | object ns =>
      have hlength := (canonicalMembers_perm h).length_eq
      rw [canonicalMembers_eq_map, canonicalMembers_eq_map, List.length_map, List.length_map] at hlength
      rw [Value.distinctKeys, Bool.and_eq_true, decide_eq_true_eq] at hw
      rw [Value.beq, Bool.and_eq_true, beq_iff_eq, beqMembers_iff]
      refine ⟨hlength, fun m hm => ?_⟩
      obtain ⟨n, hn, hkey, hvalue⟩ := exists_member_of_canonicalValue h hm
      refine ⟨n.2, hkey ▸ lookup_of_mem hw.1 hn, ?_⟩
      exact beqMember_of_canonicalValue ms m hm n.2 (distinctMembers_iff.1 hw.2 n hn) hvalue
    | _ => simp [canonicalValue] at h

theorem beqItems_of_canonicalItems : (xs ys : List Value) → distinctItems ys = true →
    canonicalItems xs = canonicalItems ys → beqItems xs ys = true
  | [], [], _, _ => rfl
  | [], _ :: _, _, h => by simp [canonicalItems] at h
  | _ :: _, [], _, h => by simp [canonicalItems] at h
  | x :: xs, y :: ys, hy, h => by
    rw [distinctItems, Bool.and_eq_true] at hy
    rw [canonicalItems, canonicalItems, List.cons.injEq] at h
    rw [beqItems, Bool.and_eq_true]
    exact ⟨beq_of_canonicalValue x y hy.1 h.1, beqItems_of_canonicalItems xs ys hy.2 h.2⟩

theorem beqMember_of_canonicalValue : (ms : List (String × Value)) → ∀ m ∈ ms, ∀ w : Value,
    w.distinctKeys = true → canonicalValue m.2 = canonicalValue w → m.2.beq w = true
  | [], _ => by simp
  | (_, v) :: ms, m => by
    intro hm
    rcases List.mem_cons.1 hm with rfl | hm
    · exact fun w => beq_of_canonicalValue v w
    · exact beqMember_of_canonicalValue ms m hm

end

theorem beq_both_of_canonicalValue {v w : Proper}
    (h : canonicalValue v.value = canonicalValue w.value) :
    v.value.beq w.value = true ∧ w.value.beq v.value = true :=
  ⟨beq_of_canonicalValue v.value w.value w.distinct h,
    beq_of_canonicalValue w.value v.value v.distinct h.symm⟩

/-- **A member of one is a member of the other, with one canonical form.** -/
theorem get_of_canonicalValue {v w : Proper} (h : canonicalValue v.value = canonicalValue w.value)
    {key : String} {a : Proper} (ha : v.get key = some a) :
    ∃ b, w.get key = some b ∧ canonicalValue a.value = canonicalValue b.value := by
  obtain ⟨v, hv⟩ := v
  obtain ⟨w, hw⟩ := w
  rw [Proper.get, Option.pmap_eq_some_iff] at ha
  obtain ⟨value, _, hmember, rfl⟩ := ha
  cases v with
  | object ms =>
    cases w with
    | object ns =>
      rw [Value.distinctKeys, Bool.and_eq_true, decide_eq_true_eq] at hw
      obtain ⟨n, hn, hkey, hvalue⟩ := exists_member_of_canonicalValue h (mem_of_lookup hmember)
      have hlookup : (Value.object ns).member key = some n.2 :=
        (congrArg (List.lookup · ns) hkey).symm.trans (lookup_of_mem hw.1 hn)
      refine ⟨⟨n.2, distinctMembers_iff.1 hw.2 n hn⟩, ?_, hvalue⟩
      exact Option.pmap_eq_some_iff.2 ⟨n.2, _, hlookup, rfl⟩
    | _ => simp [canonicalValue] at h
  | _ => cases hmember

theorem get_rel {v w : Proper} (h : canonicalValue v.value = canonicalValue w.value) (key : String) :
    Option.Rel (fun a b : Proper => canonicalValue a.value = canonicalValue b.value) (v.get key)
      (w.get key) := by
  cases hv : v.get key with
  | some a =>
    obtain ⟨b, hb, hvalue⟩ := get_of_canonicalValue h hv
    rw [hb]
    exact .some hvalue
  | none =>
    cases hw : w.get key with
    | none => exact .none
    | some b =>
      obtain ⟨a, ha, -⟩ := get_of_canonicalValue h.symm hw
      rw [hv] at ha
      cases ha

theorem asStr_of_canonicalValue {v w : Proper} (h : canonicalValue v.value = canonicalValue w.value) :
    v.asStr = w.asStr := by
  obtain ⟨v, hv⟩ := v
  obtain ⟨w, hw⟩ := w
  cases v <;> cases w <;> simp_all [canonicalValue, Proper.asStr]

/-- A string under a key. -/
theorem getStr_of_canonicalValue {v w : Proper}
    (h : canonicalValue v.value = canonicalValue w.value) (key : String) :
    (v.get key).bind Proper.asStr = (w.get key).bind Proper.asStr := by
  have hrel := get_rel h key
  generalize v.get key = a at *
  generalize w.get key = b at *
  cases hrel with
  | none => rfl
  | some hvalue => exact asStr_of_canonicalValue hvalue

end Protocol
