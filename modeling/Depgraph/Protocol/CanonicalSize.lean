import Depgraph.Protocol.CanonicalValue
import Mathlib.Algebra.BigOperators.Group.List.Basic
import Mathlib.Algebra.Order.BigOperators.Group.List

/-!
# How long a canonical text is

The number of bytes in the canonical text of a value, from the numbers of its parts.

* `size_canonical_object`, `size_canonical_array`: an object or an array takes the bytes of its
  members and one byte for each, which is a comma or the closing bracket, and one to open it. The
  order of the members does not matter.
* `digits` is the length of a decimal text; it grows with the number (`digits_mono`).
-/

namespace Protocol

open Json SortDedup

/-! ### Characters -/

/-- The number of UTF-8 bytes of a text. -/
def textSize (text : List Char) : Nat := (text.map Char.utf8Size).sum

@[simp] theorem textSize_nil : textSize [] = 0 := rfl

@[simp] theorem textSize_cons (c : Char) (text : List Char) :
    textSize (c :: text) = c.utf8Size + textSize text := by
  simp [textSize]

@[simp] theorem textSize_append (a b : List Char) :
    textSize (a ++ b) = textSize a + textSize b := by
  simp [textSize]

theorem utf8ByteSize_ofList (text : List Char) :
    (String.ofList text).utf8ByteSize = textSize text := by
  induction text with
  | nil => rfl
  | cons c text ih =>
    rw [show c :: text = [c] ++ text from rfl, String.ofList_append, String.utf8ByteSize_append, ih,
      textSize_append, ← String.singleton_eq_ofList, String.utf8ByteSize_singleton]
    rfl

/-- The length of a decimal text. -/
def digits (n : Nat) : Nat := (Nat.toDigits 10 n).length

theorem digits_pos (n : Nat) : 0 < digits n := Nat.length_toDigits_pos

theorem digits_le_iff {n k : Nat} (hk : 0 < k) : digits n ≤ k ↔ n < 10 ^ k :=
  Nat.length_toDigits_le_iff (by omega) hk

theorem lt_pow_digits (n : Nat) : n < 10 ^ digits n := (digits_le_iff (digits_pos n)).1 le_rfl

theorem digits_mono {m n : Nat} (h : m ≤ n) : digits m ≤ digits n :=
  (digits_le_iff (digits_pos n)).2 (h.trans_lt (lt_pow_digits n))

theorem textSize_of_digits {text : List Char} (h : ∀ c ∈ text, c.isDigit) :
    textSize text = text.length := by
  induction text with
  | nil => rfl
  | cons c text ih =>
    obtain ⟨hc, ht⟩ := List.forall_mem_cons.1 h
    have hsize : c.utf8Size = 1 := by
      simp only [Char.isDigit, Bool.and_eq_true, decide_eq_true_eq] at hc
      have hlast : c.val.toNat ≤ 57 := UInt32.le_iff_toNat_le.1 hc.2
      exact Char.utf8Size_eq_one_iff.2 (UInt32.le_iff_toNat_le.2 (hlast.trans (by decide)))
    rw [textSize_cons, ih ht, hsize, List.length_cons, Nat.add_comm]

theorem textSize_toDigits (n : Nat) : textSize (Nat.toDigits 10 n) = digits n :=
  textSize_of_digits fun _ hc => Nat.isDigit_of_mem_toDigits (by omega) (by omega) hc

/-! ### Strings -/

/-- The number of bytes of a string between its quotes. -/
def escapedSize (s : String) : Nat := textSize (s.toList.flatMap escapeChar)

theorem textSize_stringText (s : String) : textSize (stringText s) = escapedSize s + 2 := by
  have hquote : Char.utf8Size '"' = 1 := by decide
  simp only [stringText, textSize_cons, textSize_append, textSize_nil, hquote, escapedSize]
  omega

@[simp] theorem escapedSize_append (a b : String) :
    escapedSize (a ++ b) = escapedSize a + escapedSize b := by
  simp [escapedSize]

theorem escapeChar_of_isDigit {c : Char} (h : c.isDigit) : escapeChar c = [c] := by
  simp only [Char.isDigit, Bool.and_eq_true, decide_eq_true_eq] at h
  have hlow : 48 ≤ c.toNat := UInt32.le_iff_toNat_le.1 h.1
  have hhigh : c.toNat ≤ 57 := UInt32.le_iff_toNat_le.1 h.2
  have hne (d : Char) (hd : d.toNat < 48 ∨ 57 < d.toNat) : c ≠ d := by
    rintro rfl
    omega
  rw [escapeChar, if_neg (hne _ (by decide)), if_neg (hne _ (by decide)), if_neg (hne _ (by decide)),
    if_neg (hne _ (by decide)), if_neg (hne _ (by decide)), if_neg (hne _ (by decide)),
    if_neg (hne _ (by decide)), if_neg (by omega)]

theorem escapedSize_toString (n : Nat) : escapedSize (toString n) = digits n := by
  have hdigit (c : Char) (hc : c ∈ Nat.toDigits 10 n) : escapeChar c = [c] :=
    escapeChar_of_isDigit (Nat.isDigit_of_mem_toDigits (by omega) (by omega) hc)
  rw [escapedSize, Nat.toString_eq_ofList_toDigits, String.toList_ofList,
    List.flatMap_congr hdigit, List.flatMap_singleton', textSize_toDigits]

/-! ### Values -/

variable (F : FloatText)

/-- The number of bytes of the canonical text of a value. -/
def canonicalSize (v : Value) : Nat := textSize ((canonicalValue v).text F)

/-- The number of bytes of a member of an object. -/
def memberSize (m : String × Value) : Nat :=
  textSize (stringText m.1) + 1 + canonicalSize F m.2

/-- The size of what is listed between brackets, with a comma between one and the next. -/
def enclosed (sizes : List Nat) : Nat := 1 + max 1 (sizes.map (· + 1)).sum

theorem enclosed_perm {a b : List Nat} (h : a.Perm b) : enclosed a = enclosed b := by
  rw [enclosed, enclosed, (h.map _).sum_eq]

theorem enclosed_mono {a b : List Nat} (h : List.Forall₂ (· ≤ ·) a b) :
    enclosed a ≤ enclosed b := by
  have hsum : (a.map (· + 1)).sum ≤ (b.map (· + 1)).sum := by
    induction h with
    | nil => exact le_rfl
    | cons hab _ ih =>
      simp only [List.map_cons, List.sum_cons]
      omega
  exact Nat.add_le_add_left (max_le_max le_rfl hsum) 1

theorem textSize_itemsText (first : Bool) (vs : List Value) :
    textSize (itemsText F first vs) =
      if first = true ∧ vs = [] then 1 else
        (vs.map fun v => textSize (v.text F) + 1).sum + if first then 0 else 1 := by
  have hcomma : Char.utf8Size ',' = 1 := by decide
  have hclose : Char.utf8Size ']' = 1 := by decide
  induction vs generalizing first with
  | nil => cases first <;> simp [itemsText, hclose]
  | cons v vs ih =>
    cases first <;> simp [itemsText, ih, hcomma] <;> omega

theorem textSize_membersText (first : Bool) (ms : List (String × Value)) :
    textSize (membersText F first ms) =
      if first = true ∧ ms = [] then 1 else
        (ms.map fun m => textSize (stringText m.1) + 1 + textSize (m.2.text F) + 1).sum +
          if first then 0 else 1 := by
  have hcomma : Char.utf8Size ',' = 1 := by decide
  have hcolon : Char.utf8Size ':' = 1 := by decide
  have hclose : Char.utf8Size '}' = 1 := by decide
  induction ms generalizing first with
  | nil => cases first <;> simp [membersText, hclose]
  | cons m ms ih =>
    obtain ⟨k, v⟩ := m
    cases first <;> simp [membersText, ih, hcomma, hcolon] <;> omega

theorem one_add_ite_eq_enclosed (sizes : List Nat) :
    1 + (if sizes = [] then 1 else (sizes.map (· + 1)).sum) = enclosed sizes := by
  cases sizes with
  | nil => rfl
  | cons a sizes =>
    simp only [reduceCtorEq, if_false, enclosed, List.map_cons, List.sum_cons]
    omega

/-- **The members of an object take their bytes in any order.** -/
theorem size_canonical_object (ms : List (String × Value)) :
    canonicalSize F (.object ms) = enclosed (ms.map (memberSize F)) := by
  have hopen : Char.utf8Size '\x7b' = 1 := by decide
  have hperm := (sortByKey_perm Prod.fst (canonicalMembers ms)).map
    fun m : String × Value => textSize (stringText m.1) + 1 + textSize (m.2.text F)
  have hmap : (canonicalMembers ms).map
      (fun m => textSize (stringText m.1) + 1 + textSize (m.2.text F)) = ms.map (memberSize F) := by
    rw [canonicalMembers_eq_map, List.map_map]
    rfl
  rw [hmap] at hperm
  rw [← enclosed_perm hperm, ← one_add_ite_eq_enclosed]
  simp [canonicalSize, canonicalValue, Value.text, textSize_membersText, hopen, Function.comp_def]

theorem canonicalItems_eq_map (vs : List Value) : canonicalItems vs = vs.map canonicalValue := by
  induction vs with
  | nil => rfl
  | cons v vs ih => rw [canonicalItems, ih, List.map_cons]

theorem size_canonical_array (vs : List Value) :
    canonicalSize F (.array vs) = enclosed (vs.map (canonicalSize F)) := by
  have hopen : Char.utf8Size '[' = 1 := by decide
  rw [← one_add_ite_eq_enclosed]
  simp [canonicalSize, canonicalValue, canonicalItems_eq_map, Value.text, textSize_itemsText, hopen,
    Function.comp_def]

theorem size_canonical_string (s : String) : canonicalSize F (.string s) = escapedSize s + 2 :=
  textSize_stringText s

theorem size_canonical_nat (n : Nat) : canonicalSize F (.number (.int n)) = digits n :=
  textSize_toDigits n

theorem utf8ByteSize_canonicalJson (v : Value) :
    (canonicalJson F v).utf8ByteSize = canonicalSize F v := utf8ByteSize_ofList _

end Protocol
