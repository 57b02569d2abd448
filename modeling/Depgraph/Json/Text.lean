import Depgraph.Json.Value
import Mathlib.Tactic.Common

/-!
# The compact JSON text determines the value

`text_append_inj`: two values whose texts stand at the front of the same list of characters, both
followed by the end of the list or by a delimiter, are the same value. It is proved by induction
on the value, with one lemma for each kind of text:

* a string ends at its closing quote, since no escape begins with a quote (`readString_stringText`);
* a number ends at the first character that occurs in no number (`numberText_append_inj`);
* arrays and objects end at their bracket, and their parts are separated by commas.

`text_injective` is the case of two whole texts.
-/

namespace Json

/-! ### Strings -/

/-- The value of a lower case hexadecimal digit. -/
def hexVal (c : Char) : Nat := if c.toNat < 58 then c.toNat - 48 else c.toNat - 87

/-- Reads back one character of a string. -/
def readChar : List Char → Option (Char × List Char)
  | '\\' :: 'u' :: '0' :: '0' :: hi :: lo :: r => some (Char.ofNat (16 * hexVal hi + hexVal lo), r)
  | '\\' :: '"' :: r => some ('"', r)
  | '\\' :: '\\' :: r => some ('\\', r)
  | '\\' :: 'b' :: r => some ('\x08', r)
  | '\\' :: 't' :: r => some ('\t', r)
  | '\\' :: 'n' :: r => some ('\n', r)
  | '\\' :: 'f' :: r => some ('\x0c', r)
  | '\\' :: 'r' :: r => some ('\r', r)
  | c :: r => some (c, r)
  | [] => none

theorem hexVal_hexDigit : ∀ n < 16, hexVal (hexDigit n) = n := by decide

theorem readChar_cons {c : Char} (h : c ≠ '\\') (r : List Char) :
    readChar (c :: r) = some (c, r) := by
  rw [readChar.eq_def]
  split <;> simp_all

theorem readChar_control {c : Char} (h : c.toNat < 32) (r : List Char) :
    readChar ('\\' :: 'u' :: '0' :: '0' :: hexDigit (c.toNat / 16) :: hexDigit (c.toNat % 16) :: r) =
      some (c, r) := by
  have hsum : 16 * (c.toNat / 16) + c.toNat % 16 = c.toNat := by omega
  simp only [readChar, hexVal_hexDigit _ (show c.toNat / 16 < 16 by omega),
    hexVal_hexDigit _ (show c.toNat % 16 < 16 by omega), hsum, Char.ofNat_toNat]

theorem readChar_escapeChar (c : Char) (r : List Char) :
    readChar (escapeChar c ++ r) = some (c, r) := by
  unfold escapeChar
  split_ifs with h1 h2 h3 h4 h5 h6 h7 h8
  · subst h1; rfl
  · subst h2; rfl
  · subst h3; rfl
  · subst h4; rfl
  · subst h5; rfl
  · subst h6; rfl
  · subst h7; rfl
  · exact readChar_control h8 r
  · exact readChar_cons h2 r

/-- No escape begins with the closing quote. -/
theorem escapeChar_cons (c : Char) : ∃ d rest, escapeChar c = d :: rest ∧ d ≠ '"' := by
  unfold escapeChar
  split_ifs with h1 <;> first | exact ⟨_, _, rfl, by decide⟩ | exact ⟨_, _, rfl, h1⟩

theorem escapeChar_append_inj {c d : Char} {r s : List Char}
    (h : escapeChar c ++ r = escapeChar d ++ s) : c = d ∧ r = s := by
  have hread := congrArg readChar h
  rw [readChar_escapeChar, readChar_escapeChar] at hread
  simpa using hread

theorem escape_append_inj {a b r s : List Char}
    (h : a.flatMap escapeChar ++ '"' :: r = b.flatMap escapeChar ++ '"' :: s) :
    a = b ∧ r = s := by
  induction a generalizing b with
  | nil =>
    cases b with
    | nil => simpa using h
    | cons d b =>
      obtain ⟨e, rest, he, hne⟩ := escapeChar_cons d
      rw [List.flatMap_cons, he] at h
      exact absurd (List.cons.inj h).1.symm hne
  | cons c a ih =>
    cases b with
    | nil =>
      obtain ⟨e, rest, he, hne⟩ := escapeChar_cons c
      rw [List.flatMap_cons, he] at h
      exact absurd (List.cons.inj h).1 hne
    | cons d b =>
      simp only [List.flatMap_cons, List.append_assoc] at h
      obtain ⟨rfl, hrest⟩ := escapeChar_append_inj h
      obtain ⟨rfl, hr⟩ := ih hrest
      exact ⟨rfl, hr⟩

theorem stringText_append_inj {a b : String} {r s : List Char}
    (h : stringText a ++ r = stringText b ++ s) : a = b ∧ r = s := by
  simp only [stringText, List.cons_append, List.append_assoc, List.nil_append,
    List.cons.injEq, true_and] at h
  obtain ⟨hab, hr⟩ := escape_append_inj h
  exact ⟨String.toList_injective hab, hr⟩

/-! ### Numbers -/

/-- The characters of number texts. -/
def isNumberChar (c : Char) : Bool := c.isDigit || c ∈ ['-', '+', '.', 'e']

/-- A text that does not continue a number: it is at its end or at a delimiter. -/
def Closed (r : List Char) : Prop := ∀ c ∈ r.head?, isNumberChar c = false

theorem closed_nil : Closed [] := by simp [Closed]

theorem closed_cons {c : Char} (h : isNumberChar c = false) (r : List Char) : Closed (c :: r) := by
  simpa [Closed] using h

theorem takeWhile_closed {r : List Char} (h : Closed r) : r.takeWhile isNumberChar = [] := by
  cases r with
  | nil => rfl
  | cons c r => simp [h c rfl]

theorem intText_isNumberChar (n : Int) : ∀ c ∈ intText n, isNumberChar c = true := by
  have hdigit (m : Nat) : ∀ c ∈ Nat.toDigits 10 m, isNumberChar c = true := fun c hc => by
    simp [isNumberChar, Nat.isDigit_of_mem_toDigits (by omega) (by omega) hc]
  intro c hc
  cases n with
  | ofNat n => exact hdigit n c hc
  | negSucc n =>
    rcases List.mem_cons.1 hc with rfl | hc
    · decide
    · exact hdigit _ c hc

theorem toDigits_injective {m n : Nat} (h : Nat.toDigits 10 m = Nat.toDigits 10 n) : m = n := by
  have := congrArg (Nat.ofDigitChars 10 · 0) h
  simpa only [Nat.ofDigitChars_ten_toDigits] using this

theorem toDigits_cons (n : Nat) : ∃ c rest, Nat.toDigits 10 n = c :: rest ∧ c.isDigit := by
  obtain ⟨c, rest, h⟩ := List.exists_cons_of_ne_nil (Nat.toDigits_ne_nil (b := 10) (n := n))
  exact ⟨c, rest, h, Nat.isDigit_of_mem_toDigits (by omega) (by omega) (h ▸ List.mem_cons_self)⟩

theorem toDigits_ne_minus (n : Nat) (l : List Char) : Nat.toDigits 10 n ≠ '-' :: l := by
  intro h
  obtain ⟨c, rest, hc, hd⟩ := toDigits_cons n
  rw [hc] at h
  rw [(List.cons.inj h).1] at hd
  exact absurd hd (by decide)

theorem intText_injective {m n : Int} (h : intText m = intText n) : m = n := by
  cases m with
  | ofNat m =>
    cases n with
    | ofNat n => rw [toDigits_injective h]
    | negSucc n => exact absurd h (toDigits_ne_minus m _)
  | negSucc m =>
    cases n with
    | ofNat n => exact absurd h.symm (toDigits_ne_minus n _)
    | negSucc n =>
      have := toDigits_injective (List.cons.inj h).2
      rw [Nat.succ_inj.1 this]

/-- An integer has neither a point nor an exponent. -/
theorem intText_unmarked (n : Int) : '.' ∉ intText n ∧ 'e' ∉ intText n := by
  have hdigit (c : Char) (hc : c.isDigit = false) (m : Nat) : c ∉ Nat.toDigits 10 m := fun h => by
    rw [Nat.isDigit_of_mem_toDigits (by omega) (by omega) h] at hc
    cases hc
  cases n with
  | ofNat n => exact ⟨hdigit _ rfl n, hdigit _ rfl n⟩
  | negSucc n =>
    exact ⟨List.not_mem_cons_of_ne_of_not_mem (by decide) (hdigit _ rfl _),
      List.not_mem_cons_of_ne_of_not_mem (by decide) (hdigit _ rfl _)⟩

section Text

variable (F : FloatText)

theorem numberText_isNumberChar (n : Number) : ∀ c ∈ n.text F, isNumberChar c = true := by
  cases n with
  | int n => exact intText_isNumberChar n
  | float f =>
    intro c hc
    rcases F.shape f c hc with h | h <;> simp [isNumberChar, h]

theorem numberText_cons (n : Number) :
    ∃ c rest, n.text F = c :: rest ∧ (c.isDigit ∨ c = '-') := by
  cases n with
  | int n =>
    cases n with
    | ofNat n =>
      obtain ⟨c, rest, h, hd⟩ := toDigits_cons n
      exact ⟨c, rest, h, Or.inl hd⟩
    | negSucc n => exact ⟨'-', _, rfl, Or.inr rfl⟩
  | float f => exact F.starts f

theorem numberText_injective {m n : Number} (h : m.text F = n.text F) : m = n := by
  cases m with
  | int m =>
    cases n with
    | int n => rw [intText_injective h]
    | float g =>
      have hm : intText m = F.text g := h
      rcases F.marked g with hg | hg <;> rw [← hm] at hg
      · exact absurd hg (intText_unmarked m).1
      · exact absurd hg (intText_unmarked m).2
  | float f =>
    cases n with
    | int n =>
      have hn : F.text f = intText n := h
      rcases F.marked f with hf | hf <;> rw [hn] at hf
      · exact absurd hf (intText_unmarked n).1
      · exact absurd hf (intText_unmarked n).2
    | float g => rw [F.injective h]

/-- A number ends at the first character that no number contains. -/
theorem numberText_append_inj {m n : Number} {r s : List Char} (hr : Closed r) (hs : Closed s)
    (h : m.text F ++ r = n.text F ++ s) : m = n ∧ r = s := by
  have htake := congrArg (List.takeWhile isNumberChar) h
  rw [List.takeWhile_append_of_pos (numberText_isNumberChar F m), takeWhile_closed hr,
    List.takeWhile_append_of_pos (numberText_isNumberChar F n), takeWhile_closed hs,
    List.append_nil, List.append_nil] at htake
  rw [htake] at h
  exact ⟨numberText_injective F htake, List.append_cancel_left h⟩

/-! ### Values -/

/-- The first character of a value's text, which tells the kind of the value. -/
inductive Head : Value → Char → Prop
  | null : Head .null 'n'
  | true : Head (.bool true) 't'
  | false : Head (.bool false) 'f'
  | number (n : Number) {c : Char} (h : c.isDigit ∨ c = '-') : Head (.number n) c
  | string (s : String) : Head (.string s) '"'
  | array (xs : List Value) : Head (.array xs) '['
  | object (ms : List (String × Value)) : Head (.object ms) '{'

theorem text_cons (v : Value) : ∃ c rest, v.text F = c :: rest ∧ Head v c := by
  cases v with
  | null => exact ⟨_, _, rfl, .null⟩
  | bool b => cases b; exacts [⟨_, _, rfl, .false⟩, ⟨_, _, rfl, .true⟩]
  | number n =>
    obtain ⟨c, rest, h, hc⟩ := numberText_cons F n
    exact ⟨c, rest, h, .number n hc⟩
  | string s => exact ⟨_, _, rfl, .string s⟩
  | array xs => exact ⟨_, _, rfl, .array xs⟩
  | object ms => exact ⟨_, _, rfl, .object ms⟩

/-- The kinds of values; `true` and `false` count as two. -/
def kind : Value → Nat
  | .null => 0
  | .bool true => 1
  | .bool false => 2
  | .number _ => 3
  | .string _ => 4
  | .array _ => 5
  | .object _ => 6

theorem Head.kind_eq {v w : Value} {c : Char} (hv : Head v c) (hw : Head w c) :
    kind v = kind w := by
  cases hv <;> cases hw <;> first | rfl | exact absurd ‹_ ∨ _› (by decide)

/-- Texts that begin alike belong to values of one kind. -/
theorem kind_eq_of_text {v w : Value} {r s : List Char} (h : v.text F ++ r = w.text F ++ s) :
    kind v = kind w := by
  obtain ⟨c, rest, hv, hc⟩ := text_cons F v
  obtain ⟨d, rest', hw, hd⟩ := text_cons F w
  rw [hv, hw] at h
  obtain rfl := (List.cons.inj h).1
  exact hc.kind_eq hd

theorem Head.ne_close {v : Value} {c : Char} (h : Head v c) : c ≠ ']' ∧ c ≠ ',' := by
  cases h with
  | number n h =>
    rcases h with h | rfl
    · exact ⟨by rintro rfl; exact absurd h (by decide), by rintro rfl; exact absurd h (by decide)⟩
    · decide
  | _ => decide

theorem itemsText_closed (xs : List Value) (r : List Char) :
    Closed (itemsText F false xs ++ r) := by
  cases xs <;> exact closed_cons (by decide) _

theorem membersText_closed (ms : List (String × Value)) (r : List Char) :
    Closed (membersText F false ms ++ r) := by
  cases ms with
  | nil => exact closed_cons (by decide) _
  | cons m ms => exact closed_cons (by decide) _

/-- An empty rest of an array is told from a non-empty one by its first character. -/
theorem itemsText_nil_ne_cons (first : Bool) (y : Value) (ys : List Value) (r s : List Char) :
    itemsText F first [] ++ r ≠ itemsText F first (y :: ys) ++ s := by
  obtain ⟨c, rest, hy, hc⟩ := text_cons F y
  cases first with
  | true =>
    simp only [itemsText, hy, ite_true, List.nil_append, List.cons_append, ne_eq, List.cons.injEq,
      not_and]
    intro h
    exact absurd h.symm hc.ne_close.1
  | false => simp [itemsText]

theorem membersText_nil_ne_cons (first : Bool) (m : String × Value) (ms : List (String × Value))
    (r s : List Char) : membersText F first [] ++ r ≠ membersText F first (m :: ms) ++ s := by
  cases first <;> simp [membersText, stringText]

mutual

/-- **A text that stands before a delimiter determines its value.** -/
theorem text_append_inj (v w : Value) {r s : List Char} (hr : Closed r) (hs : Closed s)
    (h : v.text F ++ r = w.text F ++ s) : v = w ∧ r = s := by
  have hk := kind_eq_of_text F h
  match v, w, hk with
  | .null, .null, _ => exact ⟨rfl, by simpa [Value.text] using h⟩
  | .bool true, .bool true, _ => exact ⟨rfl, by simpa [Value.text] using h⟩
  | .bool false, .bool false, _ => exact ⟨rfl, by simpa [Value.text] using h⟩
  | .number m, .number n, _ =>
    obtain ⟨rfl, hrs⟩ := numberText_append_inj F hr hs h
    exact ⟨rfl, hrs⟩
  | .string a, .string b, _ =>
    obtain ⟨rfl, hrs⟩ := stringText_append_inj h
    exact ⟨rfl, hrs⟩
  | .array xs, .array ys, _ =>
    obtain ⟨rfl, hrs⟩ := itemsText_append_inj true xs ys (List.cons.inj h).2
    exact ⟨rfl, hrs⟩
  | .object ms, .object ns, _ =>
    obtain ⟨rfl, hrs⟩ := membersText_append_inj true ms ns (List.cons.inj h).2
    exact ⟨rfl, hrs⟩

theorem itemsText_append_inj (first : Bool) (xs ys : List Value) {r s : List Char}
    (h : itemsText F first xs ++ r = itemsText F first ys ++ s) : xs = ys ∧ r = s := by
  match xs, ys with
  | [], [] => exact ⟨rfl, by simpa [itemsText] using h⟩
  | [], y :: ys => exact absurd h (itemsText_nil_ne_cons F first y ys r s)
  | x :: xs, [] => exact absurd h.symm (itemsText_nil_ne_cons F first x xs s r)
  | x :: xs, y :: ys =>
    simp only [itemsText, List.append_assoc] at h
    obtain ⟨rfl, hrest⟩ := text_append_inj x y (itemsText_closed F xs r) (itemsText_closed F ys s)
      (List.append_cancel_left h)
    obtain ⟨rfl, hrs⟩ := itemsText_append_inj false xs ys hrest
    exact ⟨rfl, hrs⟩

theorem membersText_append_inj (first : Bool) (ms ns : List (String × Value)) {r s : List Char}
    (h : membersText F first ms ++ r = membersText F first ns ++ s) : ms = ns ∧ r = s := by
  match ms, ns with
  | [], [] => exact ⟨rfl, by simpa [membersText] using h⟩
  | [], n :: ns => exact absurd h (membersText_nil_ne_cons F first n ns r s)
  | m :: ms, [] => exact absurd h.symm (membersText_nil_ne_cons F first m ms s r)
  | (k, v) :: ms, (l, w) :: ns =>
    simp only [membersText, List.append_assoc, List.cons_append] at h
    obtain ⟨rfl, hval⟩ := stringText_append_inj (List.append_cancel_left h)
    obtain ⟨rfl, hrest⟩ := text_append_inj v w (membersText_closed F ms r)
      (membersText_closed F ns s) (List.cons.inj hval).2
    obtain ⟨rfl, hrs⟩ := membersText_append_inj false ms ns hrest
    exact ⟨rfl, hrs⟩

end

/-- **Distinct values have distinct texts.** -/
theorem text_injective : Function.Injective (Value.text F) := by
  intro v w h
  exact (text_append_inj F v w closed_nil closed_nil (by rw [h])).1

end Text

/-! ### A text of doubles -/

namespace F64

/-- The bits below the sign, as a number. -/
def magnitude (f : F64) : Nat := (f.bits.extractLsb' 0 63).toNat

/-- The sign, then the magnitude as an integer, then `.0`. The zeros are written `0.0` and `-0.0`,
as they are by every decimal text. -/
def plainText (f : F64) : List Char :=
  (if f.bits.msb then ['-'] else []) ++ (Nat.toDigits 10 f.magnitude ++ ['.', '0'])

theorem eq_of_sign_magnitude {f g : F64} (hs : f.bits.msb = g.bits.msb)
    (hm : f.magnitude = g.magnitude) : f = g := by
  have hbits : f.bits = g.bits := by
    apply BitVec.eq_of_toNat_eq
    simp only [magnitude, BitVec.extractLsb'_toNat, Nat.shiftRight_zero] at hm
    simp only [BitVec.msb_eq_decide, decide_eq_decide] at hs
    have hf := f.bits.isLt
    have hg := g.bits.isLt
    omega
  cases f
  cases g
  cases hbits
  rfl

theorem plainText_injective : Function.Injective plainText := by
  intro f g h
  have hcancel {m n : Nat} (h : Nat.toDigits 10 m ++ ['.', '0'] = Nat.toDigits 10 n ++ ['.', '0']) :
      m = n := toDigits_injective (List.append_cancel_right h)
  have hsign {m : Nat} {l : List Char} : Nat.toDigits 10 m ++ ['.', '0'] ≠ '-' :: l := by
    obtain ⟨c, rest, hc, hd⟩ := toDigits_cons m
    rw [hc]
    intro h
    rw [(List.cons.inj h).1] at hd
    exact absurd hd (by decide)
  unfold plainText at h
  cases hf : f.bits.msb <;> cases hg : g.bits.msb <;>
    simp only [hf, hg, if_true, List.nil_append, List.cons_append, Bool.false_eq_true, if_false] at h
  · exact eq_of_sign_magnitude (hf.trans hg.symm) (hcancel h)
  · exact absurd h hsign
  · exact absurd h.symm hsign
  · exact eq_of_sign_magnitude (hf.trans hg.symm) (hcancel (List.cons.inj h).2)

end F64

/-- A text of doubles that can be computed with. -/
def FloatText.plain : FloatText where
  text := F64.plainText
  injective := F64.plainText_injective
  shape := by
    intro f c hc
    simp only [F64.plainText, List.mem_append] at hc
    rcases hc with hc | hc | hc
    · split_ifs at hc <;> simp_all
    · exact Or.inl (Nat.isDigit_of_mem_toDigits (by omega) (by omega) hc)
    · rcases List.mem_pair.1 hc with rfl | rfl <;> decide
  starts := by
    intro f
    obtain ⟨c, rest, hc, hd⟩ := toDigits_cons f.magnitude
    unfold F64.plainText
    cases f.bits.msb with
    | true => exact ⟨'-', _, rfl, Or.inr rfl⟩
    | false => exact ⟨c, rest ++ ['.', '0'], by simp [hc], Or.inl hd⟩
  marked := by
    intro f
    exact Or.inl (by simp [F64.plainText])

end Json
