import Mathlib.Data.BitVec
import Mathlib.Data.List.Basic
import Mathlib.Logic.Function.Basic

/-!
# JSON values and their compact text

The value type of `serde_json` (with `preserve_order`: the members of an object stand in the order
in which they were written) and the text its compact serializer writes.

* A number is an integer or a finite double. The equality of the library separates the two, and
  compares doubles as doubles: the two zeros are equal although their texts differ.
* The shortest decimal text of a double is written by a crate of its own; here it is a parameter
  `FloatText` with what a reader of the text relies on.
* `text` writes a value; `text_append_inj` in `Json.Text` says that the text can be read back.
-/

namespace Json

/-- A finite double, by its IEEE 754 bits. -/
structure F64 where
  bits : BitVec 64
  finite : bits.extractLsb' 52 11 ≠ 0x7ff#11
deriving DecidableEq

namespace F64

/-- Both zeros: everything but the sign is zero. -/
def isZero (f : F64) : Bool := f.bits.extractLsb' 0 63 == 0#63

/-- The comparison `==` of finite doubles. -/
def numEq (f g : F64) : Bool := f.bits == g.bits || (f.isZero && g.isZero)

/-- The double `0.0`. -/
def zero : F64 := ⟨0#64, by decide⟩

/-- The double `-0.0`. -/
def negZero : F64 := ⟨1#1 ++ 0#63, by decide⟩

theorem numEq_refl (f : F64) : numEq f f = true := by
  simp [numEq]

theorem numEq_symm {f g : F64} (h : numEq f g = true) : numEq g f = true := by
  simp only [numEq, Bool.or_eq_true, beq_iff_eq, Bool.and_eq_true] at h ⊢
  rcases h with h | ⟨hf, hg⟩
  · exact Or.inl h.symm
  · exact Or.inr ⟨hg, hf⟩

theorem isZero_of_bits_eq {f g : F64} (h : f.bits = g.bits) : f.isZero = g.isZero := by
  simp [isZero, h]

theorem numEq_trans {f g k : F64} (h : numEq f g = true) (h' : numEq g k = true) :
    numEq f k = true := by
  simp only [numEq, Bool.or_eq_true, beq_iff_eq, Bool.and_eq_true] at h h' ⊢
  rcases h with h | ⟨hf, hg⟩
  · rcases h' with h' | ⟨hg, hk⟩
    · exact Or.inl (h.trans h')
    · exact Or.inr ⟨(isZero_of_bits_eq h).trans hg, hk⟩
  · rcases h' with h' | ⟨hg', hk⟩
    · exact Or.inr ⟨hf, (isZero_of_bits_eq h').symm.trans hg⟩
    · exact Or.inr ⟨hf, hk⟩

end F64

/-- A JSON number: an integer (the library's `PosInt` and `NegInt`) or a finite double. -/
inductive Number where
  | int (n : Int)
  | float (f : F64)
deriving DecidableEq

/-- The library's equality of numbers: `1` and `1.0` differ, `0.0` and `-0.0` do not. -/
def Number.numEq : Number → Number → Bool
  | .int m, .int n => m == n
  | .float f, .float g => f.numEq g
  | _, _ => false

/-- A JSON value. -/
inductive Value where
  | null
  | bool (b : Bool)
  | number (n : Number)
  | string (s : String)
  | array (items : List Value)
  | object (members : List (String × Value))

/-! ### Equality -/

mutual

/-- The equality `==` of values: numbers by `Number.numEq`, and objects whatever the order of their
members is. -/
def Value.beq : Value → Value → Bool
  | .null, .null => true
  | .bool a, .bool b => a == b
  | .number a, .number b => a.numEq b
  | .string a, .string b => a == b
  | .array xs, .array ys => beqItems xs ys
  | .object xs, .object ys => xs.length == ys.length && beqMembers xs ys
  | _, _ => false

/-- Arrays are compared item by item. -/
def beqItems : List Value → List Value → Bool
  | [], [] => true
  | x :: xs, y :: ys => x.beq y && beqItems xs ys
  | _, _ => false

/-- Every member of the first object has an equal one under the same key in the second. -/
def beqMembers : List (String × Value) → List (String × Value) → Bool
  | [], _ => true
  | (k, v) :: rest, ys =>
    (match ys.lookup k with
      | some w => v.beq w
      | none => false) && beqMembers rest ys

end

instance : BEq Value := ⟨Value.beq⟩

/-- The values that are neither arrays nor objects. -/
def Value.isPrimitive : Value → Bool
  | .array _ | .object _ => false
  | _ => true

/-! ### Text -/

/-- What the decimal text of a double is relied on for: the characters it consists of, that it
never looks like an integer, and that it can be read back. -/
structure FloatText where
  text : F64 → List Char
  injective : Function.Injective text
  shape : ∀ f, ∀ c ∈ text f, c.isDigit ∨ c ∈ ['-', '+', '.', 'e']
  starts : ∀ f, ∃ c rest, text f = c :: rest ∧ (c.isDigit ∨ c = '-')
  marked : ∀ f, '.' ∈ text f ∨ 'e' ∈ text f

/-- The decimal text of an integer. -/
def intText : Int → List Char
  | .ofNat n => Nat.toDigits 10 n
  | .negSucc n => '-' :: Nat.toDigits 10 (n + 1)

/-- The hexadecimal digit in lower case. -/
def hexDigit (n : Nat) : Char := Nat.digitChar n

/-- The text of one character inside a string. -/
def escapeChar (c : Char) : List Char :=
  if c = '"' then ['\\', '"']
  else if c = '\\' then ['\\', '\\']
  else if c = '\x08' then ['\\', 'b']
  else if c = '\t' then ['\\', 't']
  else if c = '\n' then ['\\', 'n']
  else if c = '\x0c' then ['\\', 'f']
  else if c = '\r' then ['\\', 'r']
  else if c.toNat < 32 then
    ['\\', 'u', '0', '0', hexDigit (c.toNat / 16), hexDigit (c.toNat % 16)]
  else [c]

/-- The text of a string, with its quotes. -/
def stringText (s : String) : List Char :=
  '"' :: (s.toList.flatMap escapeChar ++ ['"'])

section Text

variable (F : FloatText)

/-- The text of a number. -/
def Number.text : Number → List Char
  | .int n => intText n
  | .float f => F.text f

mutual

/-- The compact text of a value. -/
def Value.text : Value → List Char
  | .null => ['n', 'u', 'l', 'l']
  | .bool true => ['t', 'r', 'u', 'e']
  | .bool false => ['f', 'a', 'l', 's', 'e']
  | .number n => n.text F
  | .string s => stringText s
  | .array xs => '[' :: itemsText true xs
  | .object ms => '{' :: membersText true ms

/-- The rest of an array; a comma precedes every item but the first. -/
def itemsText : Bool → List Value → List Char
  | _, [] => [']']
  | first, x :: xs => (if first then [] else [',']) ++ (x.text ++ itemsText false xs)

/-- The rest of an object; a comma precedes every member but the first. -/
def membersText : Bool → List (String × Value) → List Char
  | _, [] => ['}']
  | first, (k, v) :: ms =>
    (if first then [] else [',']) ++ (stringText k ++ ':' :: (v.text ++ membersText false ms))

end

end Text

end Json
