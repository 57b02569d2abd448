import Depgraph.Json.Value
import Depgraph.Library.SortDedup
import Mathlib.Data.String.Basic

/-!
# Canonical JSON and digests

`stable_id.rs`: JSON text with recursively sorted object keys, and SHA-256 digests. The hash is a
parameter wherever it is used; a digest is its 32 bytes.
-/

namespace Protocol

open Json SortDedup

mutual

/-- `canonical_value`: object members in the order of their keys, at every depth. -/
def canonicalValue : Value → Value
  | .object members => .object (sortByKey Prod.fst (canonicalMembers members))
  | .array items => .array (canonicalItems items)
  | value => value

def canonicalItems : List Value → List Value
  | [] => []
  | v :: vs => canonicalValue v :: canonicalItems vs

def canonicalMembers : List (String × Value) → List (String × Value)
  | [] => []
  | (k, v) :: ms => (k, canonicalValue v) :: canonicalMembers ms

end

def canonicalJson (F : FloatText) (input : Value) : String :=
  String.ofList ((canonicalValue input).text F)

/-- The UTF-8 bytes of a string. -/
def utf8 (s : String) : List UInt8 := s.toUTF8.data.toList

/-- A SHA-256 digest. -/
structure Digest where
  bytes : List UInt8
  size : bytes.length = 32
deriving DecidableEq

/-- The lowercase hexadecimal text of a digest. -/
def Digest.toHex (d : Digest) : String :=
  String.ofList (d.bytes.flatMap fun b => [hexDigit (b.toNat / 16), hexDigit (b.toNat % 16)])

/-- What stable identities rest on outside this code: the decimal text of doubles and SHA-256. -/
structure StableIds where
  floatText : FloatText
  sha256 : List UInt8 → Digest

/-- `stable_id_from_value`: `<namespace>:sha256:<lowercase hex>`. -/
def StableIds.stableIdFromValue (S : StableIds) (idNamespace : String) (input : Value) : String :=
  idNamespace ++ ":sha256:" ++ (S.sha256 (utf8 (canonicalJson S.floatText input))).toHex

/-- A byte of a lowercase hexadecimal text. -/
def isHexByte (byte : UInt8) : Bool := (48 ≤ byte && byte ≤ 57) || (97 ≤ byte && byte ≤ 102)

/-- `is_sha256_hex`: 64 lowercase hexadecimal digits. -/
def isSha256Hex (value : String) : Bool :=
  (utf8 value).length == 64 && (utf8 value).all isHexByte

end Protocol
