import Depgraph.ContractScan.ProtobufShape

/-!
# Tokens of a Protobuf file

`protobuf.rs`: `tokenize_proto`. The text is a list of characters; a character that is not ASCII can
only stand in a comment.

Spans are left out, and the limit on the bytes of a comment, which is the limit on those of a file.
-/

namespace ContractScan

open Fallible

inductive TokenKind
  | identifier
  | string
  | number
  | symbol
deriving DecidableEq

structure Token where
  text : String
  kind : TokenKind
deriving DecidableEq

def maxProtobufTokens : Nat := 1000000

def isAsciiWhitespace (c : Char) : Bool := c ∈ [' ', '\t', '\n', '\x0c', '\r']

def isAscii (c : Char) : Bool := c.toNat < 128

def startsWord (c : Char) : Bool := c.isAlpha || c = '_'

def isWordChar (c : Char) : Bool := c.isAlphanum || c = '_'

def isNumberChar (c : Char) : Bool := c.isAlphanum || c ∈ ['_', '.', '+', '-']

/-- The text after a block comment. -/
def skipComment : List Char → Except String (List Char)
  | '*' :: '/' :: rest => .ok rest
  | _ :: rest => skipComment rest
  | [] => .error "protobuf-unterminated-block-comment"

/-- The character that an escape stands for. -/
def unescape (c : Char) : Except String Char :=
  if c = '\\' ∨ c = '"' ∨ c = '\x27' then .ok c
  else if c = 'n' then .ok '\n'
  else if c = 'r' then .ok '\r'
  else if c = 't' then .ok '\t'
  else .error "protobuf-unsupported-string-escape"

/-- A string, from its first character on. -/
def readString (quote : Char) : List Char → Except String (List Char × List Char)
  | [] => .error "protobuf-unterminated-string"
  | c :: rest =>
    if c = quote then .ok ([], rest)
    else if c = '\n' ∨ c = '\r' then .error "protobuf-string-contains-newline"
    else if c = '\\' then
      match rest with
      | [] => .error "protobuf-unterminated-string"
      | escaped :: rest => do
        let decoded ← unescape escaped
        let (value, rest) ← readString quote rest
        pure (decoded :: value, rest)
    else do
      check (isAscii c = true) "protobuf-non-ascii-string-not-admitted"
      let (value, rest) ← readString quote rest
      pure (c :: value, rest)

/-- The token that starts with a character, and the text after it. -/
def readToken (c : Char) (rest : List Char) : Except String (Token × List Char) :=
  if startsWord c = true then
    .ok (⟨.ofList (c :: rest.takeWhile isWordChar), .identifier⟩, rest.dropWhile isWordChar)
  else if c.isDigit = true then
    .ok (⟨.ofList (c :: rest.takeWhile isNumberChar), .number⟩, rest.dropWhile isNumberChar)
  else if c = '"' ∨ c = '\x27' then do
    let (value, rest) ← readString c rest
    pure (⟨.ofList value, .string⟩, rest)
  else if isAscii c = true then .ok (⟨.singleton c, .symbol⟩, rest)
  else .error "protobuf-non-ascii-token-not-admitted"

/-- The loop of `tokenize_proto`. -/
def tokenizeLoop : Nat → List Token → List Char → Except String (List Token)
  | _, tokens, [] => .ok tokens
  | 0, _, _ => .error "protobuf-token-count-limit-exceeded"
  | fuel + 1, tokens, c :: rest =>
    if isAsciiWhitespace c = true then tokenizeLoop fuel tokens rest
    else if c = '/' ∧ rest.head? = some '/' then
      tokenizeLoop fuel tokens (rest.dropWhile (· ≠ '\n'))
    else if c = '/' ∧ rest.head? = some '*' then skipComment rest.tail >>= tokenizeLoop fuel tokens
    else do
      check (tokens.length < maxProtobufTokens) "protobuf-token-count-limit-exceeded"
      let (token, rest) ← readToken c rest
      tokenizeLoop fuel (tokens ++ [token]) rest

def tokenizeProto (source : String) : Except String (List Token) :=
  tokenizeLoop source.toList.length [] source.toList

/-! ### Identifiers and numbers -/

def isIdentifier (text : String) : Bool :=
  match text.toList with
  | [] => false
  | c :: rest => startsWord c && rest.all isWordChar

/-- A number starts with a digit. -/
def isLiteral (text : String) : Bool := text.toList.head?.any Char.isDigit

end ContractScan
