import Depgraph.ContractScan.ProtobufTokenizer

/-!
# Parsing Protobuf files

`protobuf.rs`: `ProtoParser` on the tokens of a file. A function of the parser takes the tokens from
the cursor on and returns what it has read and the tokens that are left; going back to a checkpoint is
reading the same tokens again.

Spans and the paths of declarations in a descriptor, which the shape of a file does not read, are left
out. With them goes the check that the index of a declaration fits 32 bits, which the limit on tokens
never lets fail. The loops take fuel; one unit is spent on every statement.
-/

namespace ContractScan

open Std Fallible

/-! ### Tokens -/

def expect (expected : String) : List Token → Except String (List Token)
  | token :: rest =>
    if token.text = expected then .ok rest else .error "protobuf-unexpected-token"
  | [] => .error "protobuf-unexpected-token"

def expectIdentifier : List Token → Except String (String × List Token)
  | token :: rest =>
    if token.kind = .identifier then .ok (token.text, rest)
    else .error "protobuf-identifier-is-missing"
  | [] => .error "protobuf-identifier-is-missing"

def consume (expected : String) : List Token → Bool × List Token
  | token :: rest => if token.text = expected then (true, rest) else (false, token :: rest)
  | [] => (false, [])

def symbol (text : String) : Token := ⟨text, .symbol⟩

def keyword (text : String) : Token := ⟨text, .identifier⟩

/-! ### Names -/

/-- The loop of `parse_qualified_name`. -/
def qualifiedRest (value : String) : List Token → Except String (String × List Token)
  | [] => .ok (value, [])
  | [dot] =>
    if dot.text = "." then .error "protobuf-identifier-is-missing" else .ok (value, [dot])
  | dot :: token :: rest =>
    if dot.text = "." then
      if token.kind = .identifier then qualifiedRest (value ++ "." ++ token.text) rest
      else .error "protobuf-identifier-is-missing"
    else .ok (value, dot :: token :: rest)

def parseQualifiedName (allowLeadingDot : Bool) (tokens : List Token) :
    Except String (String × List Token) := do
  let (dotted, tokens) := if allowLeadingDot then consume "." tokens else (false, tokens)
  let (first, tokens) ← expectIdentifier tokens
  let (value, tokens) ← qualifiedRest ((if dotted then "." else "") ++ first) tokens
  check (boundedText value = true) "protobuf-qualified-name-is-unbounded"
  pure (value, tokens)

/-! ### Skipping -/

def maxProtobufDepth : Nat := 64

/-- The delimiter that closes one. -/
def closing (text : String) : Option String :=
  if text = "\x7b" then some "\x7d"
  else if text = "[" then some "]"
  else if text = "(" then some ")"
  else if text = "<" then some ">"
  else none

/-- The loop of `skip_statement_or_block`; the innermost open delimiter comes first. -/
def skipLoop : List String → List Token → Except String (List Token)
  | delimiters, [] =>
    if delimiters = [] then .ok [] else .error "protobuf-unterminated-declaration"
  | delimiters, token :: rest =>
    match closing token.text with
    | some close =>
      if maxProtobufDepth < delimiters.length + 1 then .error "protobuf-skip-depth-limit-exceeded"
      else skipLoop (close :: delimiters) rest
    | none =>
      match delimiters with
      | last :: outer =>
        if token.text = last then
          if outer = [] ∧ token.text = "\x7d" then .ok (consume ";" rest).2 else skipLoop outer rest
        else skipLoop (last :: outer) rest
      | [] =>
        if token.text = ";" then .ok rest
        else if token.text = "\x7d" then .ok (token :: rest)
        else skipLoop [] rest

theorem skipLoop_open {token : Token} {close : String} {delimiters : List String} {rest : List Token}
    (opens : closing token.text = some close) (h : delimiters.length + 1 ≤ maxProtobufDepth) :
    skipLoop delimiters (token :: rest) = skipLoop (close :: delimiters) rest := by
  rw [skipLoop.eq_def]
  simp only [opens, if_neg (Nat.not_lt.2 h)]

/-- `skip_statement_or_block`: the first token is stepped over whatever it is. -/
def skipStatementOrBlock : List Token → Except String (List Token)
  | [] => .ok []
  | _ :: rest => skipLoop [] rest

/-- `skip_balanced_body` at a depth. -/
def skipBalancedBody : Nat → List Token → Except String (List Token)
  | _, [] => .error "protobuf-block-is-unterminated"
  | depth, token :: rest =>
    if token.text = "\x7b" then
      if maxProtobufDepth < depth + 1 then .error "protobuf-nesting-depth-limit-exceeded"
      else skipBalancedBody (depth + 1) rest
    else if token.text = "\x7d" then
      if depth = 1 then .ok rest else skipBalancedBody (depth - 1) rest
    else skipBalancedBody depth rest

def skipToSemicolon : List String → List Token → Except String (List Token)
  | _, [] => .error "protobuf-field-is-unterminated"
  | delimiters, token :: rest =>
    match closing token.text with
    | some close => skipToSemicolon (close :: delimiters) rest
    | none =>
      match delimiters with
      | last :: outer =>
        if token.text = last then skipToSemicolon outer rest
        else skipToSemicolon (last :: outer) rest
      | [] => if token.text = ";" then .ok rest else skipToSemicolon [] rest

theorem skipToSemicolon_open {token : Token} {close : String} {delimiters : List String}
    {rest : List Token} (opens : closing token.text = some close) :
    skipToSemicolon delimiters (token :: rest) = skipToSemicolon (close :: delimiters) rest := by
  rw [skipToSemicolon.eq_def]
  simp only [opens]

/-! ### Fields and methods -/

def fieldLabel (tokens : List Token) : FieldLabel × List Token :=
  match tokens with
  | token :: rest =>
    if token.text = "optional" then (.optional, rest)
    else if token.text = "required" then (.required, rest)
    else if token.text = "repeated" then (.repeated, rest)
    else (.normal, tokens)
  | [] => (.normal, [])

/-- The type of a field. -/
def parseFieldType (tokens : List Token) : Except String (String × List Token) :=
  match consume "map" tokens with
  | (true, tokens) => do
    let tokens ← expect "<" tokens
    let (key, tokens) ← parseQualifiedName true tokens
    let tokens ← expect "," tokens
    let (value, tokens) ← parseQualifiedName true tokens
    let tokens ← expect ">" tokens
    pure (mapText key value, tokens)
  | (false, tokens) => parseQualifiedName true tokens

/-- `parse::<i32>`, where the number is positive. A token for a number starts with a digit. -/
def readNumber (text : String) : Option Int :=
  if text.toList.all Char.isDigit && text ≠ "" then
    let value : Nat := text.toList.foldl (fun value c => value * 10 + (c.toNat - 48)) 0
    if 0 < value ∧ value < 2 ^ 31 then some value else none
  else none

def parseFieldNumber : List Token → Except String (Int × List Token)
  | token :: rest =>
    if token.kind = .number then
      match readNumber token.text with
      | some number => .ok (number, rest)
      | none => .error "protobuf-field-number-is-invalid"
    else .error "protobuf-field-number-is-missing"
  | [] => .error "protobuf-field-number-is-missing"

def parseField (oneof : Option String) (tokens : List Token) :
    Except String (ProtoField × List Token) := do
  check (tokens ≠ []) "protobuf-field-is-missing"
  let (label, tokens) := fieldLabel tokens
  let (typeName, tokens) ← parseFieldType tokens
  let (name, tokens) ← expectIdentifier tokens
  let tokens ← expect "=" tokens
  let (number, tokens) ← parseFieldNumber tokens
  let tokens ← skipToSemicolon [] tokens
  pure (⟨name, number, label, typeName, oneof⟩, tokens)

/-- The type in the parentheses of a method. -/
def parseMethodType (tokens : List Token) : Except String ((Bool × String) × List Token) := do
  let tokens ← expect "(" tokens
  let (streaming, tokens) := consume "stream" tokens
  let (typeName, tokens) ← parseQualifiedName true tokens
  let tokens ← expect ")" tokens
  pure ((streaming, typeName), tokens)

/-- The end of a method: a block or a semicolon. -/
def parseRpcEnd (tokens : List Token) : Except String (List Token) :=
  match consume "\x7b" tokens with
  | (true, tokens) => skipBalancedBody 1 tokens
  | (false, tokens) => expect ";" tokens

def parseRpc (tokens : List Token) : Except String (ProtoMethod × List Token) := do
  let tokens ← expect "rpc" tokens
  let (name, tokens) ← expectIdentifier tokens
  let ((clientStreaming, inputType), tokens) ← parseMethodType tokens
  let tokens ← expect "returns" tokens
  let ((serverStreaming, outputType), tokens) ← parseMethodType tokens
  let tokens ← parseRpcEnd tokens
  pure (⟨name, inputType, outputType, clientStreaming, serverStreaming⟩, tokens)

/-! ### Oneofs and services -/

/-- The loop of `parse_oneof`. -/
def parseOneofMembers (oneof : String) : Nat → List ProtoField → List Token →
    Except String (List ProtoField × List Token)
  | _, _, [] | 0, _, _ => .error "protobuf-oneof-is-unterminated"
  | fuel + 1, fields, token :: rest =>
    if token.text = "\x7d" then .ok (fields, rest)
    else if token.text = "option" ∨ token.text = ";" then
      skipStatementOrBlock (token :: rest) >>= parseOneofMembers oneof fuel fields
    else
      match parseField (some oneof) (token :: rest) with
      | .ok (field, rest) => parseOneofMembers oneof fuel (fields ++ [field]) rest
      | .error _ => skipStatementOrBlock (token :: rest) >>= parseOneofMembers oneof fuel fields

def parseOneof (fuel : Nat) (fields : List ProtoField) (tokens : List Token) :
    Except String (List ProtoField × List Token) := do
  let tokens ← expect "oneof" tokens
  let (name, tokens) ← expectIdentifier tokens
  let tokens ← expect "\x7b" tokens
  let (fields, tokens) ← parseOneofMembers name fuel fields tokens
  pure (fields, (consume ";" tokens).2)

/-- The loop of `parse_service`. -/
def parseServiceMembers : Nat → List ProtoMethod → List Token →
    Except String (List ProtoMethod × List Token)
  | _, _, [] | 0, _, _ => .error "protobuf-service-is-unterminated"
  | fuel + 1, methods, token :: rest =>
    if token.text = "\x7d" then .ok (methods, rest)
    else if token.text = "rpc" then do
      let (method, rest) ← parseRpc (token :: rest)
      parseServiceMembers fuel (methods ++ [method]) rest
    else skipStatementOrBlock (token :: rest) >>= parseServiceMembers fuel methods

def parseService (fuel : Nat) (package : String) (services : ExtTreeMap String ProtoService)
    (tokens : List Token) : Except String (ExtTreeMap String ProtoService × List Token) := do
  let tokens ← expect "service" tokens
  let (name, tokens) ← expectIdentifier tokens
  let coordinate := qualify package "" name
  let tokens ← expect "\x7b" tokens
  let (methods, tokens) ← parseServiceMembers fuel [] tokens
  let tokens := (consume ";" tokens).2
  let services ← insertNew services coordinate ⟨coordinate, methods⟩ "duplicate-protobuf-service"
  pure (services, tokens)

/-! ### Messages and enums -/

/-- The declarations that a message may nest. -/
structure Declared where
  messages : ExtTreeMap String ProtoMessage
  enums : ExtTreeSet String

def parseEnum (package parent : String) (depth : Nat) (declared : Declared) (tokens : List Token) :
    Except String (Declared × List Token) := do
  check (depth < maxProtobufDepth) "protobuf-nesting-depth-limit-exceeded"
  let tokens ← expect "enum" tokens
  let (name, tokens) ← expectIdentifier tokens
  let tokens ← expect "\x7b" tokens
  let tokens ← skipBalancedBody 1 tokens
  let tokens := (consume ";" tokens).2
  let enums ← insertName declared.enums (qualify package parent name) "duplicate-protobuf-enum"
  pure ({ declared with enums }, tokens)

/-- The statements that the loop of `parse_message` steps over. -/
def skippedInMessage : List String := ["option", "reserved", "extensions", "extend", "group"]

mutual

def parseMessage (package : String) : Nat → String → Nat → Declared → List Token →
    Except String (Declared × List Token)
  | 0, _, _, _, _ => .error "protobuf-message-is-unterminated"
  | fuel + 1, parent, depth, declared, tokens => do
    check (depth < maxProtobufDepth) "protobuf-nesting-depth-limit-exceeded"
    let tokens ← expect "message" tokens
    let (name, tokens) ← expectIdentifier tokens
    let coordinate := qualify package parent name
    let tokens ← expect "\x7b" tokens
    let ((declared, fields), tokens) ← parseBody package fuel coordinate depth (declared, []) tokens
    let tokens := (consume ";" tokens).2
    let messages ← insertNew declared.messages coordinate ⟨coordinate, fields⟩
      "duplicate-protobuf-message"
    pure ({ declared with messages }, tokens)

/-- The loop of `parse_message`. -/
def parseBody (package : String) : Nat → String → Nat → Declared × List ProtoField → List Token →
    Except String ((Declared × List ProtoField) × List Token)
  | _, _, _, _, [] | 0, _, _, _, _ => .error "protobuf-message-is-unterminated"
  | fuel + 1, coordinate, depth, (declared, fields), token :: rest =>
    if token.text = "\x7d" then .ok ((declared, fields), rest)
    else if token.text = "message" then do
      let (declared, rest) ←
        parseMessage package fuel coordinate (depth + 1) declared (token :: rest)
      parseBody package fuel coordinate depth (declared, fields) rest
    else if token.text = "enum" then do
      let (declared, rest) ← parseEnum package coordinate (depth + 1) declared (token :: rest)
      parseBody package fuel coordinate depth (declared, fields) rest
    else if token.text = "oneof" then do
      let (fields, rest) ← parseOneof fuel fields (token :: rest)
      parseBody package fuel coordinate depth (declared, fields) rest
    else if token.text ∈ skippedInMessage then
      skipStatementOrBlock (token :: rest) >>= parseBody package fuel coordinate depth (declared, fields)
    else if token.text = ";" then parseBody package fuel coordinate depth (declared, fields) rest
    else
      match parseField none (token :: rest) with
      | .ok (field, rest) => parseBody package fuel coordinate depth (declared, fields ++ [field]) rest
      | .error _ =>
        skipStatementOrBlock (token :: rest) >>=
          parseBody package fuel coordinate depth (declared, fields)

end

theorem parseBody_message {package : String} {fuel : Nat} {coordinate : String} {depth : Nat}
    {declared : Declared} {fields : List ProtoField} {tokens : List Token} :
    parseBody package (fuel + 1) coordinate depth (declared, fields) (keyword "message" :: tokens) =
      parseMessage package fuel coordinate (depth + 1) declared (keyword "message" :: tokens) >>=
        fun found => parseBody package fuel coordinate depth (found.1, fields) found.2 := by
  have htext : (keyword "message").text = "message" := rfl
  rw [parseBody, if_neg (by decide), if_pos htext]

/-! ### Files -/

/-- The name after `package` that `discover_package` joins. -/
def discoveredRest (value : String) : List Token → Except String (String × List Token)
  | separator :: rest =>
    if separator.text = ";" then .ok (value, rest)
    else if separator.text = "." then
      match rest with
      | part :: rest =>
        if part.kind = .identifier then discoveredRest (value ++ "." ++ part.text) rest
        else .error "protobuf-package-is-invalid"
      | [] => .error "protobuf-package-is-invalid"
    else .error "protobuf-package-is-invalid"
  | [] => .error "protobuf-package-is-invalid"

def discoveredName (tokens : List Token) : Except String (String × List Token) := do
  check ((tokens.head?.map Token.kind) = some .identifier) "protobuf-package-is-invalid"
  let (first, tokens) ← expectIdentifier tokens
  let (value, tokens) ← discoveredRest first tokens
  check (boundedText value = true) "protobuf-package-is-invalid"
  pure (value, tokens)

/-- The loop of `discover_package`. -/
def discoverLoop : Nat → Nat → Bool → Option String → List Token → Except String (Option String)
  | _, _, _, package, [] => .ok package
  | 0, _, _, _, _ => .error "protobuf-package-is-invalid"
  | fuel + 1, depth, statementStart, package, token :: rest =>
    if depth = 0 ∧ statementStart = true ∧ token.kind = .identifier ∧ token.text = "package" then do
      let (discovered, rest) ← discoveredName rest
      check (package = none) "duplicate-protobuf-package"
      discoverLoop fuel 0 true (some discovered) rest
    else if token.text = "\x7b" then discoverLoop fuel (depth + 1) statementStart package rest
    else if token.text = "\x7d" then
      if depth = 0 then .error "protobuf-unbalanced-delimiter"
      else discoverLoop fuel (depth - 1) (statementStart || decide (depth = 1)) package rest
    else if token.text = ";" ∧ depth = 0 then discoverLoop fuel 0 true package rest
    else if depth = 0 ∧ statementStart = true then discoverLoop fuel 0 false package rest
    else discoverLoop fuel depth statementStart package rest

def discoverPackage (tokens : List Token) : Except String String := do
  let package ← discoverLoop tokens.length 0 true none tokens
  pure (package.getD "")

/-- The fields of `ProtoParser` that its loop changes. -/
structure ProtoParser where
  version : Option String
  packageDeclared : Bool
  imports : List ProtoImport
  declared : Declared
  services : ExtTreeMap String ProtoService

/-- `token.kind == TokenKind::String`, or the token is missing. -/
def expectString (missing wrong : String) : List Token → Except String (String × List Token)
  | token :: rest => if token.kind = .string then .ok (token.text, rest) else .error wrong
  | [] => .error missing

/-- The version that `parse_version` makes of a keyword and a text. -/
def versionOf (keyword value : String) : Except String String :=
  if keyword = "syntax" ∧ (value = "proto2" ∨ value = "proto3") then .ok value
  else if keyword = "edition" ∧ value ≠ "" ∧ value.toList.all Char.isDigit = true then
    .ok ("edition:" ++ value)
  else .error "unsupported-protobuf-version"

def parseVersion (keyword : String) (parser : ProtoParser) (tokens : List Token) :
    Except String (ProtoParser × List Token) := do
  let tokens ← expect keyword tokens
  let tokens ← expect "=" tokens
  let (value, tokens) ←
    expectString "protobuf-version-is-missing" "protobuf-version-is-not-a-string" tokens
  let version ← versionOf keyword value
  check (parser.version = none) "duplicate-protobuf-version"
  let tokens ← expect ";" tokens
  pure ({ parser with version := some version }, tokens)

def parsePackage (package : String) (parser : ProtoParser) (tokens : List Token) :
    Except String (ProtoParser × List Token) := do
  let tokens ← expect "package" tokens
  let (found, tokens) ← parseQualifiedName false tokens
  let tokens ← expect ";" tokens
  check (parser.packageDeclared = false ∧ found = package) "duplicate-protobuf-package"
  pure ({ parser with packageDeclared := true }, tokens)

/-- The kind of an import. -/
def importKind (tokens : List Token) : ImportKind × List Token :=
  match consume "public" tokens with
  | (true, tokens) => (.publicImport, tokens)
  | (false, tokens) =>
    match consume "weak" tokens with
    | (true, tokens) => (.weak, tokens)
    | (false, tokens) => (.normal, tokens)

def parseImport (parser : ProtoParser) (tokens : List Token) :
    Except String (ProtoParser × List Token) := do
  let tokens ← expect "import" tokens
  let (kind, tokens) := importKind tokens
  let (path, tokens) ←
    expectString "protobuf-import-path-is-missing" "protobuf-import-path-is-missing" tokens
  let tokens ← expect ";" tokens
  pure ({ parser with imports := parser.imports ++ [⟨path, kind⟩] }, tokens)

/-- The loop of `parse`. -/
def parseStatements (package : String) : Nat → ProtoParser → List Token → Except String ProtoParser
  | _, parser, [] => .ok parser
  | 0, _, _ => .error "protobuf-unexpected-token"
  | fuel + 1, parser, token :: rest =>
    if token.text = "syntax" ∨ token.text = "edition" then do
      let (parser, rest) ← parseVersion token.text parser (token :: rest)
      parseStatements package fuel parser rest
    else if token.text = "package" then do
      let (parser, rest) ← parsePackage package parser (token :: rest)
      parseStatements package fuel parser rest
    else if token.text = "import" then do
      let (parser, rest) ← parseImport parser (token :: rest)
      parseStatements package fuel parser rest
    else if token.text = "message" then do
      let (declared, rest) ← parseMessage package fuel "" 0 parser.declared (token :: rest)
      parseStatements package fuel { parser with declared } rest
    else if token.text = "enum" then do
      let (declared, rest) ← parseEnum package "" 0 parser.declared (token :: rest)
      parseStatements package fuel { parser with declared } rest
    else if token.text = "service" then do
      let (services, rest) ← parseService fuel package parser.services (token :: rest)
      parseStatements package fuel { parser with services } rest
    else if token.text = ";" then parseStatements package fuel parser rest
    else skipStatementOrBlock (token :: rest) >>= parseStatements package fuel parser

theorem parseStatements_package {package : String} {fuel : Nat} {parser : ProtoParser}
    {tokens : List Token} :
    parseStatements package (fuel + 1) parser (keyword "package" :: tokens) =
      parsePackage package parser (keyword "package" :: tokens) >>=
        fun found => parseStatements package fuel found.1 found.2 := by
  have htext : (keyword "package").text = "package" := rfl
  rw [parseStatements, if_neg (by decide), if_pos htext]

def parse (tokens : List Token) : Except String ProtoFile := do
  let package ← discoverPackage tokens
  let parser ← parseStatements package (tokens.length + 1) ⟨none, false, [], ⟨∅, ∅⟩, ∅⟩ tokens
  let version ← required parser.version "protobuf-syntax-or-edition-is-missing"
  pure ⟨version, package, parser.imports, parser.declared.messages, parser.declared.enums,
    parser.services⟩

end ContractScan
