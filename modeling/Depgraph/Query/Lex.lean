import Depgraph.Query.ParseExact
import Depgraph.Query.TypeSound

/-!
# The lexer of bounded queries

The lexer of `bounded_query.rs`, and with it what `parse_bounded_query` accepts. Every round of the
lexer reads a character, and the tokens that it makes are followed by one that ends the input, so that
the parser never looks past them. The contents of string literals are read by a JSON library, which is
a parameter.
-/

namespace Query

open Json Protocol Metered TypeChecker

def maxQueryBytes : Nat := 64 * 1024

def maxQueryTokens : Nat := 4096

/-! ### Credentials -/

/-- `contains`. -/
def containsText (part : String) (text : List Char) : Bool :=
  text.tails.any part.toList.isPrefixOf

/-- The text before the first occurrence of a part and the text after it. -/
def splitAtText (part : List Char) : List Char → Option (List Char × List Char)
  | [] => if part.isEmpty then some ([], []) else none
  | char :: rest =>
    if part.isPrefixOf (char :: rest) then some ([], (char :: rest).drop part.length)
    else (splitAtText part rest).map fun found => (char :: found.1, found.2)

def urlAuthorityHasUserinfo (value : List Char) : Bool :=
  match splitAtText "://".toList value with
  | none => false
  | some (scheme, rest) =>
    !scheme.isEmpty && scheme.all (fun char => char.isAlphanum || char ∈ ['+', '-', '.']) &&
      (rest.takeWhile fun char => char ∉ ['/', '?', '#']).contains '@'

def looksLikeQueryCredential (text : String) : Bool :=
  let value := text.toList
  let lower := value.map Char.toLower
  ["bearer ", "basic ", "ghp_", "github_pat_", "sk-", "xoxb-", "xoxp-", "xoxa-", "xoxr-"].any
      (fun start => start.toList.isPrefixOf lower) ||
    ["AKIA", "AIza"].any (fun start => start.toList.isPrefixOf value) ||
    ("eyJ".toList.isPrefixOf value && value.count '.' == 2) ||
    (containsText "-----begin " lower && containsText "private key-----" lower) ||
    ["token=", "secret=", "password=", "api_key=", "apikey="].any
      (fun marker => containsText marker lower) ||
    urlAuthorityHasUserinfo value

/-! ### Tokens -/

/-- `Lexer`: the characters that are not read yet, where they start, and the tokens so far. -/
structure Lexer where
  rest : List Char
  offset : Nat
  line : Nat
  column : Nat
  tokens : List Token

namespace Lexer

def new (input : String) : Lexer := ⟨input.toList, 0, 1, 1, []⟩

variable (lexer : Lexer)

def origin : QueryOrigin := ⟨lexer.line, lexer.column, lexer.offset⟩

/-- Reads characters of the line. -/
def advance (read : List Char) : Lexer :=
  { lexer with
    rest := lexer.rest.drop read.length
    offset := lexer.offset + (read.map Char.utf8Size).sum
    column := lexer.column + read.length }

def advanceNewline : Lexer :=
  { lexer with
    rest := lexer.rest.tail
    offset := lexer.offset + 1
    line := lexer.line + 1
    column := 1 }

/-- A diagnostic at a token. -/
def errorAt {α : Type} (code : String) (failureClass : QueryFailureClass)
    (tokenClass message : String) (origin : QueryOrigin) : Except QueryDiagnostic α :=
  .error ⟨code, failureClass, "lexer", tokenClass, origin, message⟩

def push (kind : TokenKind) (origin : QueryOrigin) : Except QueryDiagnostic Lexer :=
  if maxQueryTokens ≤ lexer.tokens.length then
    errorAt "query_token_limit_exceeded" .limit kind.tokenClass "query exceeds the token limit"
      origin
  else .ok { lexer with tokens := lexer.tokens ++ [⟨kind, origin⟩] }

/-- A character of an identifier. -/
def isIdentifierChar (char : Char) : Bool := char.isAlphanum || char == '_'

def lexIdentifier : Except QueryDiagnostic Lexer :=
  let word := lexer.rest.takeWhile isIdentifierChar
  if 64 < word.length then
    errorAt "query_identifier_too_long" .limit "identifier" "identifier exceeds its length limit"
      lexer.origin
  else (lexer.advance word).push (.identifier (String.ofList word)) lexer.origin

/-- The number that digits stand for. -/
def digitsValue (digits : List Char) : Nat :=
  digits.foldl (fun value digit => 10 * value + (digit.toNat - '0'.toNat)) 0

def lexUnsigned : Except QueryDiagnostic Lexer :=
  let raw := lexer.rest.takeWhile Char.isDigit
  if 1 < raw.length ∧ raw.head? = some '0' then
    errorAt "query_integer_not_canonical" .syntactic "unsigned_integer"
      "unsigned integer is not canonical" lexer.origin
  else if 2 ^ 64 ≤ digitsValue raw then
    errorAt "query_integer_out_of_range" .limit "unsigned_integer"
      "unsigned integer exceeds its range" lexer.origin
  else (lexer.advance raw).push (.unsigned (digitsValue raw)) lexer.origin

/-- How the characters after a quotation mark go on. -/
inductive Scan where
  | closed (inner : List Char)
  | control
  | missing

/-- The character belongs to the literal. -/
def Scan.cons (char : Char) : Scan → Scan
  | .closed inner => .closed (char :: inner)
  | scan => scan

/-- The loop of `lex_string`. -/
def scanString (escaped : Bool) : List Char → Scan
  | [] => .missing
  | char :: rest =>
    if !escaped && char == '"' then .closed []
    else if char.toNat < 32 then .control
    else (scanString (!escaped && char == '\\') rest).cons char

/-- The error of an invalid string literal. -/
def stringInvalid : Except QueryDiagnostic Lexer :=
  errorAt "query_string_invalid" .syntactic "string"
    "string literal is not valid JSON string syntax" lexer.origin

variable (jsonString : List Char → Option String)

def lexString : Except QueryDiagnostic Lexer :=
  match scanString false lexer.rest.tail with
  | .missing => errorAt "query_string_unterminated" .syntactic "string"
      "string literal is unterminated" lexer.origin
  | .control => lexer.stringInvalid
  | .closed inner =>
    let raw := '"' :: inner ++ ['"']
    match jsonString raw with
    | none => lexer.stringInvalid
    | some value =>
      if looksLikeQueryCredential value then
        errorAt "query_literal_credential_shape" .security "string"
          "string literal matches the credential-shape policy" lexer.origin
      else (lexer.advance raw).push (.string value) lexer.origin

/-- The symbol that starts with a character, and its length. -/
def symbolOf (char : Char) (next : Option Char) : Option (TokenKind × Nat) :=
  match char with
  | '(' => some (.leftParen, 1)
  | ')' => some (.rightParen, 1)
  | '[' => some (.leftBracket, 1)
  | ']' => some (.rightBracket, 1)
  | ',' => some (.comma, 1)
  | ':' => some (.colon, 1)
  | ';' => some (.semicolon, 1)
  | '|' => some (.pipe, 1)
  | '*' => some (.star, 1)
  | '=' => some (.equal, 1)
  | '!' => if next = some '=' then some (.notEqual, 2) else none
  | '<' =>
    if next = some '=' then some (.lessOrEqual, 2)
    else if next = some '-' then some (.arrowLeft, 2)
    else some (.less, 1)
  | '>' => if next = some '=' then some (.greaterOrEqual, 2) else some (.greater, 1)
  | '-' => if next = some '>' then some (.arrowRight, 2) else some (.dash, 1)
  | '.' => if next = some '.' then some (.range, 2) else some (.dot, 1)
  | _ => none

/-- `single` and `double`. -/
def lexSymbol (char : Char) : Except QueryDiagnostic Lexer :=
  match symbolOf char lexer.rest.tail.head? with
  | some (kind, length) => (lexer.advance (lexer.rest.take length)).push kind lexer.origin
  | none => errorAt "query_lex_invalid_character" .syntactic "invalid_character"
      "query contains a character outside the grammar" lexer.origin

/-- The loop body of `lex`, on the next character. -/
def lexNext (char : Char) : Except QueryDiagnostic Lexer :=
  if char ∈ [' ', '\t', '\r'] then .ok (lexer.advance [char])
  else if char = '\n' then .ok lexer.advanceNewline
  else if char.isAlpha || char == '_' then lexer.lexIdentifier
  else if char.isDigit then lexer.lexUnsigned
  else if char = '"' then lexer.lexString jsonString
  else lexer.lexSymbol char

/-! ### Progress -/

section Progress

variable {lexer} {jsonString} {next : Lexer}

theorem push_rest {kind : TokenKind} {origin : QueryOrigin}
    (h : lexer.push kind origin = .ok next) : next.rest = lexer.rest := by
  unfold push errorAt at h
  split_ifs at h
  exact Except.ok.inj h ▸ rfl

theorem advance_shorter {read : List Char} (hread : read ≠ []) (hrest : lexer.rest ≠ []) :
    (lexer.advance read).rest.length < lexer.rest.length := by
  rw [advance, List.length_drop]
  exact Nat.sub_lt (List.length_pos_iff.2 hrest) (List.length_pos_iff.2 hread)

theorem push_shorter {read : List Char} {kind : TokenKind} {origin : QueryOrigin}
    (hread : read ≠ []) (hrest : lexer.rest ≠ [])
    (h : (lexer.advance read).push kind origin = .ok next) :
    next.rest.length < lexer.rest.length :=
  push_rest h ▸ advance_shorter hread hrest

theorem takeWhile_ne_nil {test : Char → Bool} {char : Char} {rest : List Char}
    (h : test char = true) : (char :: rest).takeWhile test ≠ [] := by
  rw [List.takeWhile_cons_of_pos h]
  exact List.cons_ne_nil _ _

theorem lexSymbol_shorter {char : Char} (hrest : lexer.rest ≠ [])
    (h : lexer.lexSymbol char = .ok next) : next.rest.length < lexer.rest.length := by
  unfold lexSymbol at h
  split at h
  · rename_i kind length hsymbol
    refine push_shorter (fun hnil => ?_) hrest h
    have hlength : length ≠ 0 := by
      rintro rfl
      unfold symbolOf at hsymbol
      split at hsymbol <;> (try split_ifs at hsymbol) <;> cases hsymbol
    exact (List.take_eq_nil_iff.1 hnil).elim hlength hrest
  · cases h

/-- **Every round of the lexer reads a character.** -/
theorem lexNext_shorter {char : Char} {rest : List Char} (hrest : lexer.rest = char :: rest)
    (h : lexer.lexNext jsonString char = .ok next) : next.rest.length < lexer.rest.length := by
  have hne : lexer.rest ≠ [] := hrest ▸ List.cons_ne_nil _ _
  unfold lexNext at h
  split_ifs at h with hblank hline hword hdigit hquote
  · exact Except.ok.inj h ▸ advance_shorter (List.cons_ne_nil _ _) hne
  · obtain rfl := Except.ok.inj h
    rw [advanceNewline, hrest]
    exact Nat.lt_succ_self _
  · unfold lexIdentifier errorAt at h
    dsimp only at h
    split_ifs at h
    refine push_shorter (hrest ▸ takeWhile_ne_nil ?_) hne h
    unfold isIdentifierChar Char.isAlphanum
    rcases Bool.or_eq_true_iff.1 hword with hword | hword
    · rw [hword, Bool.true_or, Bool.true_or]
    · rw [hword, Bool.or_true]
  · unfold lexUnsigned errorAt at h
    dsimp only at h
    split_ifs at h
    exact push_shorter (hrest ▸ takeWhile_ne_nil hdigit) hne h
  · unfold lexString stringInvalid errorAt at h
    split at h
    · cases h
    · cases h
    · dsimp only at h
      split at h
      · cases h
      · split_ifs at h
        exact push_shorter (List.cons_ne_nil _ _) hne h
  · exact lexSymbol_shorter hne h

end Progress

/-- The loop of `lex`. -/
def lexFrom (jsonString : List Char → Option String) (lexer : Lexer) :
    Except QueryDiagnostic (List Token) :=
  match hrest : lexer.rest with
  | [] => .ok (lexer.tokens ++ [⟨.endOfInput, lexer.origin⟩])
  | char :: _ =>
    match hnext : lexer.lexNext jsonString char with
    | .error diagnostic => .error diagnostic
    | .ok next =>
      have := lexNext_shorter hrest hnext
      lexFrom jsonString next
termination_by lexer.rest.length

def lex (input : String) : Except QueryDiagnostic (List Token) := lexFrom jsonString (new input)

/-- A token that ends the input follows the other tokens. -/
theorem ends_of_lexFrom {jsonString : List Char → Option String} (lexer : Lexer)
    {tokens : List Token} (h : lexFrom jsonString lexer = .ok tokens) : Parser.Ends tokens := by
  fun_induction lexFrom jsonString lexer with
  | case1 lexer hrest =>
    obtain rfl := Except.ok.inj h
    exact ⟨_, List.getLast?_concat, rfl⟩
  | case2 lexer char rest hrest diagnostic hnext => cases h
  | case3 lexer char rest hrest next hnext hshorter ih => exact ih h

end Lexer

/-! ### Queries -/

section Parse

variable (F : FloatText) (jsonString : List Char → Option String)

def parseBoundedQuery (query : String) : Except Parser.Failure QueryAst :=
  if maxQueryBytes < query.utf8ByteSize then
    .error (.diagnostic ⟨"query_input_bytes_exceeded", .limit, "input", "query_input", ⟨1, 1, 0⟩,
      "query input exceeds the byte limit"⟩)
  else
    match Lexer.lex jsonString query with
    | .error diagnostic => .error (.diagnostic diagnostic)
    | .ok tokens => Metered.run (Parser.parse F) ⟨tokens, 0⟩

theorem parses_text (query : String) :
    parseBoundedQuery F jsonString query ≠ .error .outOfBounds ∧
      ∀ ast, parseBoundedQuery F jsonString query = .ok ast → ast.WellFormed F := by
  unfold parseBoundedQuery
  split_ifs
  · exact ⟨fun h => Parser.Failure.noConfusion (Except.error.inj h), fun ast h => by cases h⟩
  split
  · exact ⟨fun h => Parser.Failure.noConfusion (Except.error.inj h), fun ast h => by cases h⟩
  · rename_i tokens hlex
    -- the parser starts within the tokens, and their end is one of them
    have hsound : Parser.Sound ⟨tokens, 0⟩ := ⟨Lexer.ends_of_lexFrom _ hlex, Nat.zero_le _⟩
    obtain ⟨herror, hok⟩ := Parser.parses_parse.run hsound
    refine ⟨fun h => herror _ h rfl, fun ast h => ?_⟩
    obtain ⟨parser, k, hfollows, hk, hast⟩ := hok ast h
    refine hast ?_
    rw [← hk]
    have hcount := hfollows.count
    rw [Nat.zero_add] at hcount
    exact hcount ▸ hfollows.sound.existential

theorem wellFormed_of_parse {F : FloatText} {jsonString : List Char → Option String}
    {query : String} {ast : QueryAst} (h : parseBoundedQuery F jsonString query = .ok ast) :
    ast.WellFormed F :=
  (parses_text F jsonString query).2 ast h

/-- **The parser never looks past the tokens, and what it accepts is within its bounds.** -/
theorem parseBoundedQuery_spec (query : String) :
    parseBoundedQuery F jsonString query ≠ .error .outOfBounds ∧
      ∀ ast, parseBoundedQuery F jsonString query = .ok ast → ast.WellFormed F :=
  parses_text F jsonString query

end Parse

/-- **From a text to rows.** A run of an accepted text ends with the rows of the answers of which its
where clause holds as it was written, or it stops at a limit or an interruption. -/
theorem answers_or_stops_of_text {F floatText : FloatText}
    {jsonString : List Char → Option String} {text : String} {ast : QueryAst}
    {query : TypedQueryAst} {snapshotId : String} {snapshot : QueriedSnapshot}
    {limits : BoundedQueryLimits} {interrupts : Nat → Option BoundedQueryExecutionError}
    {E : Executor} {S : StableIds} {metrics : BoundedQueryExecutionMetrics}
    (hparse : parseBoundedQuery F jsonString text = .ok ast)
    (hcheck : typeCheckBoundedQuery F ast = .ok query)
    (hnew : Executor.new floatText query snapshotId snapshot limits interrupts = .ok E) :
    (∀ error, Metered.run (E.runRows S (plannedSourceNodes query snapshot.nodes)) metrics =
        .error error → E.Stops error) ∧
      ∀ rows, Metered.run (E.runRows S (plannedSourceNodes query snapshot.nodes)) metrics =
          .ok rows →
        ∃ answers made, E.IsResult S rows answers made ∧ ∀ answer ∈ answers,
          ast.whereClause.all
            (means E ast.matchClause answer.1 answer.2.1 answer.2.2) = true := by
  have hast := wellFormed_of_parse hparse
  obtain ⟨topLevel, hchecked⟩ := exists_checked hcheck
  have hisNew := isNew_of_new hnew
  obtain ⟨hcount, hmeans⟩ := hchecked.keeps_meaning hisNew.asked
  have hwell : E.WellFormed := by
    refine hisNew.wellFormed ?_
    rw [hcount]
    exact hast.existentials.trans (by decide)
  refine ⟨fun error hrun => ?_, fun rows hrun => ?_⟩
  · exact (Executor.failsOnly_runRows hisNew hwell hchecked.typed S).run hrun
  · obtain ⟨answers, made, h⟩ := Executor.isResult_of_run hisNew hwell hrun
    refine ⟨answers, made, h, fun answer hanswer => ?_⟩
    rw [← hmeans]
    exact ((h.mem_iff _ _ _).1 hanswer).2.isMatch.clause

namespace TextSample

/-- The contents of a string literal without escapes. -/
def plainString (raw : List Char) : Option String := some (String.ofList raw.tail.dropLast)

/-- The targets of paths of up to two edges from the package `a`. -/
def text : String := "MATCH p=(s)-[\"d\"*1..2]->(t) WHERE s.id=\"a\" RETURN t LIMIT 9"

/-- Whether the text is accepted and an executor is made for it. -/
def isAccepted : Bool :=
  match parseBoundedQuery .plain plainString text with
  | .error _ => false
  | .ok ast =>
    match typeCheckBoundedQuery .plain ast with
    | .error _ => false
    | .ok query =>
      match Executor.new .plain query "snapshot" ExecuteSample.snapshot ExecuteSample.limits
          fun _ => none with
      | .error _ => false
      | .ok _ => true

theorem isAccepted_text : isAccepted = true := by decide +kernel

theorem parseBoundedQuery_text : ∃ ast, parseBoundedQuery .plain plainString text = .ok ast ∧
    ast.WellFormed .plain := by
  have haccepted := isAccepted_text
  unfold isAccepted at haccepted
  split at haccepted
  · cases haccepted
  · rename_i ast hparse
    exact ⟨ast, hparse, (parseBoundedQuery_spec .plain plainString text).2 ast hparse⟩

theorem answers_or_stops_sample : ∃ ast query E,
    parseBoundedQuery .plain plainString text = .ok ast ∧
    typeCheckBoundedQuery .plain ast = .ok query ∧
    Executor.new .plain query "snapshot" ExecuteSample.snapshot ExecuteSample.limits
      (fun _ => none) = .ok E ∧
    ∀ rows, Metered.run (E.runRows ExecuteSample.stableIds
        (plannedSourceNodes query ExecuteSample.snapshot.nodes)) ExecuteSample.metrics = .ok rows →
      ∃ answers made, E.IsResult ExecuteSample.stableIds rows answers made ∧
        ∀ answer ∈ answers, ast.whereClause.all
          (means E ast.matchClause answer.1 answer.2.1 answer.2.2) = true := by
  have haccepted := isAccepted_text
  unfold isAccepted at haccepted
  split at haccepted
  · cases haccepted
  rename_i ast hparse
  split at haccepted
  · cases haccepted
  rename_i query hcheck
  split at haccepted
  · cases haccepted
  · rename_i E hnew
    exact ⟨ast, query, E, hparse, hcheck, hnew, (answers_or_stops_of_text hparse hcheck hnew).2⟩

end TextSample

end Query
