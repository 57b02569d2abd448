import Depgraph.ContractScan.ProtobufParser

/-!
# What the parser reads of a statement

The tokens of names, fields, methods and the other statements of a Protobuf file, and what the parser
makes of each of them. A field whose type or number it cannot read is stepped over.

What is opaque here (the options of a field, the body of an enum or a method, a statement that is not
read) is `Balanced`, and is stepped over as a whole.
-/

namespace ContractScan

open Std Fallible

/-! ### Words -/

/-- A word that the tokenizer makes an identifier. -/
structure Identifier where
  text : String
  isIdentifier_text : isIdentifier text = true

/-- A text that the tokenizer makes a number. -/
structure Literal where
  text : String
  isLiteral_text : isLiteral text = true

theorem Identifier.text_ne (x : Identifier) {text : String} (h : isIdentifier text = false) :
    x.text ≠ text := by
  rintro rfl
  rw [x.isIdentifier_text] at h
  cases h

theorem Literal.text_ne (x : Literal) {text : String} (h : isLiteral text = false) :
    x.text ≠ text := by
  rintro rfl
  rw [x.isLiteral_text] at h
  cases h

def word (x : Identifier) : Token := ⟨x.text, .identifier⟩

/-! ### Balanced tokens -/

def closers : List String := ["\x7d", "]", ")", ">"]

/-- Tokens whose delimiters nest, to a depth. Between statements (`outer`) there is no semicolon and
no block. -/
inductive Balanced : Bool → Nat → List Token → Prop
  | nil {outer : Bool} {depth : Nat} : Balanced outer depth []
  | plain {outer : Bool} {depth : Nat} {token : Token} {rest : List Token}
      (opens : closing token.text = none) (closes : token.text ∉ closers)
      (semicolon : outer = true → token.text ≠ ";") (h : Balanced outer depth rest) :
      Balanced outer depth (token :: rest)
  | group {outer : Bool} {depth : Nat} {first last : Token} {inner rest : List Token}
      (opens : closing first.text = some last.text) (block : outer = true → first.text ≠ "\x7b")
      (hinner : Balanced false depth inner) (h : Balanced outer (depth + 1) rest) :
      Balanced outer (depth + 1) (first :: inner ++ last :: rest)

theorem closing_eq {first last : String} (h : closing first = some last) :
    last ∈ closers ∧ closing last = none ∧ (last = "\x7d" ↔ first = "\x7b") := by
  unfold closing at h
  split_ifs at h with h₁ h₂ h₃ h₄ <;> obtain rfl := Option.some.inj h <;> subst_vars <;> decide

theorem skipLoop_close {token : Token} {delimiters : List String} {rest : List Token}
    (opens : closing token.text = none) (h : ¬ (delimiters = [] ∧ token.text = "\x7d")) :
    skipLoop (token.text :: delimiters) (token :: rest) = skipLoop delimiters rest := by
  rw [skipLoop.eq_def]
  simp only [opens, if_true, if_neg h]

theorem skipLoop_block {token : Token} {rest : List Token} (h : token.text = "\x7d") :
    skipLoop [token.text] (token :: rest) = .ok (consume ";" rest).2 := by
  have opens : closing "\x7d" = none := by decide
  rw [skipLoop.eq_def]
  simp only [h, opens, if_true, and_self]

theorem skipLoop_plain {token : Token} {rest : List Token} (opens : closing token.text = none)
    (closes : token.text ∉ closers) (semicolon : token.text ≠ ";") :
    skipLoop [] (token :: rest) = skipLoop [] rest := by
  have hclose : token.text ≠ "\x7d" := fun h => closes (by rw [h]; decide)
  rw [skipLoop, opens]
  simp only [if_neg semicolon, if_neg hclose]

/-- **Balanced tokens are stepped over.** -/
theorem skipLoop_balanced {outer : Bool} {depth : Nat} {tokens : List Token}
    (h : Balanced outer depth tokens) {delimiters : List String}
    (hclosers : ∀ close ∈ delimiters, close ∈ closers) (houter : delimiters = [] → outer = true)
    (hdepth : delimiters.length + depth ≤ maxProtobufDepth) (rest : List Token) :
    skipLoop delimiters (tokens ++ rest) = skipLoop delimiters rest := by
  induction h generalizing delimiters rest with
  | nil => rfl
  | @plain outer depth token tokens opens closes semicolon _ ih =>
    rw [List.cons_append]
    cases delimiters with
    | nil => rw [skipLoop_plain opens closes (semicolon (houter rfl)), ih hclosers houter hdepth]
    | cons last open' =>
      have hne : token.text ≠ last := fun heq => closes (heq ▸ hclosers last List.mem_cons_self)
      rw [skipLoop, opens]
      simp only [if_neg hne]
      exact ih hclosers houter hdepth rest
  | @group outer depth first last inner tokens opens block _ _ ihInner ih =>
    obtain ⟨hmem, hlast, hblock⟩ := closing_eq opens
    have hopen : ∀ close ∈ last.text :: delimiters, close ∈ closers :=
      List.forall_mem_cons.2 ⟨hmem, hclosers⟩
    have hblockless : ¬ (delimiters = [] ∧ last.text = "\x7d") := by
      rintro ⟨hnil, hclose⟩
      exact block (houter hnil) (hblock.1 hclose)
    rw [List.append_assoc, List.cons_append, List.cons_append, skipLoop_open opens (by omega),
      ihInner hopen (by simp) (by rw [List.length_cons]; omega), skipLoop_close hlast hblockless,
      ih hclosers houter (by omega)]

theorem skipToSemicolon_close {token : Token} {delimiters : List String} {rest : List Token}
    (opens : closing token.text = none) :
    skipToSemicolon (token.text :: delimiters) (token :: rest) = skipToSemicolon delimiters rest := by
  rw [skipToSemicolon.eq_def]
  simp only [opens, if_true]

theorem skipToSemicolon_balanced {outer : Bool} {depth : Nat} {tokens : List Token}
    (h : Balanced outer depth tokens) {delimiters : List String}
    (hclosers : ∀ close ∈ delimiters, close ∈ closers) (houter : delimiters = [] → outer = true)
    (rest : List Token) :
    skipToSemicolon delimiters (tokens ++ rest) = skipToSemicolon delimiters rest := by
  induction h generalizing delimiters rest with
  | nil => rfl
  | @plain outer depth token tokens opens closes semicolon _ ih =>
    rw [List.cons_append, skipToSemicolon.eq_def]
    cases delimiters with
    | nil =>
      simp only [opens, if_neg (semicolon (houter rfl))]
      exact ih hclosers houter rest
    | cons last open' =>
      have hne : token.text ≠ last := fun heq => closes (heq ▸ hclosers last List.mem_cons_self)
      simp only [opens, if_neg hne]
      exact ih hclosers houter rest
  | @group outer depth first last inner tokens opens block _ _ ihInner ih =>
    obtain ⟨hmem, hlast, -⟩ := closing_eq opens
    have hopen : ∀ close ∈ last.text :: delimiters, close ∈ closers :=
      List.forall_mem_cons.2 ⟨hmem, hclosers⟩
    rw [List.append_assoc, List.cons_append, List.cons_append, skipToSemicolon_open opens,
      ihInner hopen (by simp), skipToSemicolon_close hlast, ih hclosers houter]

theorem skipBalancedBody_balanced {outer : Bool} {nested : Nat} {tokens : List Token}
    (h : Balanced outer nested tokens) {depth : Nat} (hpos : 0 < depth)
    (hdepth : depth + nested ≤ maxProtobufDepth) (rest : List Token) :
    skipBalancedBody depth (tokens ++ rest) = skipBalancedBody depth rest := by
  induction h generalizing depth rest with
  | nil => rfl
  | @plain outer nested token tokens opens closes _ _ ih =>
    have hopen : token.text ≠ "\x7b" := fun heq => by rw [heq] at opens; cases opens
    have hclose : token.text ≠ "\x7d" := fun heq => closes (by rw [heq]; decide)
    rw [List.cons_append, skipBalancedBody, if_neg hopen, if_neg hclose, ih hpos hdepth]
  | @group outer nested first last inner tokens opens _ _ _ ihInner ih =>
    obtain ⟨hmem, hlast, hblock⟩ := closing_eq opens
    rw [List.append_assoc, List.cons_append, List.cons_append]
    have hopen : last.text ≠ "\x7b" := fun heq => by rw [heq] at hlast; cases hlast
    by_cases hbrace : first.text = "\x7b"
    · rw [skipBalancedBody, if_pos hbrace, if_neg (by omega), ihInner (by omega) (by omega),
        skipBalancedBody, if_neg hopen, if_pos (hblock.2 hbrace), if_neg (by omega),
        Nat.add_sub_cancel, ih hpos hdepth]
    · have hclose : first.text ≠ "\x7d" := fun heq => by rw [heq] at opens; cases opens
      have hother : last.text ≠ "\x7d" := mt hblock.1 hbrace
      rw [skipBalancedBody, if_neg hbrace, if_neg hclose, ihInner hpos (by omega), skipBalancedBody,
        if_neg hopen, if_neg hother, ih hpos hdepth]

/-! ### Names -/

/-- A name as it is written: with a leading dot or not, and in parts. -/
structure WrittenName where
  full : Bool
  first : Identifier
  rest : List Identifier

namespace WrittenName

def text (name : WrittenName) : String :=
  name.rest.foldl (fun value part => value ++ "." ++ part.text)
    ((if name.full then "." else "") ++ name.first.text)

def restTokens (rest : List Identifier) : List Token :=
  rest.flatMap fun part => [symbol ".", word part]

/-- The first token of a name. -/
def head (name : WrittenName) : Token := if name.full then symbol "." else word name.first

/-- The other tokens of a name. -/
def tail (name : WrittenName) : List Token :=
  if name.full then word name.first :: restTokens name.rest else restTokens name.rest

def tokens (name : WrittenName) : List Token := name.head :: name.tail

end WrittenName

/-- The first of some tokens is not a text. -/
def HeadNe (text : String) (tokens : List Token) : Prop := ∀ token ∈ tokens.head?, token.text ≠ text

theorem headNe_cons {text : String} {token : Token} {rest : List Token} :
    HeadNe text (token :: rest) ↔ token.text ≠ text := by simp [HeadNe]

theorem consume_of_headNe {text : String} {tokens : List Token} (h : HeadNe text tokens) :
    consume text tokens = (false, tokens) := by
  cases tokens with
  | nil => rfl
  | cons token rest => rw [consume, if_neg (headNe_cons.1 h)]

theorem consume_symbol (text : String) (rest : List Token) :
    consume text (symbol text :: rest) = (true, rest) := if_pos rfl

theorem consume_keyword (text : String) (rest : List Token) :
    consume text (keyword text :: rest) = (true, rest) := if_pos rfl

theorem expect_symbol (text : String) (rest : List Token) :
    expect text (symbol text :: rest) = .ok rest := if_pos rfl

theorem expect_keyword (text : String) (rest : List Token) :
    expect text (keyword text :: rest) = .ok rest := if_pos rfl

theorem expectIdentifier_word (x : Identifier) (rest : List Token) :
    expectIdentifier (word x :: rest) = .ok (x.text, rest) := by simp [expectIdentifier, word]

theorem qualifiedRest_tokens (rest : List Identifier) {value : String} {tokens : List Token}
    (h : HeadNe "." tokens) : qualifiedRest value (WrittenName.restTokens rest ++ tokens) =
      .ok (rest.foldl (fun value part => value ++ "." ++ part.text) value, tokens) := by
  induction rest generalizing value with
  | nil =>
    cases tokens with
    | nil => rfl
    | cons token rest =>
      have hne := headNe_cons.1 h
      cases rest with
      | nil =>
        change qualifiedRest value [token] = _
        rw [qualifiedRest, if_neg hne]
        rfl
      | cons next rest =>
        change qualifiedRest value (token :: next :: rest) = _
        rw [qualifiedRest, if_neg hne]
        rfl
  | cons part rest ih => exact ih

/-- What a name is read as, where it is not too long. -/
theorem parseQualifiedName_tokens {allowLeadingDot : Bool} (name : WrittenName)
    (hfull : name.full = true → allowLeadingDot = true) {tokens : List Token}
    (h : HeadNe "." tokens) : parseQualifiedName allowLeadingDot (name.tokens ++ tokens) =
      if boundedText name.text = true then .ok (name.text, tokens)
      else .error "protobuf-qualified-name-is-unbounded" := by
  have hfirst : HeadNe "." (word name.first :: (WrittenName.restTokens name.rest ++ tokens)) :=
    headNe_cons.2 (name.first.text_ne (by decide))
  have hdot : (if allowLeadingDot then consume "." (name.tokens ++ tokens)
      else (false, name.tokens ++ tokens)) =
      (name.full, word name.first :: (WrittenName.restTokens name.rest ++ tokens)) := by
    cases hname : name.full with
    | true => simp [hfull hname, WrittenName.tokens, WrittenName.head, WrittenName.tail, hname,
        consume, symbol]
    | false =>
      have htokens : name.tokens ++ tokens =
          word name.first :: (WrittenName.restTokens name.rest ++ tokens) := by
        simp [WrittenName.tokens, WrittenName.head, WrittenName.tail, hname]
      rw [htokens, consume_of_headNe hfirst, ite_self]
  rw [parseQualifiedName, hdot]
  simp only [expectIdentifier, word, if_true, ok_bind, qualifiedRest_tokens name.rest h]
  change (check (boundedText name.text = true) _ >>= fun _ => pure (name.text, tokens)) = _
  unfold check
  split_ifs <;> rfl

theorem Balanced.append {outer : Bool} {depth : Nat} {tokens rest : List Token}
    (h : Balanced outer depth tokens) (hrest : Balanced outer depth rest) :
    Balanced outer depth (tokens ++ rest) := by
  induction h with
  | nil => exact hrest
  | plain opens closes semicolon _ ih => exact .plain opens closes semicolon (ih hrest)
  | group opens block hinner _ _ ih =>
    rw [List.append_assoc]
    exact .group opens block hinner (ih hrest)

theorem Balanced.word {outer : Bool} {depth : Nat} (x : Identifier) {rest : List Token}
    (h : Balanced outer depth rest) : Balanced outer depth (word x :: rest) := by
  have hopens : closing x.text = none := by
    rw [closing, if_neg (x.text_ne (by decide)), if_neg (x.text_ne (by decide)),
      if_neg (x.text_ne (by decide)), if_neg (x.text_ne (by decide))]
  refine .plain hopens (fun hmem => ?_) (fun _ => x.text_ne (by decide)) h
  have hnone : ∀ close ∈ closers, isIdentifier close = false := by decide
  exact x.text_ne (hnone _ hmem) rfl

theorem Balanced.plainText {outer : Bool} {depth : Nat} {kind : TokenKind} (text : String)
    (h : closing text = none ∧ text ∉ closers ∧ text ≠ ";") {rest : List Token}
    (hrest : Balanced outer depth rest) : Balanced outer depth (⟨text, kind⟩ :: rest) :=
  .plain h.1 h.2.1 (fun _ => h.2.2) hrest

theorem balanced_restTokens {outer : Bool} {depth : Nat} (rest : List Identifier) :
    Balanced outer depth (WrittenName.restTokens rest) := by
  induction rest with
  | nil => exact .nil
  | cons part rest ih => exact .plainText "." (by decide) (.word part ih)

theorem WrittenName.balanced {outer : Bool} {depth : Nat} (name : WrittenName) :
    Balanced outer depth name.tokens := by
  unfold tokens head tail
  split_ifs
  · exact .plainText "." (by decide) (.word _ (balanced_restTokens _))
  · exact .word _ (balanced_restTokens _)

/-! ### Fields -/

/-- The type of a field as it is written. -/
inductive WrittenType
  | named (name : WrittenName)
  | map (key value : WrittenName)

namespace WrittenType

def text : WrittenType → String
  | .named name => name.text
  | .map key value => mapText key.text value.text

def head : WrittenType → Token
  | .named name => name.head
  | .map _ _ => keyword "map"

def tail : WrittenType → List Token
  | .named name => name.tail
  | .map key value =>
    symbol "<" :: (key.tokens ++ symbol "," :: (value.tokens ++ [symbol ">"]))

def tokens (type : WrittenType) : List Token := type.head :: type.tail

/-- The parser reads the type: a name is not too long, and does not start with the word `map`. -/
def readable : WrittenType → Bool
  | .named name => (name.full || name.first.text ≠ "map") && boundedText name.text
  | .map key value => boundedText key.text && boundedText value.text

theorem balanced {outer : Bool} {depth : Nat} (type : WrittenType) :
    Balanced outer (depth + 1) type.tokens := by
  cases type with
  | named name => exact name.balanced
  | map key value =>
    refine .plainText "map" (by decide) ?_
    have hinner : Balanced false depth (key.tokens ++ symbol "," :: value.tokens) :=
      key.balanced.append (.plainText "," (by decide) value.balanced)
    have hgroup : Balanced outer (depth + 1)
        (symbol "<" :: (key.tokens ++ symbol "," :: value.tokens) ++ [symbol ">"]) :=
      .group (by rfl) (fun _ => by decide) hinner .nil
    rwa [List.cons_append, List.append_assoc, List.cons_append] at hgroup

/-- What a type is read as, if it is readable. -/
theorem parseFieldType_tokens (type : WrittenType) {tokens : List Token} (hdot : HeadNe "." tokens)
    (hopen : HeadNe "<" tokens) :
    (type.readable = true → parseFieldType (type.tokens ++ tokens) = .ok (type.text, tokens)) ∧
      (type.readable = false → ∃ e, parseFieldType (type.tokens ++ tokens) = .error e) := by
  cases type with
  | named name =>
    by_cases hmap : name.full = true ∨ name.first.text ≠ "map"
    · have hhead : HeadNe "map" (name.tokens ++ tokens) := by
        refine headNe_cons.2 ?_
        unfold WrittenName.head
        split_ifs with hfull
        · decide
        · exact hmap.resolve_left hfull
      have hread : parseFieldType (name.tokens ++ tokens) =
          if boundedText name.text = true then .ok (name.text, tokens)
          else .error "protobuf-qualified-name-is-unbounded" := by
        rw [parseFieldType, consume_of_headNe hhead]
        exact parseQualifiedName_tokens name (fun _ => rfl) hdot
      have hreadable : (WrittenType.named name).readable = boundedText name.text := by
        simp only [readable, Bool.and_eq_right_iff_imp, Bool.or_eq_true, decide_eq_true_eq]
        exact fun _ => hmap
      rw [hreadable]
      refine ⟨fun h => hread.trans (if_pos h), fun h => ⟨_, hread.trans (if_neg ?_)⟩⟩
      rw [h]
      exact Bool.false_ne_true
    · obtain ⟨hfull, hfirst⟩ := not_or.1 hmap
      have hfull : name.full = false := Bool.eq_false_iff.2 hfull
      have hreadable : (WrittenType.named name).readable = false := by
        simp only [readable, hfull, not_not.1 hfirst]
        rfl
      refine ⟨fun h => absurd (hreadable.symm.trans h) Bool.false_ne_true, fun _ => ?_⟩
      have htokens : name.tokens ++ tokens =
          word name.first :: (WrittenName.restTokens name.rest ++ tokens) := by
        simp [WrittenName.tokens, WrittenName.head, WrittenName.tail, hfull]
      have hrest : HeadNe "<" (WrittenName.restTokens name.rest ++ tokens) := by
        cases name.rest with
        | nil => exact hopen
        | cons part rest => exact headNe_cons.2 (by decide)
      change ∃ e, parseFieldType (name.tokens ++ tokens) = .error e
      have hconsume : consume "map" (word name.first :: (WrittenName.restTokens name.rest ++ tokens)) =
          (true, WrittenName.restTokens name.rest ++ tokens) := if_pos (not_not.1 hfirst)
      rw [htokens, parseFieldType, hconsume]
      cases hnext : WrittenName.restTokens name.rest ++ tokens with
      | nil => exact ⟨_, rfl⟩
      | cons token rest =>
        rw [hnext] at hrest
        have hexpect : expect "<" (token :: rest) = .error "protobuf-unexpected-token" :=
          if_neg (headNe_cons.1 hrest)
        exact ⟨_, by simp only [hexpect]; rfl⟩
  | map key value =>
    have hread : parseFieldType ((WrittenType.map key value).tokens ++ tokens) =
        if boundedText key.text = true then
          if boundedText value.text = true then .ok (mapText key.text value.text, tokens)
          else .error "protobuf-qualified-name-is-unbounded"
        else .error "protobuf-qualified-name-is-unbounded" := by
      have htokens : (WrittenType.map key value).tokens ++ tokens =
          keyword "map" :: symbol "<" :: (key.tokens ++ symbol "," ::
            (value.tokens ++ symbol ">" :: tokens)) := by
        simp [WrittenType.tokens, head, tail]
      rw [htokens, parseFieldType, consume_keyword]
      simp only
      rw [expect_symbol, ok_bind, parseQualifiedName_tokens key (fun _ => rfl) (headNe_cons.2 (by decide))]
      split_ifs with hkey hvalue
      · rw [ok_bind]
        simp only
        rw [expect_symbol, ok_bind,
          parseQualifiedName_tokens value (fun _ => rfl) (headNe_cons.2 (by decide)), if_pos hvalue]
        rfl
      · rw [ok_bind]
        simp only
        rw [expect_symbol, ok_bind,
          parseQualifiedName_tokens value (fun _ => rfl) (headNe_cons.2 (by decide)), if_neg hvalue]
        rfl
      · rfl
    rw [hread]
    cases hkey : boundedText key.text <;> cases hvalue : boundedText value.text <;>
      simp [readable, hkey, hvalue, text]

end WrittenType

/-- A field as it is written. Its number is what the literal stands for. -/
structure WrittenField where
  label : FieldLabel
  type : WrittenType
  name : Identifier
  literal : Literal
  number : Int
  options : List Token

namespace WrittenField

/-- The field that is declared. -/
def declared (oneof : Option String) (field : WrittenField) : ProtoField :=
  ⟨field.name.text, field.number, field.label, field.type.text, oneof⟩

/-- The field that is read, if it is. -/
def read (oneof : Option String) (field : WrittenField) : Option ProtoField :=
  if field.type.readable then
    (readNumber field.literal.text).map fun number => { field.declared oneof with number }
  else none

/-- The first token of a field. -/
def head (field : WrittenField) : Token :=
  match field.label with
  | .normal => field.type.head
  | .optional => keyword "optional"
  | .required => keyword "required"
  | .repeated => keyword "repeated"

def afterType (field : WrittenField) : List Token :=
  word field.name :: symbol "=" :: ⟨field.literal.text, .number⟩ :: (field.options ++ [symbol ";"])

/-- The other tokens of a field. -/
def tail (field : WrittenField) : List Token :=
  match field.label with
  | .normal => field.type.tail ++ field.afterType
  | _ => field.type.tokens ++ field.afterType

def tokens (field : WrittenField) : List Token := field.head :: field.tail

/-- The words that another statement of a message starts with. -/
def statementWords : List String :=
  ["message", "enum", "oneof", "option", "reserved", "extensions", "extend", "group"]

/-- The words that a type cannot start with where a field can stand. -/
def reservedWords : List String := ["optional", "required", "repeated"] ++ statementWords

/-- The field is a field of the language: it does not start like another statement, and its options
are balanced. -/
structure Regular (field : WrittenField) : Prop where
  start : field.label = .normal → field.type.head.text ∉ reservedWords
  options : Balanced true 63 field.options

/-- A field starts with a word or a dot. -/
theorem head_text_ne (field : WrittenField) {text : String} (h : isIdentifier text = false)
    (hdot : text ≠ ".") : field.head.text ≠ text := by
  have hword {first : String} (hfirst : isIdentifier first = true) : first ≠ text := by
    rintro rfl
    rw [h] at hfirst
    cases hfirst
  have hname (name : WrittenName) : name.head.text ≠ text := by
    unfold WrittenName.head
    split_ifs
    · exact hdot.symm
    · exact name.first.text_ne h
  unfold head
  cases field.label with
  | normal =>
    cases field.type with
    | named name => exact hname name
    | map key value => exact hword (show isIdentifier "map" = true by decide)
  | optional => exact hword (show isIdentifier "optional" = true by decide)
  | required => exact hword (show isIdentifier "required" = true by decide)
  | repeated => exact hword (show isIdentifier "repeated" = true by decide)

theorem Regular.head_notMem {field : WrittenField} (h : field.Regular) :
    field.head.text ∉ statementWords := by
  have hword := h.start
  unfold head
  cases hlabel : field.label with
  | normal => exact fun hmem => hword hlabel (List.mem_append_right _ hmem)
  | optional => exact (by decide : "optional" ∉ statementWords)
  | required => exact (by decide : "required" ∉ statementWords)
  | repeated => exact (by decide : "repeated" ∉ statementWords)

theorem fieldLabel_tokens {field : WrittenField} (h : field.Regular) (tokens : List Token) :
    fieldLabel (field.tokens ++ tokens) =
      (field.label, field.type.tokens ++ (field.afterType ++ tokens)) := by
  have hword := h.start
  unfold WrittenField.tokens WrittenField.head WrittenField.tail
  cases hlabel : field.label with
  | normal =>
    have hnot := hword hlabel
    simp only [reservedWords, List.cons_append, List.mem_cons, not_or] at hnot
    rw [List.cons_append, fieldLabel, if_neg hnot.1, if_neg hnot.2.1, if_neg hnot.2.2.1,
      List.append_assoc]
    rfl
  | optional | required | repeated =>
    rw [List.cons_append, List.append_assoc]
    rfl

theorem parseField_afterType (field : WrittenField) (hoptions : Balanced true 63 field.options)
    (tokens : List Token) :
    (do
      let (name, tokens) ← expectIdentifier (field.afterType ++ tokens)
      let tokens ← expect "=" tokens
      let (number, tokens) ← parseFieldNumber tokens
      let tokens ← skipToSemicolon [] tokens
      pure ((name, number), tokens)) =
      match readNumber field.literal.text with
      | some number => (.ok ((field.name.text, number), tokens) : Except String _)
      | none => .error "protobuf-field-number-is-invalid" := by
  have hskip : skipToSemicolon [] (field.options ++ symbol ";" :: tokens) = .ok tokens := by
    rw [skipToSemicolon_balanced hoptions (fun _ h => by cases h) (fun _ => rfl)]
    rfl
  have htokens : field.afterType ++ tokens = word field.name :: symbol "=" ::
      ⟨field.literal.text, .number⟩ :: (field.options ++ symbol ";" :: tokens) := by
    simp [afterType]
  rw [htokens]
  rw [expectIdentifier_word, ok_bind]
  simp only
  rw [expect_symbol, ok_bind]
  simp only [parseFieldNumber, if_true]
  cases readNumber field.literal.text with
  | none => rfl
  | some number =>
    simp only [ok_bind, hskip]
    rfl

/-- **A field is read as it is declared if its type and its number are readable.** -/
theorem parseField_tokens {field : WrittenField} (h : field.Regular) (oneof : Option String)
    (tokens : List Token) :
    match field.read oneof with
    | some read => parseField oneof (field.tokens ++ tokens) = .ok (read, tokens)
    | none => ∃ e, parseField oneof (field.tokens ++ tokens) = .error e := by
  have hdot : HeadNe "." (field.afterType ++ tokens) :=
    headNe_cons.2 (field.name.text_ne (by decide))
  have hopen : HeadNe "<" (field.afterType ++ tokens) :=
    headNe_cons.2 (field.name.text_ne (by decide))
  obtain ⟨hok, herror⟩ := field.type.parseFieldType_tokens hdot hopen
  have hafter := parseField_afterType field h.options tokens
  have hstart : parseField oneof (field.tokens ++ tokens) = (do
      let (typeName, tokens) ← parseFieldType (field.type.tokens ++ (field.afterType ++ tokens))
      let ((name, number), tokens) ← (do
        let (name, tokens) ← expectIdentifier tokens
        let tokens ← expect "=" tokens
        let (number, tokens) ← parseFieldNumber tokens
        let tokens ← skipToSemicolon [] tokens
        pure ((name, number), tokens))
      pure (⟨name, number, field.label, typeName, oneof⟩, tokens)) := by
    have hne : field.tokens ++ tokens ≠ [] := List.cons_ne_nil _ _
    rw [parseField, check_of hne, ok_bind, fieldLabel_tokens h]
    simp only [bind_assoc, pure_bind]
  rw [hstart]
  unfold WrittenField.read
  split_ifs with hreadable
  · rw [hok hreadable, ok_bind]
    simp only
    rw [hafter]
    cases readNumber field.literal.text with
    | none => exact ⟨_, rfl⟩
    | some number => rfl
  · obtain ⟨e, he⟩ := herror (Bool.eq_false_iff.2 hreadable)
    exact ⟨e, by rw [he]; rfl⟩

theorem afterType_balanced {field : WrittenField} (h : Balanced true 63 field.options) :
    Balanced true 63 (word field.name :: symbol "=" :: ⟨field.literal.text, .number⟩ ::
      field.options) := by
  have hopens : closing field.literal.text = none := by
    rw [closing, if_neg (field.literal.text_ne (by decide)), if_neg (field.literal.text_ne (by decide)),
      if_neg (field.literal.text_ne (by decide)), if_neg (field.literal.text_ne (by decide))]
  have hcloses : field.literal.text ∉ closers := fun hmem =>
    field.literal.text_ne ((by decide : ∀ close ∈ closers, isLiteral close = false) _ hmem) rfl
  refine .word _ (.plainText "=" (by decide) (.plain hopens hcloses (fun _ => ?_) h))
  exact field.literal.text_ne (by decide)

/-- A field is stepped over as a whole. -/
theorem Regular.skipLoop_tokens {field : WrittenField} (h : field.Regular) (tokens : List Token) :
    skipLoop [] (field.tokens ++ tokens) = .ok tokens := by
  have hnil : ∀ close ∈ ([] : List String), close ∈ closers := fun _ h => by cases h
  have htype : skipLoop [] (field.type.tokens ++ (field.afterType ++ tokens)) = .ok tokens := by
    have hafter : field.afterType ++ tokens = (word field.name :: symbol "=" ::
        ⟨field.literal.text, .number⟩ :: field.options) ++ symbol ";" :: tokens := by
      simp [afterType]
    have hbalanced : Balanced true 63 field.type.tokens := field.type.balanced
    rw [skipLoop_balanced hbalanced hnil (fun _ => rfl) (by decide), hafter, skipLoop_balanced (afterType_balanced h.options) hnil (fun _ => rfl)
      (by decide)]
    rfl
  unfold WrittenField.tokens WrittenField.head WrittenField.tail
  cases field.label with
  | normal => rwa [List.cons_append, List.append_assoc]
  | optional | required | repeated =>
    dsimp only
    rw [List.cons_append, List.append_assoc, skipLoop_plain (by rfl) (by decide) (by decide)]
    exact htype

theorem skipStatementOrBlock_tokens {field : WrittenField} (h : field.Regular) (tokens : List Token) :
    skipStatementOrBlock (field.tokens ++ tokens) = .ok tokens := by
  have hskip := h.skipLoop_tokens tokens
  have hopens : closing field.head.text = none := by
    rw [closing, if_neg (field.head_text_ne (by decide) (by decide)),
      if_neg (field.head_text_ne (by decide) (by decide)),
      if_neg (field.head_text_ne (by decide) (by decide)),
      if_neg (field.head_text_ne (by decide) (by decide))]
  have hcloses : field.head.text ∉ closers := fun hmem => by
    have hnone : ∀ close ∈ closers, isIdentifier close = false ∧ close ≠ "." := by decide
    exact field.head_text_ne (hnone _ hmem).1 (hnone _ hmem).2 rfl
  have hsemicolon : field.head.text ≠ ";" := field.head_text_ne (by decide) (by decide)
  rwa [WrittenField.tokens, List.cons_append, skipLoop_plain hopens hcloses hsemicolon] at hskip

end WrittenField

end ContractScan
