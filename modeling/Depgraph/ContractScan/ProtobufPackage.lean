import Depgraph.ContractScan.ProtobufSource

/-!
# The first pass over a file

`discover_package` looks for the package before anything is read. It counts braces, and steps over a
statement as a whole.
-/

namespace ContractScan

open Std Fallible

/-- The tokens that the first pass looks at, other than the word `package`. -/
def delimiters : List String := ["\x7b", "\x7d", ";"]

/-! ### Within a block -/

/-- The first pass steps over the tokens within a block. -/
def Nested (tokens : List Token) : Prop :=
  ∀ (fuel depth : Nat) (start : Bool) (package : Option String) (rest : List Token), 0 < depth →
    discoverLoop (tokens.length + fuel) depth start package (tokens ++ rest) =
      discoverLoop fuel depth start package rest

theorem nested_nil : Nested [] := fun fuel depth start package rest _ => by
  rw [List.length_nil, Nat.zero_add, List.nil_append]

theorem Nested.append {tokens tokens' : List Token} (h : Nested tokens) (h' : Nested tokens') :
    Nested (tokens ++ tokens') := fun fuel depth start package rest hdepth => by
  rw [List.append_assoc, List.length_append, Nat.add_assoc, h _ _ _ _ _ hdepth,
    h' _ _ _ _ _ hdepth]

theorem Nested.cons {token : Token} {tokens : List Token} (hopen : token.text ≠ "\x7b")
    (hclose : token.text ≠ "\x7d") (h : Nested tokens) : Nested (token :: tokens) :=
  fun fuel depth start package rest hdepth => by
    have hne : depth ≠ 0 := Nat.pos_iff_ne_zero.1 hdepth
    rw [List.length_cons, Nat.add_right_comm, List.cons_append, discoverLoop,
      if_neg (fun hstart => hne hstart.1), if_neg hopen, if_neg hclose,
      if_neg (fun hstart => hne hstart.2), if_neg (fun hstart => hne hstart.1)]
    exact h _ _ _ _ _ hdepth

theorem nested_block {first last : Token} {inner tokens : List Token} (hopen : first.text = "\x7b")
    (hclose : last.text = "\x7d") (hinner : Nested inner) (h : Nested tokens) :
    Nested (first :: inner ++ last :: tokens) := fun fuel depth start package rest hdepth => by
  have hne : depth ≠ 0 := Nat.pos_iff_ne_zero.1 hdepth
  have hlength : (first :: inner ++ last :: tokens).length + fuel =
      inner.length + (tokens.length + fuel + 1) + 1 := by
    simp only [List.length_append, List.length_cons]
    omega
  have hone : decide (depth + 1 = 1) = false := decide_eq_false (by omega)
  rw [hlength, List.append_assoc, List.cons_append, discoverLoop,
    if_neg (fun hstart => hne hstart.1), if_pos hopen, hinner _ _ _ _ _ (Nat.succ_pos depth),
    List.cons_append, discoverLoop, if_neg (fun hstart => Nat.succ_ne_zero depth hstart.1), hclose,
    if_neg (by decide), if_pos rfl, if_neg (Nat.succ_ne_zero depth), hone, Bool.or_false,
    Nat.succ_sub_one]
  exact h _ _ _ _ _ hdepth

theorem Balanced.nested {outer : Bool} {depth : Nat} {tokens : List Token}
    (h : Balanced outer depth tokens) : Nested tokens := by
  induction h with
  | nil => exact nested_nil
  | plain opens closes _ _ ih =>
    refine ih.cons (fun heq => ?_) (fun heq => closes (by rw [heq]; decide))
    rw [heq] at opens
    cases opens
  | @group outer depth first last inner tokens opens _ _ _ ihInner ih =>
    obtain ⟨-, hlast, hblock⟩ := closing_eq opens
    by_cases hbrace : first.text = "\x7b"
    · exact nested_block hbrace (hblock.2 hbrace) ihInner ih
    · have hopen : last.text ≠ "\x7b" := fun heq => by rw [heq] at hlast; cases hlast
      have hclose : first.text ≠ "\x7d" := fun heq => by rw [heq] at opens; cases opens
      exact (ihInner.cons hbrace hclose).append (ih.cons hopen (mt hblock.1 hbrace))

theorem nested_semicolon {tokens : List Token} (h : Nested tokens) : Nested (symbol ";" :: tokens) :=
  h.cons (by decide) (by decide)

theorem nested_endTokens {block : Option (List Token)}
    (h : ∀ tokens ∈ block, Balanced false 63 tokens) : Nested (endTokens block) := by
  cases block with
  | none => exact nested_semicolon nested_nil
  | some tokens =>
    rw [endTokens, ← List.cons_append]
    exact nested_block rfl rfl (h tokens rfl).nested nested_nil

theorem Skipped.nested {first : String} (hfirst : isIdentifier first = true) {statement : Skipped}
    (h : statement.Regular) : Nested (statement.tokens first) := by
  have hne {text : String} (htext : isIdentifier text = false) : first ≠ text := by
    rintro rfl
    rw [hfirst] at htext
    cases htext
  exact (h.before.nested.append (nested_endTokens h.block)).cons (hne (by decide)) (hne (by decide))

theorem WrittenField.Regular.nested {field : WrittenField} (h : field.Regular) :
    Nested field.tokens := by
  have htype : Balanced true 63 field.type.tokens := field.type.balanced
  have hafter : Nested field.afterType := by
    have hbalanced := (WrittenField.afterType_balanced h.options).nested
    have hend := hbalanced.append (nested_semicolon nested_nil)
    simpa [WrittenField.afterType] using hend
  have htokens := htype.nested.append hafter
  unfold WrittenField.tokens WrittenField.head WrittenField.tail
  cases field.label with
  | normal => exact htokens
  | optional | required | repeated =>
    dsimp only
    exact htokens.cons (by decide) (by decide)

theorem WrittenRpc.Regular.nested {method : WrittenRpc} (h : method.Regular) :
    Nested method.tokens :=
  method.balanced_signature.nested.append (nested_endTokens h.body)

theorem nested_membersTokens {α : Type} {tokensOf : α → List Token} {P : α → Prop}
    (h : ∀ a, P a → Nested (tokensOf a)) {members : List (Member α)}
    (hmembers : ∀ member ∈ members, member.Regular P) : Nested (membersTokens tokensOf members) := by
  induction members with
  | nil => exact nested_nil
  | cons member members ih =>
    obtain ⟨hmember, hmembers⟩ := List.forall_mem_cons.1 hmembers
    have hfirst : Nested (member.tokens tokensOf) := by
      cases member with
      | declares a => exact h a hmember
      | option statement => exact Skipped.nested (by decide) hmember
      | empty => exact nested_semicolon nested_nil
    exact hfirst.append (ih hmembers)

theorem nested_declaration {first : String} (hfirst : isIdentifier first = true) (name : Identifier)
    {inner tokens : List Token} (hinner : Nested inner) (h : Nested tokens) :
    Nested (keyword first :: word name :: symbol "\x7b" :: (inner ++ symbol "\x7d" :: tokens)) := by
  have hne {text : String} (htext : isIdentifier text = false) : first ≠ text := by
    rintro rfl
    rw [hfirst] at htext
    cases htext
  have hblock : Nested (symbol "\x7b" :: inner ++ symbol "\x7d" :: tokens) := nested_block rfl rfl hinner h
  refine (hblock.cons ?_ ?_).cons (hne (by decide)) (hne (by decide))
  · exact name.text_ne (by decide)
  · exact name.text_ne (by decide)

theorem Body.nested_tokens (body : Body) {depth : Nat} (h : body.Regular depth) :
    Nested body.tokens := by
  induction body generalizing depth with
  | nil => exact nested_nil
  | field f rest ih => exact h.1.nested.append (ih h.2)
  | oneof name members rest ih =>
    have hmembers := nested_membersTokens (fun _ hfield => WrittenField.Regular.nested hfield) h.1
    have hdeclaration : Nested (keyword "oneof" :: _) :=
      nested_declaration (by decide) name hmembers (ih h.2)
    simpa [tokens, oneofTokens] using hdeclaration
  | message name inner rest ihInner ih =>
    exact nested_declaration (by decide) name (ihInner h.2.1) (ih h.2.2)
  | enumeration name values rest ih =>
    have hdeclaration : Nested (keyword "enum" :: _) :=
      nested_declaration (by decide) name h.2.1.nested (ih h.2.2)
    simpa [tokens, enumTokens] using hdeclaration
  | skipped first statement rest ih =>
    have hfirst : ∀ first ∈ ["option", "reserved", "extensions", "extend"],
        isIdentifier first = true := by decide
    exact (Skipped.nested (hfirst first h.1) h.2.1).append (ih h.2.2)
  | empty rest ih => exact nested_semicolon (ih h)

/-! ### Between statements -/

/-- The first pass steps from within a statement to the next one. -/
def Ends (tokens : List Token) : Prop :=
  ∀ (fuel : Nat) (package : Option String) (rest : List Token),
    discoverLoop (tokens.length + fuel) 0 false package (tokens ++ rest) =
      discoverLoop fuel 0 true package rest

theorem ends_semicolon : Ends [symbol ";"] := fun fuel package rest => by
  have htext : (symbol ";").text = ";" := rfl
  rw [List.length_singleton, Nat.add_comm, List.singleton_append, discoverLoop,
    if_neg (fun h => Bool.false_ne_true h.2.1), if_neg (by decide), if_neg (by decide),
    if_pos ⟨htext, rfl⟩]

theorem ends_block {inner : List Token} (h : Nested inner) :
    Ends (symbol "\x7b" :: (inner ++ [symbol "\x7d"])) := fun fuel package rest => by
  have hopen : (symbol "\x7b").text = "\x7b" := rfl
  have hclose : (symbol "\x7d").text = "\x7d" := rfl
  have hlength : (symbol "\x7b" :: (inner ++ [symbol "\x7d"])).length + fuel =
      inner.length + (fuel + 1) + 1 := by
    simp only [List.length_append, List.length_cons, List.length_nil]
    omega
  rw [hlength, List.cons_append, List.append_assoc, discoverLoop,
    if_neg (fun hstart => Bool.false_ne_true hstart.2.1), if_pos hopen, h _ _ _ _ _ Nat.one_pos,
    List.singleton_append, discoverLoop, if_neg (fun hstart => Nat.one_ne_zero hstart.1),
    if_neg (by decide), if_pos hclose, if_neg (by decide)]
  rfl

theorem ends_endTokens {block : Option (List Token)}
    (h : ∀ tokens ∈ block, Balanced false 63 tokens) : Ends (endTokens block) := by
  cases block with
  | none => exact ends_semicolon
  | some tokens => exact ends_block (h tokens rfl).nested

theorem Ends.cons {token : Token} (htoken : token.text ∉ delimiters) {tokens : List Token}
    (h : Ends tokens) : Ends (token :: tokens) := fun fuel package rest => by
  simp only [delimiters, List.mem_cons, List.not_mem_nil, or_false, not_or] at htoken
  obtain ⟨hopen, hclose, hsemicolon⟩ := htoken
  rw [List.length_cons, Nat.add_right_comm, List.cons_append, discoverLoop,
    if_neg (fun hstart => Bool.false_ne_true hstart.2.1), if_neg hopen, if_neg hclose,
    if_neg (fun hend => hsemicolon hend.1), if_neg (fun hstart => Bool.false_ne_true hstart.2)]
  exact h _ _ _

theorem Ends.append {tokens : List Token} (h : Ends tokens) {flat : List Token}
    (hflat : ∀ token ∈ flat, token.text ∉ delimiters) : Ends (flat ++ tokens) := by
  induction flat with
  | nil => exact h
  | cons token flat ih =>
    obtain ⟨htoken, hflat⟩ := List.forall_mem_cons.1 hflat
    exact (ih hflat).cons htoken

theorem word_not_delimiter (name : Identifier) : (word name).text ∉ delimiters := fun hmem =>
  name.text_ne ((by decide : ∀ text ∈ delimiters, isIdentifier text = false) _ hmem) rfl

/-- A statement that does not start with the word `package` is stepped over. -/
theorem discoverLoop_statement {first : String} (hpackage : first ≠ "package")
    (hfirst : first ∉ delimiters) {tokens : List Token} (h : Ends tokens) (fuel : Nat)
    (package : Option String) (rest : List Token) :
    discoverLoop ((keyword first :: tokens).length + fuel) 0 true package
      (keyword first :: tokens ++ rest) = discoverLoop fuel 0 true package rest := by
  have htext : (keyword first).text = first := rfl
  simp only [delimiters, List.mem_cons, List.not_mem_nil, or_false, not_or] at hfirst
  obtain ⟨hopen, hclose, hsemicolon⟩ := hfirst
  rw [List.length_cons, Nat.add_right_comm, List.cons_append, discoverLoop, htext,
    if_neg (fun hstart => hpackage hstart.2.2.2), if_neg hopen, if_neg hclose,
    if_neg (fun hend => hsemicolon hend.1), if_pos ⟨rfl, rfl⟩]
  exact h _ _ _

theorem discoveredRest_tokens (parts : List Identifier) (value : String) (rest : List Token) :
    discoveredRest value (WrittenName.restTokens parts ++ symbol ";" :: rest) =
      .ok (parts.foldl (fun value part => value ++ "." ++ part.text) value, rest) := by
  induction parts generalizing value with
  | nil =>
    have htext : (symbol ";").text = ";" := rfl
    change discoveredRest value (symbol ";" :: rest) = _
    unfold discoveredRest
    simp only [htext, if_true]
    rfl
  | cons part parts ih =>
    have hdot : (symbol ".").text = "." := rfl
    change discoveredRest value (symbol "." :: word part ::
      (WrittenName.restTokens parts ++ symbol ";" :: rest)) = _
    unfold discoveredRest
    simp only [hdot, if_neg (by decide : ¬ "." = ";"), if_true]
    exact ih _

theorem discoveredName_tokens {name : WrittenName} (hfull : name.full = false)
    (hbounded : boundedText name.text = true) (rest : List Token) :
    discoveredName (name.tokens ++ symbol ";" :: rest) = .ok (name.text, rest) := by
  have htokens : name.tokens ++ symbol ";" :: rest =
      word name.first :: (WrittenName.restTokens name.rest ++ symbol ";" :: rest) := by
    simp [WrittenName.tokens, WrittenName.head, WrittenName.tail, hfull]
  have htext : name.rest.foldl (fun value part => value ++ "." ++ part.text) name.first.text =
      name.text := by
    simp [WrittenName.text, hfull]
  have hkind : ((word name.first :: (WrittenName.restTokens name.rest ++ symbol ";" :: rest)).head?.map
      Token.kind) = some .identifier := rfl
  rw [htokens, discoveredName, check_of hkind, ok_bind, expectIdentifier_word, ok_bind]
  simp only
  rw [discoveredRest_tokens, ok_bind]
  simp only [htext]
  rw [check_of hbounded]
  rfl

/-- The package is found. -/
theorem discoverLoop_package {name : WrittenName} (hfull : name.full = false)
    (hbounded : boundedText name.text = true) (fuel : Nat) (rest : List Token) :
    discoverLoop (fuel + 1) 0 true none (keyword "package" :: (name.tokens ++ symbol ";" :: rest)) =
      discoverLoop fuel 0 true (some name.text) rest := by
  rw [discoverLoop, if_pos ⟨rfl, rfl, rfl, rfl⟩, discoveredName_tokens hfull hbounded, ok_bind]
  rfl

end ContractScan
