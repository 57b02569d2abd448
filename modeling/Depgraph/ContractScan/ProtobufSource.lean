import Depgraph.ContractScan.ProtobufMembers
import Depgraph.Library.ListMap

/-!
# What the parser reads of a file

The statements of a Protobuf file and their tokens, what they declare (`SourceFile.declared`) and what
the parser reads of them (`SourceFile.read`): `parse_tokens`. The two differ where a field is not
readable and where an empty statement swallows the next one.
-/

namespace ContractScan

open Std Fallible OrderedMap

/-! ### Oneofs and services -/

theorem readsMembers_oneof (oneof : String) : ReadsMembers WrittenField.tokens (fun _ => false)
    (WrittenField.read (some oneof)) WrittenField.Regular (parseOneofMembers oneof) where
  skips _ h tokens := h.skipLoop_tokens tokens
  head field _ tokens := headNe_cons.2 (field.head_text_ne (by decide) (by decide))
  ends _ _ _ := rfl
  empty _ _ _ := rfl
  option statement h fuel found tokens := by
    have hskip := Skipped.skipStatementOrBlock_tokens "option" h tokens
    rw [Skipped.tokens, List.cons_append] at hskip ⊢
    have hfirst : (keyword "option").text = "option" ∨ (keyword "option").text = ";" := .inl rfl
    rw [parseOneofMembers, if_neg (by decide), if_pos hfirst, hskip]
    rfl
  declares field h fuel found tokens := by
    have hfield := WrittenField.parseField_tokens h (some oneof) tokens
    have hclose := field.head_text_ne (show isIdentifier "\x7d" = false by decide) (by decide)
    have hempty := field.head_text_ne (show isIdentifier ";" = false by decide) (by decide)
    have hoption : field.head.text ≠ "option" := fun heq => h.head_notMem (by rw [heq]; decide)
    have hother : ¬ (field.head.text = "option" ∨ field.head.text = ";") := not_or.2 ⟨hoption, hempty⟩
    rw [WrittenField.tokens, List.cons_append] at hfield ⊢
    rw [parseOneofMembers, if_neg hclose, if_neg hother]
    cases hread : field.read (some oneof) with
    | some read =>
      rw [hread] at hfield
      simp only [hfield, Option.toList_some]
    | none =>
      rw [hread] at hfield
      obtain ⟨e, he⟩ := hfield
      have hskip : skipStatementOrBlock (field.head :: (field.tail ++ tokens)) = .ok tokens :=
        WrittenField.skipStatementOrBlock_tokens h tokens
      simp only [he, hskip, ok_bind, Option.toList_none, List.append_nil]

theorem readsMembers_service : ReadsMembers WrittenRpc.tokens (fun method => method.body.isSome)
    (fun method => some method.declared) WrittenRpc.Regular parseServiceMembers where
  skips _ h tokens := WrittenRpc.skipLoop_tokens h tokens
  head _ _ tokens := headNe_cons.2 (by decide)
  ends _ _ _ := rfl
  empty _ _ _ := rfl
  option statement h fuel found tokens := by
    have hskip := Skipped.skipStatementOrBlock_tokens "option" h tokens
    rw [Skipped.tokens, List.cons_append] at hskip ⊢
    rw [parseServiceMembers, if_neg (by decide), if_neg (by decide), hskip]
    rfl
  declares method h fuel found tokens := by
    have hmethod := WrittenRpc.parseRpc_tokens h tokens
    rw [WrittenRpc.tokens, WrittenRpc.signature, List.cons_append, List.cons_append] at hmethod ⊢
    have hfirst : (keyword "rpc").text = "rpc" := rfl
    rw [parseServiceMembers, if_neg (by decide), if_pos hfirst, hmethod]
    rfl

/-! ### Statements of a message -/

/-- The statements of a message. -/
inductive Body
  | nil
  | field (f : WrittenField) (rest : Body)
  | oneof (name : Identifier) (members : List (Member WrittenField)) (rest : Body)
  | message (name : Identifier) (inner rest : Body)
  | enumeration (name : Identifier) (values : List Token) (rest : Body)
  | skipped (first : String) (statement : Skipped) (rest : Body)
  | empty (rest : Body)

def oneofTokens (name : Identifier) (members : List (Member WrittenField)) : List Token :=
  keyword "oneof" :: word name :: symbol "\x7b" ::
    (membersTokens WrittenField.tokens members ++ [symbol "\x7d"])

def enumTokens (name : Identifier) (values : List Token) : List Token :=
  keyword "enum" :: word name :: symbol "\x7b" :: (values ++ [symbol "\x7d"])

def serviceTokens (name : Identifier) (members : List (Member WrittenRpc)) : List Token :=
  keyword "service" :: word name :: symbol "\x7b" ::
    (membersTokens WrittenRpc.tokens members ++ [symbol "\x7d"])

/-- What is read of the members of a oneof. -/
def readOneof (name : Identifier) (members : List (Member WrittenField)) : List ProtoField :=
  readMembers (fun _ => false) (WrittenField.read (some name.text)) .statement members

/-- What is read of the members of a service. -/
def readService (members : List (Member WrittenRpc)) : List ProtoMethod :=
  readMembers (fun method => method.body.isSome) (fun method => some method.declared) .statement
    members

/-- The semicolon after the block of a method swallows the next method. -/
example (first second : WrittenRpc) :
    readService [.declares first, .empty, .declares second] = [first.declared] := rfl

namespace Body

def tokens : Body → List Token
  | nil => []
  | field f rest => f.tokens ++ rest.tokens
  | oneof name members rest => oneofTokens name members ++ rest.tokens
  | message name inner rest =>
    keyword "message" :: word name :: symbol "\x7b" :: (inner.tokens ++ symbol "\x7d" :: rest.tokens)
  | enumeration name values rest => enumTokens name values ++ rest.tokens
  | skipped first statement rest => statement.tokens first ++ rest.tokens
  | empty rest => symbol ";" :: rest.tokens

/-- The fuel that reading the statements takes. -/
def size : Body → Nat
  | nil => 0
  | field _ rest | enumeration _ _ rest | skipped _ _ rest | empty rest => rest.size + 1
  | oneof _ members rest => members.length + rest.size + 2
  | message _ inner rest => inner.size + rest.size + 2

/-- The fields that are read. -/
def readFields : Body → List ProtoField
  | nil => []
  | field f rest => (f.read none).toList ++ rest.readFields
  | oneof name members rest => readOneof name members ++ rest.readFields
  | message _ _ rest | enumeration _ _ rest | skipped _ _ rest | empty rest => rest.readFields

/-- The fields that are declared. -/
def declaredFields : Body → List ProtoField
  | nil => []
  | field f rest => f.declared none :: rest.declaredFields
  | oneof name members rest =>
    (members.filterMap Member.declares?).map (WrittenField.declared (some name.text)) ++
      rest.declaredFields
  | message _ _ rest | enumeration _ _ rest | skipped _ _ rest | empty rest => rest.declaredFields

/-- The nested messages, those within a message before it. -/
def nested (package parent : String) : Body → List (String × Body)
  | nil => []
  | message name inner rest =>
    inner.nested package (qualify package parent name.text) ++
      (qualify package parent name.text, inner) :: rest.nested package parent
  | field _ rest | oneof _ _ rest | enumeration _ _ rest | skipped _ _ rest | empty rest =>
    rest.nested package parent

/-- The records of the nested messages, with the fields that are asked for. -/
def messages (fieldsOf : Body → List ProtoField) (package parent : String) (body : Body) :
    List ProtoMessage :=
  (body.nested package parent).map fun entry => ⟨entry.1, fieldsOf entry.2⟩

/-- The nested enums. -/
def enums (package parent : String) : Body → List String
  | nil => []
  | message name inner rest =>
    inner.enums package (qualify package parent name.text) ++ rest.enums package parent
  | enumeration name _ rest => qualify package parent name.text :: rest.enums package parent
  | field _ rest | oneof _ _ rest | skipped _ _ rest | empty rest => rest.enums package parent

/-- The statements are those of the language, and do not nest too deeply. -/
def Regular : Nat → Body → Prop
  | _, nil => True
  | depth, field f rest => f.Regular ∧ rest.Regular depth
  | depth, oneof _ members rest =>
    (∀ member ∈ members, member.Regular WrittenField.Regular) ∧ rest.Regular depth
  | depth, message _ inner rest =>
    depth + 1 < maxProtobufDepth ∧ inner.Regular (depth + 1) ∧ rest.Regular depth
  | depth, enumeration _ values rest =>
    depth + 1 < maxProtobufDepth ∧ Balanced false 63 values ∧ rest.Regular depth
  | depth, skipped first statement rest =>
    first ∈ ["option", "reserved", "extensions", "extend"] ∧ statement.Regular ∧ rest.Regular depth
  | depth, empty rest => rest.Regular depth

end Body

/-! ### What has been declared -/

def nameSet (names : List String) : ExtTreeSet String := names.foldl ExtTreeSet.insert ∅

theorem mem_nameSet {names : List String} {name : String} : name ∈ nameSet names ↔ name ∈ names := by
  induction names using List.reverseRecOn with
  | nil => simp [nameSet]
  | append_singleton names last ih =>
    rw [nameSet, List.foldl_append, ← nameSet, List.foldl_cons, List.foldl_nil, ExtTreeSet.mem_insert,
      ih, List.mem_append, List.mem_singleton, Std.compare_eq_iff_eq, or_comm, eq_comm]

theorem insertName_nameSet {names : List String} {name error : String}
    (h : (names ++ [name]).Nodup) :
    insertName (nameSet names) name error = .ok (nameSet (names ++ [name])) := by
  have hnew : name ∉ nameSet names := fun hmem =>
    (List.nodup_append.1 h).2.2 name (mem_nameSet.1 hmem) name (List.mem_singleton_self _) rfl
  rw [insertName, if_neg hnew, nameSet, nameSet, List.foldl_append]
  rfl

theorem insertNew_indexed {V : Type} {key : V → String} {l : List V} {v : V} {error : String}
    (h : ((l ++ [v]).map key).Nodup) :
    insertNew (indexed key l) (key v) v error = .ok (indexed key (l ++ [v])) := by
  rw [List.map_append] at h
  have hnew : key v ∉ indexed key l := by
    rw [mem_iff]
    rintro ⟨w, hw⟩
    obtain ⟨hmem, hkey⟩ := (getElem?_indexed (List.nodup_append.1 h).1).1 hw
    exact (List.nodup_append.1 h).2.2 (key w) (List.mem_map_of_mem hmem) (key v)
      (List.mem_singleton_self _) hkey
  rw [insertNew, if_neg hnew, indexed_append_singleton]

/-- The state with these messages and enums. -/
def Declared.of (messages : List ProtoMessage) (enums : List String) : Declared :=
  ⟨indexed ProtoMessage.coordinate messages, nameSet enums⟩

/-! ### Reading declarations -/

theorem parseOneof_tokens (name : Identifier) {members : List (Member WrittenField)}
    (h : ∀ member ∈ members, member.Regular WrittenField.Regular) {fuel : Nat}
    (hfuel : members.length < fuel) (fields : List ProtoField) (rest : List Token) :
    parseOneof fuel fields (oneofTokens name members ++ rest) =
      .ok (fields ++ readOneof name members, dropSemicolon rest) := by
  have hmembers : parseOneofMembers name.text fuel fields
      (membersTokens WrittenField.tokens members ++ symbol "\x7d" :: rest) =
        .ok (fields ++ readOneof name members, rest) :=
    loop_members (readsMembers_oneof name.text) h rest .statement hfuel fields
  have htokens : oneofTokens name members ++ rest = keyword "oneof" :: word name :: symbol "\x7b" ::
      (membersTokens WrittenField.tokens members ++ symbol "\x7d" :: rest) := by simp [oneofTokens]
  rw [htokens, parseOneof, expect_keyword, ok_bind, expectIdentifier_word, ok_bind]
  simp only
  rw [expect_symbol, ok_bind, hmembers]
  rfl

theorem parseService_tokens (package : String) (name : Identifier)
    {members : List (Member WrittenRpc)}
    (h : ∀ member ∈ members, member.Regular WrittenRpc.Regular) {fuel : Nat}
    (hfuel : members.length < fuel) {services : List ProtoService}
    (hnodup : ((services ++ [(⟨qualify package "" name.text, readService members⟩ : ProtoService)]).map
      ProtoService.coordinate).Nodup) (rest : List Token) :
    parseService fuel package (indexed ProtoService.coordinate services)
        (serviceTokens name members ++ rest) =
      .ok (indexed ProtoService.coordinate
        (services ++ [⟨qualify package "" name.text, readService members⟩]), dropSemicolon rest) := by
  have hmembers : parseServiceMembers fuel []
      (membersTokens WrittenRpc.tokens members ++ symbol "\x7d" :: rest) =
        .ok ([] ++ readService members, rest) :=
    loop_members readsMembers_service h rest .statement hfuel []
  have htokens : serviceTokens name members ++ rest = keyword "service" :: word name ::
      symbol "\x7b" :: (membersTokens WrittenRpc.tokens members ++ symbol "\x7d" :: rest) := by
    simp [serviceTokens]
  have hinsert : insertNew (indexed ProtoService.coordinate services) (qualify package "" name.text)
      ⟨qualify package "" name.text, readService members⟩ "duplicate-protobuf-service" = .ok _ :=
    insertNew_indexed hnodup
  rw [htokens, parseService, expect_keyword, ok_bind, expectIdentifier_word, ok_bind]
  simp only
  rw [expect_symbol, ok_bind, hmembers, ok_bind]
  simp only [List.nil_append]
  rw [hinsert]
  rfl

theorem parseEnum_tokens {package parent : String} {depth : Nat} (hdepth : depth < maxProtobufDepth)
    (name : Identifier) {values : List Token} (h : Balanced false 63 values)
    {messages : List ProtoMessage} {enums : List String}
    (hnodup : (enums ++ [qualify package parent name.text]).Nodup) (rest : List Token) :
    parseEnum package parent depth (.of messages enums) (enumTokens name values ++ rest) =
      .ok (.of messages (enums ++ [qualify package parent name.text]), dropSemicolon rest) := by
  have hbody : skipBalancedBody 1 (values ++ symbol "\x7d" :: rest) = .ok rest := by
    rw [skipBalancedBody_balanced h Nat.one_pos (by decide)]
    rfl
  have htokens : enumTokens name values ++ rest = keyword "enum" :: word name :: symbol "\x7b" ::
      (values ++ symbol "\x7d" :: rest) := by simp [enumTokens]
  rw [htokens, parseEnum, check_of hdepth, ok_bind, expect_keyword, ok_bind, expectIdentifier_word,
    ok_bind]
  simp only
  rw [expect_symbol, ok_bind, hbody, ok_bind, Declared.of, insertName_nameSet hnodup]
  rfl

variable {package : String}

/-- A semicolon before the statements of a message does not matter. -/
theorem parseBody_dropSemicolon {fuel : Nat} {coordinate : String} {depth : Nat}
    {state : Declared × List ProtoField} {tokens : List Token}
    {result : (Declared × List ProtoField) × List Token}
    (h : parseBody package fuel coordinate depth state tokens = .ok result)
    (h' : parseBody package (fuel + 1) coordinate depth state tokens = .ok result) :
    parseBody package fuel coordinate depth state (dropSemicolon tokens) = .ok result := by
  cases tokens with
  | nil => exact h
  | cons token rest =>
    by_cases htext : token.text = ";"
    · have hdrop : dropSemicolon (token :: rest) = rest := by
        rw [dropSemicolon, consume, if_pos htext]
      have hskipped : ";" ∉ skippedInMessage := by decide
      rw [hdrop, ← h', parseBody, htext, if_neg (by decide), if_neg (by decide), if_neg (by decide),
        if_neg (by decide), if_neg hskipped, if_pos rfl]
    · rwa [dropSemicolon_of_headNe (headNe_cons.2 htext)]

theorem parseBody_field {fuel : Nat} {coordinate : String} {depth : Nat} {declared : Declared}
    {fields : List ProtoField} {token : Token} {rest : List Token} (hclose : token.text ≠ "\x7d")
    (hempty : token.text ≠ ";") (hwords : token.text ∉ WrittenField.statementWords) :
    parseBody package (fuel + 1) coordinate depth (declared, fields) (token :: rest) =
      match parseField none (token :: rest) with
      | .ok (field, rest) => parseBody package fuel coordinate depth (declared, fields ++ [field]) rest
      | .error _ => skipStatementOrBlock (token :: rest) >>=
          parseBody package fuel coordinate depth (declared, fields) := by
  simp only [WrittenField.statementWords, List.mem_cons, not_or] at hwords
  obtain ⟨hmessage, henum, honeof, hoption, hreserved, hextensions, hextend, hgroup, -⟩ := hwords
  have hskipped : token.text ∉ skippedInMessage := by
    simp [skippedInMessage, hoption, hreserved, hextensions, hextend, hgroup]
  rw [parseBody, if_neg hclose, if_neg hmessage, if_neg henum, if_neg honeof, if_neg hskipped]
  refine (if_neg hempty).trans ?_
  cases parseField none (token :: rest) <;> rfl

theorem parseBody_enum {fuel : Nat} {coordinate : String} {depth : Nat} {declared : Declared}
    {fields : List ProtoField} {tokens : List Token} :
    parseBody package (fuel + 1) coordinate depth (declared, fields) (keyword "enum" :: tokens) =
      parseEnum package coordinate (depth + 1) declared (keyword "enum" :: tokens) >>=
        fun found => parseBody package fuel coordinate depth (found.1, fields) found.2 := by
  have htext : (keyword "enum").text = "enum" := rfl
  rw [parseBody, if_neg (by decide), if_neg (by decide), if_pos htext]

theorem parseBody_oneof {fuel : Nat} {coordinate : String} {depth : Nat} {declared : Declared}
    {fields : List ProtoField} {tokens : List Token} :
    parseBody package (fuel + 1) coordinate depth (declared, fields) (keyword "oneof" :: tokens) =
      parseOneof fuel fields (keyword "oneof" :: tokens) >>=
        fun found => parseBody package fuel coordinate depth (declared, found.1) found.2 := by
  have htext : (keyword "oneof").text = "oneof" := rfl
  rw [parseBody, if_neg (by decide), if_neg (by decide), if_neg (by decide), if_pos htext]

theorem parseBody_skipped {fuel : Nat} {coordinate : String} {depth : Nat} {declared : Declared}
    {fields : List ProtoField} {first : String} {tokens : List Token}
    (h : first ∈ ["option", "reserved", "extensions", "extend"]) :
    parseBody package (fuel + 1) coordinate depth (declared, fields) (keyword first :: tokens) =
      skipStatementOrBlock (keyword first :: tokens) >>=
        parseBody package fuel coordinate depth (declared, fields) := by
  have hfirst : ∀ first ∈ ["option", "reserved", "extensions", "extend"], first ≠ "\x7d" ∧
      first ≠ "message" ∧ first ≠ "enum" ∧ first ≠ "oneof" ∧ first ∈ skippedInMessage := by decide
  obtain ⟨hclose, hmessage, henum, honeof, hskipped⟩ := hfirst first h
  have htext : (keyword first).text = first := rfl
  rw [parseBody, htext, if_neg hclose, if_neg hmessage, if_neg henum, if_neg honeof, if_pos hskipped]

theorem parseBody_empty {fuel : Nat} {coordinate : String} {depth : Nat} {declared : Declared}
    {fields : List ProtoField} {tokens : List Token} :
    parseBody package (fuel + 1) coordinate depth (declared, fields) (symbol ";" :: tokens) =
      parseBody package fuel coordinate depth (declared, fields) tokens := by
  have htext : (symbol ";").text = ";" := rfl
  rw [parseBody, if_neg (by decide), if_neg (by decide), if_neg (by decide), if_neg (by decide),
    if_neg (by decide), if_pos htext]

/-- A message is read when its statements are. -/
theorem parseMessage_of_body {fuel : Nat} {parent : String} {depth : Nat}
    (hdepth : depth < maxProtobufDepth) (name : Identifier) {declared : Declared}
    {tokens rest : List Token} {messages : List ProtoMessage} {enums : List String}
    {fields : List ProtoField}
    (hbody : parseBody package fuel (qualify package parent name.text) depth (declared, []) tokens =
      .ok ((.of messages enums, fields), rest))
    (hnodup : ((messages ++ [(⟨qualify package parent name.text, fields⟩ : ProtoMessage)]).map
      ProtoMessage.coordinate).Nodup) :
    parseMessage package (fuel + 1) parent depth declared
        (keyword "message" :: word name :: symbol "\x7b" :: tokens) =
      .ok (.of (messages ++ [⟨qualify package parent name.text, fields⟩]) enums,
        dropSemicolon rest) := by
  have hinsert : insertNew (indexed ProtoMessage.coordinate messages)
      (qualify package parent name.text) ⟨qualify package parent name.text, fields⟩
      "duplicate-protobuf-message" = .ok _ := insertNew_indexed hnodup
  rw [parseMessage, check_of hdepth, ok_bind, expect_keyword, ok_bind, expectIdentifier_word, ok_bind]
  simp only
  rw [expect_symbol, ok_bind, hbody, ok_bind]
  simp only [Declared.of, hinsert]
  rfl

theorem nodup_map_left {V : Type} {key : V → String} {l l' : List V}
    (h : ((l ++ l').map key).Nodup) : (l.map key).Nodup := by
  rw [List.map_append] at h
  exact (List.nodup_append.1 h).1

/-- **The statements of a message are read**, by induction on them. -/
theorem parseBody_tokens (body : Body) {depth : Nat} (h : body.Regular depth) {fuel : Nat}
    (hfuel : body.size < fuel) (coordinate : String) {messages : List ProtoMessage}
    {enums : List String} (fields : List ProtoField)
    (hmessages : ((messages ++ body.messages Body.readFields package coordinate).map
      ProtoMessage.coordinate).Nodup)
    (henums : (enums ++ body.enums package coordinate).Nodup) (rest : List Token) :
    parseBody package fuel coordinate depth (.of messages enums, fields)
        (body.tokens ++ symbol "\x7d" :: rest) =
      .ok ((.of (messages ++ body.messages Body.readFields package coordinate)
        (enums ++ body.enums package coordinate), fields ++ body.readFields), rest) := by
  induction body generalizing depth fuel coordinate messages enums fields rest with
  | nil =>
    obtain ⟨fuel, rfl⟩ := Nat.exists_eq_succ_of_ne_zero (Nat.ne_of_gt hfuel)
    simp only [Body.messages, Body.nested, Body.enums, Body.readFields, List.map_nil, List.append_nil]
    rfl
  | field f body ih =>
    obtain ⟨hf, h⟩ := h
    obtain ⟨fuel, rfl⟩ := Nat.exists_eq_succ_of_ne_zero (Nat.ne_of_gt (Nat.zero_lt_of_lt hfuel))
    have hfield := WrittenField.parseField_tokens hf none (body.tokens ++ symbol "\x7d" :: rest)
    have hskip := WrittenField.skipStatementOrBlock_tokens hf (body.tokens ++ symbol "\x7d" :: rest)
    have hrest (found : List ProtoField) :=
      ih h (Nat.lt_of_succ_lt_succ hfuel) coordinate found hmessages henums rest
    have hclose : f.head.text ≠ "\x7d" := f.head_text_ne (by decide) (by decide)
    have hempty : f.head.text ≠ ";" := f.head_text_ne (by decide) (by decide)
    rw [WrittenField.tokens, List.cons_append] at hfield hskip
    rw [Body.tokens, List.append_assoc, WrittenField.tokens, List.cons_append,
      parseBody_field hclose hempty hf.head_notMem, Body.readFields]
    cases hread : f.read none with
    | some read =>
      rw [hread] at hfield
      have hrest := hrest (fields ++ [read])
      rw [List.append_assoc] at hrest
      simp only [hfield, Option.toList_some]
      exact hrest
    | none =>
      rw [hread] at hfield
      obtain ⟨e, he⟩ := hfield
      simp only [he, hskip, ok_bind, Option.toList_none, List.nil_append]
      exact hrest fields
  | oneof name members body ih =>
    obtain ⟨hmembers, h⟩ := h
    obtain ⟨fuel, rfl⟩ := Nat.exists_eq_succ_of_ne_zero (Nat.ne_of_gt (Nat.zero_lt_of_lt hfuel))
    rw [Body.size] at hfuel
    have hrest {fuel : Nat} (hfuel : body.size < fuel) :=
      ih h hfuel coordinate (fields ++ readOneof name members) hmessages henums rest
    have honeof := parseOneof_tokens name hmembers (by omega : members.length < fuel) fields
      (body.tokens ++ symbol "\x7d" :: rest)
    rw [oneofTokens, List.cons_append] at honeof
    rw [Body.tokens, List.append_assoc, oneofTokens, List.cons_append, parseBody_oneof, honeof,
      ok_bind, Body.readFields, ← List.append_assoc]
    exact parseBody_dropSemicolon (hrest (by omega)) (hrest (by omega))
  | message name inner body ihInner ih =>
    obtain ⟨hdepth, hinner, h⟩ := h
    obtain ⟨fuel, rfl⟩ := Nat.exists_eq_succ_of_ne_zero (Nat.ne_of_gt (Nat.zero_lt_of_lt hfuel))
    rw [Body.size] at hfuel
    obtain ⟨fuel, rfl⟩ := Nat.exists_eq_succ_of_ne_zero (by omega : fuel ≠ 0)
    let self : ProtoMessage := ⟨qualify package coordinate name.text, inner.readFields⟩
    have hsplit : messages ++ Body.messages Body.readFields package coordinate
        (.message name inner body) =
        messages ++ inner.messages Body.readFields package self.coordinate ++ [self] ++
          body.messages Body.readFields package coordinate := by
      simp [Body.messages, Body.nested, self]
    have hsplitEnums : enums ++ Body.enums package coordinate (.message name inner body) =
        enums ++ inner.enums package self.coordinate ++ body.enums package coordinate := by
      simp [Body.enums, self]
    have htokens : (Body.message name inner body).tokens ++ symbol "\x7d" :: rest =
        keyword "message" :: word name :: symbol "\x7b" :: (inner.tokens ++ symbol "\x7d" ::
          (body.tokens ++ symbol "\x7d" :: rest)) := by
      simp [Body.tokens]
    rw [hsplit] at hmessages ⊢
    rw [hsplitEnums] at henums ⊢
    have hself := nodup_map_left hmessages
    have hbody := ihInner hinner (by omega : inner.size < fuel) self.coordinate [] (nodup_map_left hself)
      (List.nodup_append.1 henums).1 (body.tokens ++ symbol "\x7d" :: rest)
    have hmessage := parseMessage_of_body hdepth name hbody hself
    have hrest {fuel : Nat} (hfuel : body.size < fuel) :=
      ih h hfuel coordinate fields hmessages henums rest
    rw [htokens, parseBody_message, hmessage, ok_bind, Body.readFields]
    exact parseBody_dropSemicolon (hrest (by omega)) (hrest (by omega))
  | enumeration name values body ih =>
    obtain ⟨hdepth, hvalues, h⟩ := h
    obtain ⟨fuel, rfl⟩ := Nat.exists_eq_succ_of_ne_zero (Nat.ne_of_gt (Nat.zero_lt_of_lt hfuel))
    have hfuel := Nat.lt_of_succ_lt_succ hfuel
    have hsplit : enums ++ Body.enums package coordinate (.enumeration name values body) =
        enums ++ [qualify package coordinate name.text] ++ body.enums package coordinate := by
      simp [Body.enums]
    rw [hsplit] at henums ⊢
    have hrest {fuel : Nat} (hfuel : body.size < fuel) :=
      ih h hfuel coordinate fields hmessages henums rest
    have henum : parseEnum package coordinate (depth + 1) (.of messages enums) _ = _ :=
      parseEnum_tokens hdepth name hvalues (List.nodup_append.1 henums).1
        (body.tokens ++ symbol "\x7d" :: rest)
    rw [enumTokens, List.cons_append] at henum
    rw [Body.tokens, List.append_assoc, enumTokens, List.cons_append, parseBody_enum, henum, ok_bind]
    exact parseBody_dropSemicolon (hrest hfuel) (hrest (Nat.lt_succ_of_lt hfuel))
  | skipped first statement body ih =>
    obtain ⟨hfirst, hstatement, h⟩ := h
    obtain ⟨fuel, rfl⟩ := Nat.exists_eq_succ_of_ne_zero (Nat.ne_of_gt (Nat.zero_lt_of_lt hfuel))
    have hfuel := Nat.lt_of_succ_lt_succ hfuel
    have hrest {fuel : Nat} (hfuel : body.size < fuel) :=
      ih h hfuel coordinate fields hmessages henums rest
    have hskip := Skipped.skipStatementOrBlock_tokens first hstatement
      (body.tokens ++ symbol "\x7d" :: rest)
    rw [Skipped.tokens, List.cons_append] at hskip
    rw [Body.tokens, List.append_assoc, Skipped.tokens, List.cons_append, parseBody_skipped hfirst,
      hskip, ok_bind, afterStatement]
    split_ifs
    · exact parseBody_dropSemicolon (hrest hfuel) (hrest (Nat.lt_succ_of_lt hfuel))
    · exact hrest hfuel
  | empty body ih =>
    obtain ⟨fuel, rfl⟩ := Nat.exists_eq_succ_of_ne_zero (Nat.ne_of_gt (Nat.zero_lt_of_lt hfuel))
    rw [Body.tokens, List.cons_append, parseBody_empty]
    exact ih h (Nat.lt_of_succ_lt_succ hfuel) coordinate fields hmessages henums rest

end ContractScan
