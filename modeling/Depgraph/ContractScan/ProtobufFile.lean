import Depgraph.ContractScan.ProtobufPackage

/-!
# What the parser reads of a file

A file of the language declares `SourceFile.declared`. What the parser makes of its tokens is
`SourceFile.read`: `parse_tokens`.
-/

namespace ContractScan

open Std Fallible OrderedMap

/-- A statement of a file. -/
inductive Item
  | importing (kind : ImportKind) (path : String)
  | package (name : WrittenName)
  | message (name : Identifier) (body : Body)
  | enumeration (name : Identifier) (values : List Token)
  | service (name : Identifier) (members : List (Member WrittenRpc))
  | skipped (first : String) (statement : Skipped)
  | empty

def kindTokens : ImportKind → List Token
  | .normal => []
  | .publicImport => [keyword "public"]
  | .weak => [keyword "weak"]

namespace Item

def tokens : Item → List Token
  | importing kind path => keyword "import" :: (kindTokens kind ++ [⟨path, .string⟩, symbol ";"])
  | package name => keyword "package" :: (name.tokens ++ [symbol ";"])
  | message name body =>
    keyword "message" :: word name :: symbol "\x7b" :: (body.tokens ++ [symbol "\x7d"])
  | enumeration name values => enumTokens name values
  | service name members => serviceTokens name members
  | skipped first statement => statement.tokens first
  | empty => [symbol ";"]

/-- The fuel that reading the statement takes. -/
def size : Item → Nat
  | message _ body => body.size + 2
  | service _ members => members.length + 1
  | _ => 0

def imports : Item → List ProtoImport
  | importing kind path => [⟨path, kind⟩]
  | _ => []

def packages : Item → List String
  | package name => [name.text]
  | _ => []

/-- The messages of the statement, with their bodies. -/
def bodies (package : String) : Item → List (String × Body)
  | message name body =>
    body.nested package (qualify package "" name.text) ++ [(qualify package "" name.text, body)]
  | _ => []

def enums (package : String) : Item → List String
  | message name body => body.enums package (qualify package "" name.text)
  | enumeration name _ => [qualify package "" name.text]
  | _ => []

/-- The service of the statement, with its members. -/
def services (package : String) : Item → List (String × List (Member WrittenRpc))
  | service name members => [(qualify package "" name.text, members)]
  | _ => []

/-- The statement is one of the language. The parser does not tell the text of a path from a word or
a delimiter. -/
def Regular : Item → Prop
  | importing kind path =>
    (kind = .normal → path ≠ "public" ∧ path ≠ "weak") ∧ path ∉ delimiters
  | package name => name.full = false ∧ boundedText name.text = true
  | message _ body => body.Regular 0
  | enumeration _ values => Balanced false 63 values
  | service _ members => ∀ member ∈ members, member.Regular WrittenRpc.Regular
  | skipped first statement =>
    first ∈ ["option", "extend"] ∧ statement.Regular ∧
      ∀ token ∈ statement.before, token.text ∉ delimiters
  | empty => True

end Item

/-- The record of a message, with the fields that are asked for. -/
def recordOf (fieldsOf : Body → List ProtoField) (entry : String × Body) : ProtoMessage :=
  ⟨entry.1, fieldsOf entry.2⟩

/-- The record of a service, with the methods that are asked for. -/
def serviceOf (methodsOf : List (Member WrittenRpc) → List ProtoMethod)
    (entry : String × List (Member WrittenRpc)) : ProtoService :=
  ⟨entry.1, methodsOf entry.2⟩

/-- The methods that are declared. -/
def declaredMethods (members : List (Member WrittenRpc)) : List ProtoMethod :=
  (members.filterMap Member.declares?).map WrittenRpc.declared

/-! ### Statements of a file -/

section

variable {package : String} {fuel : Nat} {parser : ProtoParser} {tokens : List Token}

/-- A semicolon before the statements of a file does not matter. -/
theorem parseStatements_dropSemicolon {result : ProtoParser}
    (h : parseStatements package fuel parser tokens = .ok result)
    (h' : parseStatements package (fuel + 1) parser tokens = .ok result) :
    parseStatements package fuel parser (dropSemicolon tokens) = .ok result := by
  cases tokens with
  | nil => exact h
  | cons token rest =>
    by_cases htext : token.text = ";"
    · have hdrop : dropSemicolon (token :: rest) = rest := by
        rw [dropSemicolon, consume, if_pos htext]
      rw [hdrop, ← h', parseStatements, htext, if_neg (by decide), if_neg (by decide),
        if_neg (by decide), if_neg (by decide), if_neg (by decide), if_neg (by decide), if_pos rfl]
    · rwa [dropSemicolon_of_headNe (headNe_cons.2 htext)]

theorem parseStatements_import :
    parseStatements package (fuel + 1) parser (keyword "import" :: tokens) =
      parseImport parser (keyword "import" :: tokens) >>=
        fun found => parseStatements package fuel found.1 found.2 := by
  have htext : (keyword "import").text = "import" := rfl
  rw [parseStatements, if_neg (by decide), if_neg (by decide), if_pos htext]

theorem parseStatements_message :
    parseStatements package (fuel + 1) parser (keyword "message" :: tokens) =
      parseMessage package fuel "" 0 parser.declared (keyword "message" :: tokens) >>=
        fun found => parseStatements package fuel { parser with declared := found.1 } found.2 := by
  have htext : (keyword "message").text = "message" := rfl
  rw [parseStatements, if_neg (by decide), if_neg (by decide), if_neg (by decide), if_pos htext]

theorem parseStatements_enum :
    parseStatements package (fuel + 1) parser (keyword "enum" :: tokens) =
      parseEnum package "" 0 parser.declared (keyword "enum" :: tokens) >>=
        fun found => parseStatements package fuel { parser with declared := found.1 } found.2 := by
  have htext : (keyword "enum").text = "enum" := rfl
  rw [parseStatements, if_neg (by decide), if_neg (by decide), if_neg (by decide),
    if_neg (by decide), if_pos htext]

theorem parseStatements_service :
    parseStatements package (fuel + 1) parser (keyword "service" :: tokens) =
      parseService fuel package parser.services (keyword "service" :: tokens) >>=
        fun found => parseStatements package fuel { parser with services := found.1 } found.2 := by
  have htext : (keyword "service").text = "service" := rfl
  rw [parseStatements, if_neg (by decide), if_neg (by decide), if_neg (by decide),
    if_neg (by decide), if_neg (by decide), if_pos htext]

theorem parseStatements_skipped {first : String} (h : first ∈ ["option", "extend"]) :
    parseStatements package (fuel + 1) parser (keyword first :: tokens) =
      skipStatementOrBlock (keyword first :: tokens) >>= parseStatements package fuel parser := by
  have hfirst : ∀ first ∈ ["option", "extend"], ¬ (first = "syntax" ∨ first = "edition") ∧
      first ≠ "package" ∧ first ≠ "import" ∧ first ≠ "message" ∧ first ≠ "enum" ∧
      first ≠ "service" ∧ first ≠ ";" := by decide
  obtain ⟨hversion, hpackage, himport, hmessage, henum, hservice, hempty⟩ := hfirst first h
  have htext : (keyword first).text = first := rfl
  rw [parseStatements, htext, if_neg hversion, if_neg hpackage, if_neg himport, if_neg hmessage,
    if_neg henum, if_neg hservice, if_neg hempty]

theorem parseStatements_empty :
    parseStatements package (fuel + 1) parser (symbol ";" :: tokens) =
      parseStatements package fuel parser tokens := by
  have htext : (symbol ";").text = ";" := rfl
  rw [parseStatements, if_neg (by decide), if_neg (by decide), if_neg (by decide),
    if_neg (by decide), if_neg (by decide), if_neg (by decide), if_pos htext]

theorem parseImport_tokens {kind : ImportKind} {path : String}
    (h : Item.Regular (.importing kind path)) (rest : List Token) :
    parseImport parser ((Item.importing kind path).tokens ++ rest) =
      .ok ({ parser with imports := parser.imports ++ [⟨path, kind⟩] }, rest) := by
  have hkind : importKind (kindTokens kind ++ ⟨path, .string⟩ :: symbol ";" :: rest) =
      (kind, ⟨path, .string⟩ :: symbol ";" :: rest) := by
    cases kind with
    | normal =>
      obtain ⟨hpublic, hweak⟩ := h.1 rfl
      rw [kindTokens, List.nil_append, importKind, consume_of_headNe (headNe_cons.2 hpublic)]
      simp only
      rw [consume_of_headNe (headNe_cons.2 hweak)]
    | publicImport => rfl
    | weak => rfl
  have htokens : (Item.importing kind path).tokens ++ rest =
      keyword "import" :: (kindTokens kind ++ ⟨path, .string⟩ :: symbol ";" :: rest) := by
    simp [Item.tokens]
  rw [htokens, parseImport, expect_keyword, ok_bind, hkind]
  rfl

theorem parsePackage_tokens {name : WrittenName} (h : Item.Regular (.package name))
    (hpackage : name.text = package) (hnew : parser.packageDeclared = false) (rest : List Token) :
    parsePackage package parser ((Item.package name).tokens ++ rest) =
      .ok ({ parser with packageDeclared := true }, rest) := by
  have htokens : (Item.package name).tokens ++ rest =
      keyword "package" :: (name.tokens ++ symbol ";" :: rest) := by simp [Item.tokens]
  have hfull : name.full = true → false = true := fun hfull => absurd h.1 (by rw [hfull]; decide)
  rw [htokens, parsePackage, expect_keyword, ok_bind,
    parseQualifiedName_tokens name hfull (headNe_cons.2 (by decide)), if_pos h.2, ok_bind]
  simp only
  rw [expect_symbol, ok_bind, check_of ⟨hnew, hpackage⟩, ok_bind]
  rfl

end

/-- What the loop has read of the file. -/
def parserOf (version : String) (packages : List String) (imports : List ProtoImport)
    (messages : List ProtoMessage) (enums : List String) (services : List ProtoService) :
    ProtoParser :=
  ⟨some version, !packages.isEmpty, imports, .of messages enums,
    indexed ProtoService.coordinate services⟩

section

variable {package version : String} {packages : List String} {imports : List ProtoImport}
  {messages : List ProtoMessage} {enums : List String} {services : List ProtoService}

/-- One statement is read. -/
theorem parseStatements_item (item : Item) (h : item.Regular) {fuel : Nat} (hfuel : item.size ≤ fuel)
    (hpackage : ∀ name ∈ item.packages, name = package)
    (honce : (packages ++ item.packages).length ≤ 1)
    (hmessages : ((messages ++ (item.bodies package).map (recordOf Body.readFields)).map
      ProtoMessage.coordinate).Nodup)
    (henums : (enums ++ item.enums package).Nodup)
    (hservices : ((services ++ (item.services package).map (serviceOf readService)).map
      ProtoService.coordinate).Nodup) {rest : List Token} {result : ProtoParser}
    (hrest : ∀ fuel', fuel ≤ fuel' → parseStatements package fuel'
      (parserOf version (packages ++ item.packages) (imports ++ item.imports)
        (messages ++ (item.bodies package).map (recordOf Body.readFields))
        (enums ++ item.enums package)
        (services ++ (item.services package).map (serviceOf readService))) rest = .ok result) :
    parseStatements package (fuel + 1) (parserOf version packages imports messages enums services)
      (item.tokens ++ rest) = .ok result := by
  have hdrop := parseStatements_dropSemicolon (hrest fuel le_rfl) (hrest (fuel + 1) (Nat.le_succ _))
  have hrest := hrest fuel le_rfl
  cases item with
  | importing kind path =>
    have himport := @parseImport_tokens (parserOf version packages imports messages enums services)
      kind path h rest
    rw [Item.tokens, List.cons_append] at himport ⊢
    rw [parseStatements_import, himport, ok_bind]
    simpa [Item.packages, Item.imports, Item.bodies, Item.enums, Item.services, parserOf] using hrest
  | package name =>
    have hempty : packages = [] := by
      rw [List.length_append, Item.packages, List.length_singleton] at honce
      exact List.eq_nil_of_length_eq_zero (by omega)
    subst hempty
    have hread := parsePackage_tokens h (hpackage _ (List.mem_singleton_self _))
      (show (parserOf version [] imports messages enums services).packageDeclared = false from rfl) rest
    rw [Item.tokens, List.cons_append] at hread ⊢
    rw [parseStatements_package, hread, ok_bind]
    simpa [Item.packages, Item.imports, Item.bodies, Item.enums, Item.services, parserOf] using hrest
  | message name body =>
    obtain ⟨fuel, rfl⟩ := Nat.exists_eq_succ_of_ne_zero
      (show fuel ≠ 0 by rw [Item.size] at hfuel; omega)
    have hsplit : messages ++ ((Item.message name body).bodies package).map (recordOf Body.readFields) =
        messages ++ body.messages Body.readFields package (qualify package "" name.text) ++
          [⟨qualify package "" name.text, body.readFields⟩] := by
      simp [Item.bodies, Body.messages, recordOf]
    rw [hsplit] at hmessages hdrop
    have hbody := parseBody_tokens body h (Nat.lt_of_succ_le (Nat.le_of_succ_le_succ hfuel))
      (qualify package "" name.text) [] (nodup_map_left hmessages) henums rest
    have hmessage := parseMessage_of_body (by decide : 0 < maxProtobufDepth) name hbody hmessages
    have htokens : (Item.message name body).tokens ++ rest = keyword "message" :: word name ::
        symbol "\x7b" :: (body.tokens ++ symbol "\x7d" :: rest) := by simp [Item.tokens]
    rw [htokens, parseStatements_message]
    simp only [parserOf, hmessage, ok_bind]
    simpa [Item.packages, Item.imports, Item.enums, Item.services, parserOf] using hdrop
  | enumeration name values =>
    have henum : parseEnum package "" 0 (.of messages enums) _ = _ :=
      parseEnum_tokens (by decide : 0 < maxProtobufDepth) name h henums rest
    rw [Item.tokens, enumTokens, List.cons_append, parseStatements_enum]
    rw [enumTokens, List.cons_append] at henum
    simp only [parserOf, henum, ok_bind]
    simpa [Item.packages, Item.imports, Item.bodies, Item.enums, Item.services, parserOf] using hdrop
  | service name members =>
    have hservice := parseService_tokens package name h (Nat.lt_of_succ_le hfuel) hservices rest
    rw [serviceTokens, List.cons_append] at hservice
    rw [Item.tokens, serviceTokens, List.cons_append, parseStatements_service]
    simp only [parserOf, hservice, ok_bind]
    simpa [Item.packages, Item.imports, Item.bodies, Item.enums, Item.services, parserOf, serviceOf]
      using hdrop
  | skipped first statement =>
    obtain ⟨hfirst, hstatement, -⟩ := h
    have hskip := Skipped.skipStatementOrBlock_tokens first hstatement rest
    simp only [Item.packages, Item.imports, Item.bodies, Item.enums, Item.services, List.map_nil,
      List.append_nil] at hrest hdrop
    rw [Skipped.tokens, List.cons_append] at hskip
    rw [Item.tokens, Skipped.tokens, List.cons_append, parseStatements_skipped hfirst, hskip, ok_bind,
      afterStatement]
    split_ifs
    · exact hdrop
    · exact hrest
  | empty =>
    rw [Item.tokens, List.singleton_append, parseStatements_empty]
    simpa [Item.packages, Item.imports, Item.bodies, Item.enums, Item.services] using hrest

/-- **The statements of a file are read**, by induction on them. -/
theorem parseStatements_tokens (items : List Item)
    (h : ∀ item ∈ items, item.Regular) {fuel : Nat}
    (hfuel : (items.map fun item => item.size + 1).sum ≤ fuel)
    (hpackage : ∀ name ∈ items.flatMap Item.packages, name = package)
    (honce : (packages ++ items.flatMap Item.packages).length ≤ 1)
    (hmessages : ((messages ++ (items.flatMap (Item.bodies package)).map
      (recordOf Body.readFields)).map ProtoMessage.coordinate).Nodup)
    (henums : (enums ++ items.flatMap (Item.enums package)).Nodup)
    (hservices : ((services ++ (items.flatMap (Item.services package)).map
      (serviceOf readService)).map ProtoService.coordinate).Nodup) :
    parseStatements package fuel (parserOf version packages imports messages enums services)
        (items.flatMap Item.tokens) =
      .ok (parserOf version (packages ++ items.flatMap Item.packages)
        (imports ++ items.flatMap Item.imports)
        (messages ++ (items.flatMap (Item.bodies package)).map (recordOf Body.readFields))
        (enums ++ items.flatMap (Item.enums package))
        (services ++ (items.flatMap (Item.services package)).map (serviceOf readService))) := by
  induction items generalizing fuel packages imports messages enums services with
  | nil =>
    simp only [List.flatMap_nil, List.map_nil, List.append_nil]
    cases fuel <;> rfl
  | cons item items ih =>
    obtain ⟨hitem, h⟩ := List.forall_mem_cons.1 h
    rw [List.map_cons, List.sum_cons] at hfuel
    obtain ⟨fuel, rfl⟩ := Nat.exists_eq_succ_of_ne_zero (by omega : fuel ≠ 0)
    simp only [List.flatMap_cons, ← List.append_assoc] at hpackage honce henums
    simp only [List.flatMap_cons, List.map_append, ← List.append_assoc] at hmessages hservices ⊢
    refine parseStatements_item item hitem (by omega) (fun name hmem => ?_) ?_ ?_ ?_ ?_
      fun fuel' hle => ?_
    · exact hpackage name (List.mem_append_left _ hmem)
    · rw [List.length_append] at honce
      omega
    · rw [List.map_append]
      exact (List.nodup_append.1 hmessages).1
    · exact (List.nodup_append.1 henums).1
    · rw [List.map_append]
      exact (List.nodup_append.1 hservices).1
    · refine ih h (by omega) (fun name hmem => hpackage name (List.mem_append_right _ hmem)) ?_ ?_ ?_ ?_
      · exact honce
      · rwa [List.map_append, List.map_append]
      · exact henums
      · rwa [List.map_append, List.map_append]

end

/-! ### The package of a file -/

/-- The first pass steps over a statement of a file, or finds the package in it. -/
theorem discoverLoop_item (item : Item) (h : item.Regular) {found : Option String}
    (honce : found.toList.length + item.packages.length ≤ 1) (fuel : Nat) (rest : List Token) :
    ∃ fuel', fuel ≤ fuel' ∧ discoverLoop (item.tokens.length + fuel) 0 true found
      (item.tokens ++ rest) = discoverLoop fuel' 0 true (found.or item.packages.head?) rest := by
  have hstatement {first : String} {tokens : List Token} (hpackage : first ≠ "package")
      (hfirst : first ∉ delimiters) (hends : Ends tokens)
      (htokens : item.tokens = keyword first :: tokens) (hpackages : item.packages = []) :
      ∃ fuel', fuel ≤ fuel' ∧ discoverLoop (item.tokens.length + fuel) 0 true found
        (item.tokens ++ rest) = discoverLoop fuel' 0 true (found.or item.packages.head?) rest := by
    rw [htokens, hpackages, List.head?_nil, Option.or_none]
    exact ⟨fuel, le_rfl, discoverLoop_statement hpackage hfirst hends fuel found rest⟩
  cases item with
  | importing kind path =>
    have hkind : ∀ token ∈ kindTokens kind, token.text ∉ delimiters := by cases kind <;> decide
    have hpath : ∀ token ∈ [(⟨path, .string⟩ : Token)], token.text ∉ delimiters := fun token hmem => by
      rw [List.mem_singleton.1 hmem]
      exact h.2
    exact hstatement (by decide) (by decide) ((ends_semicolon.append hpath).append hkind) rfl rfl
  | package name =>
    cases found with
    | some found =>
      simp only [Option.toList_some, List.length_singleton, Item.packages] at honce
      omega
    | none =>
      have htokens : (Item.package name).tokens ++ rest =
          keyword "package" :: (name.tokens ++ symbol ";" :: rest) := by simp [Item.tokens]
      have hlength : (Item.package name).tokens.length + fuel =
          (name.tokens ++ [symbol ";"]).length + fuel + 1 := by
        simp only [Item.tokens, List.length_cons]
        omega
      rw [htokens, hlength]
      exact ⟨_, Nat.le_add_left _ _, discoverLoop_package h.1 h.2 _ rest⟩
  | message name body =>
    exact hstatement (by decide) (by decide)
      ((ends_block (body.nested_tokens h)).cons (word_not_delimiter name)) rfl rfl
  | enumeration name values =>
    exact hstatement (by decide) (by decide)
      ((ends_block (Balanced.nested h)).cons (word_not_delimiter name)) rfl rfl
  | service name members =>
    have hmembers := nested_membersTokens (fun _ hmethod => WrittenRpc.Regular.nested hmethod) h
    exact hstatement (by decide) (by decide)
      ((ends_block hmembers).cons (word_not_delimiter name)) rfl rfl
  | skipped first statement =>
    have hwords : ∀ first ∈ ["option", "extend"], first ≠ "package" ∧ first ∉ delimiters := by decide
    obtain ⟨hpackage, hfirst⟩ := hwords first h.1
    exact hstatement hpackage hfirst ((ends_endTokens h.2.1.block).append h.2.2) rfl rfl
  | empty =>
    have htext : (symbol ";").text = ";" := rfl
    have hpackages : Item.empty.packages = [] := rfl
    rw [Item.tokens, List.length_singleton, Nat.add_comm, List.singleton_append, discoverLoop,
      if_neg (by decide), if_neg (by decide), if_neg (by decide), if_pos ⟨htext, rfl⟩, hpackages,
      List.head?_nil, Option.or_none]
    exact ⟨fuel, le_rfl, rfl⟩

/-- **The first pass finds the package**, by induction on the statements. -/
theorem discoverLoop_items (items : List Item) (h : ∀ item ∈ items, item.Regular)
    {found : Option String}
    (honce : found.toList.length + (items.flatMap Item.packages).length ≤ 1) (fuel : Nat) :
    discoverLoop ((items.flatMap Item.tokens).length + fuel) 0 true found
        (items.flatMap Item.tokens) =
      .ok (found.or (items.flatMap Item.packages).head?) := by
  induction items generalizing found fuel with
  | nil =>
    rw [List.flatMap_nil, List.flatMap_nil, List.head?_nil, Option.or_none]
    unfold discoverLoop
    rfl
  | cons item items ih =>
    obtain ⟨hitem, h⟩ := List.forall_mem_cons.1 h
    rw [List.flatMap_cons, List.length_append] at honce
    have hone : found.toList.length + item.packages.length ≤ 1 := by omega
    obtain ⟨fuel', hle, hstep⟩ := discoverLoop_item item hitem hone
      ((items.flatMap Item.tokens).length + fuel) (items.flatMap Item.tokens)
    obtain ⟨more, rfl⟩ := Nat.exists_eq_add_of_le (Nat.le_of_add_right_le hle)
    have hlength : (found.or item.packages.head?).toList.length ≤
        found.toList.length + item.packages.length := by
      cases found <;> cases item.packages <;> simp
    rw [List.flatMap_cons, List.flatMap_cons, List.length_append, Nat.add_assoc, hstep,
      ih h (by omega) more, Option.or_assoc, List.head?_append]

/-! ### The fuel suffices -/

theorem length_le_membersTokens {α : Type} {tokensOf : α → List Token}
    (h : ∀ a, tokensOf a ≠ []) (members : List (Member α)) :
    members.length ≤ (membersTokens tokensOf members).length := by
  induction members with
  | nil => exact Nat.zero_le _
  | cons member members ih =>
    have hpos : 0 < (member.tokens tokensOf).length := by
      cases member with
      | declares a => exact List.length_pos_of_ne_nil (h a)
      | option statement => exact Nat.succ_pos _
      | empty => exact Nat.one_pos
    rw [membersTokens, List.flatMap_cons, List.length_append, ← membersTokens, List.length_cons]
    omega

theorem Body.size_le (body : Body) : body.size ≤ body.tokens.length := by
  induction body with
  | nil => exact le_rfl
  | field f rest ih =>
    simp only [size, tokens, WrittenField.tokens, List.length_append, List.length_cons]
    omega
  | oneof name members rest ih =>
    have hmembers : members.length ≤ (membersTokens WrittenField.tokens members).length :=
      length_le_membersTokens (fun _ => List.cons_ne_nil _ _) members
    simp only [size, tokens, oneofTokens, List.length_append, List.length_cons]
    omega
  | message name inner rest ihInner ih =>
    simp only [size, tokens, List.length_append, List.length_cons]
    omega
  | enumeration name values rest ih =>
    simp only [size, tokens, enumTokens, List.length_append, List.length_cons]
    omega
  | skipped first statement rest ih =>
    simp only [size, tokens, Skipped.tokens, List.length_append, List.length_cons]
    omega
  | empty rest ih =>
    simp only [size, tokens, List.length_cons]
    omega

theorem Item.size_lt (item : Item) : item.size + 1 ≤ item.tokens.length := by
  cases item with
  | message name body =>
    have hbody := body.size_le
    simp only [size, tokens, List.length_append, List.length_cons]
    omega
  | service name members =>
    have hmembers : members.length ≤ (membersTokens WrittenRpc.tokens members).length :=
      length_le_membersTokens (fun _ => by simp [WrittenRpc.tokens, WrittenRpc.signature]) members
    simp only [size, tokens, serviceTokens, List.length_append, List.length_cons]
    omega
  | importing | package | enumeration | skipped | empty => exact Nat.succ_pos _

theorem size_le_tokens (items : List Item) :
    (items.map fun item => item.size + 1).sum ≤ (items.flatMap Item.tokens).length := by
  induction items with
  | nil => exact le_rfl
  | cons item items ih =>
    have hitem := item.size_lt
    rw [List.map_cons, List.sum_cons, List.flatMap_cons, List.length_append]
    omega

/-! ### Files -/

/-- A file as it is written, with its version first. -/
structure SourceFile where
  version : String
  items : List Item

namespace SourceFile

def tokens (file : SourceFile) : List Token :=
  keyword "syntax" :: symbol "=" :: ⟨file.version, .string⟩ :: symbol ";" ::
    file.items.flatMap Item.tokens

def package (file : SourceFile) : String := (file.items.flatMap Item.packages).head?.getD ""

/-- The messages of a file, with their coordinates. -/
def bodies (file : SourceFile) : List (String × Body) :=
  file.items.flatMap (Item.bodies file.package)

def enums (file : SourceFile) : List String := file.items.flatMap (Item.enums file.package)

/-- The services of a file, with their coordinates. -/
def services (file : SourceFile) : List (String × List (Member WrittenRpc)) :=
  file.items.flatMap (Item.services file.package)

/-- The records of a file, with the fields and methods that are asked for. -/
def record (file : SourceFile) (fieldsOf : Body → List ProtoField)
    (methodsOf : List (Member WrittenRpc) → List ProtoMethod) : ProtoFile where
  version := file.version
  package := file.package
  imports := file.items.flatMap Item.imports
  messages := indexed ProtoMessage.coordinate (file.bodies.map (recordOf fieldsOf))
  enums := nameSet file.enums
  services := indexed ProtoService.coordinate (file.services.map (serviceOf methodsOf))

/-- What the file declares. -/
def declared (file : SourceFile) : ProtoFile := file.record Body.declaredFields declaredMethods

/-- What the parser reads of the file. -/
def read (file : SourceFile) : ProtoFile := file.record Body.readFields readService

/-- The file is one of the language: no name is declared twice, and there is one package at most. -/
structure Regular (file : SourceFile) : Prop where
  version : file.version ∈ ["proto2", "proto3"]
  items : ∀ item ∈ file.items, item.Regular
  once : (file.items.flatMap Item.packages).length ≤ 1
  bodies : (file.bodies.map Prod.fst).Nodup
  enums : file.enums.Nodup
  services : (file.services.map Prod.fst).Nodup

theorem map_coordinate_bodies (file : SourceFile) (fieldsOf : Body → List ProtoField) :
    (file.bodies.map (recordOf fieldsOf)).map ProtoMessage.coordinate = file.bodies.map Prod.fst := by
  rw [List.map_map]
  rfl

theorem map_coordinate_services (file : SourceFile)
    (methodsOf : List (Member WrittenRpc) → List ProtoMethod) :
    (file.services.map (serviceOf methodsOf)).map ProtoService.coordinate =
      file.services.map Prod.fst := by
  rw [List.map_map]
  rfl

theorem discoverPackage_tokens {file : SourceFile} (h : file.Regular) :
    discoverPackage file.tokens = .ok file.package := by
  have hversions : ∀ version ∈ ["proto2", "proto3"], version ∉ delimiters := by decide
  have hversion : Ends (symbol "=" :: ⟨file.version, .string⟩ :: [symbol ";"]) :=
    (ends_semicolon.cons (hversions _ h.version)).cons (by decide)
  have hstatement : discoverLoop file.tokens.length 0 true none file.tokens =
      discoverLoop (file.items.flatMap Item.tokens).length 0 true none
        (file.items.flatMap Item.tokens) := by
    have hlength : file.tokens.length = (keyword "syntax" :: symbol "=" ::
        ⟨file.version, .string⟩ :: [symbol ";"]).length + (file.items.flatMap Item.tokens).length := by
      simp only [tokens, List.length_cons, List.length_nil]
      omega
    rw [hlength]
    exact discoverLoop_statement (by decide) (by decide) hversion _ none _
  have honce : (none : Option String).toList.length +
      (file.items.flatMap Item.packages).length ≤ 1 := by
    simpa using h.once
  have hitems := discoverLoop_items file.items h.items honce 0
  rw [Nat.add_zero, Option.none_or] at hitems
  rw [discoverPackage, hstatement, hitems]
  rfl

/-- **The parser reads `read`.** -/
theorem parse_tokens {file : SourceFile} (h : file.Regular) : parse file.tokens = .ok file.read := by
  have hpackage : ∀ name ∈ file.items.flatMap Item.packages, name = file.package := by
    intro name hmem
    rw [package]
    have honce := h.once
    match hpackages : file.items.flatMap Item.packages with
    | [] => rw [hpackages] at hmem; cases hmem
    | [only] => rw [hpackages] at hmem; exact List.mem_singleton.1 hmem
    | _ :: _ :: _ => rw [hpackages] at honce; exact absurd honce (by simp)
  have hfuel : (file.items.map fun item => item.size + 1).sum ≤ file.tokens.length := by
    have hsize := size_le_tokens file.items
    simp only [tokens, List.length_cons]
    omega
  have hmessages : (([] ++ file.bodies.map (recordOf Body.readFields)).map
      ProtoMessage.coordinate).Nodup := by
    rw [List.nil_append, map_coordinate_bodies]
    exact h.bodies
  have hservices : (([] ++ file.services.map (serviceOf readService)).map
      ProtoService.coordinate).Nodup := by
    rw [List.nil_append, map_coordinate_services]
    exact h.services
  have hstatements : parseStatements file.package file.tokens.length
      (parserOf file.version [] [] [] [] []) (file.items.flatMap Item.tokens) = .ok _ :=
    parseStatements_tokens file.items h.items hfuel hpackage h.once hmessages h.enums hservices
  have hversion : versionOf "syntax" file.version = .ok file.version := by
    have hknown := h.version
    simp only [List.mem_cons, List.not_mem_nil, or_false] at hknown
    rw [versionOf, if_pos ⟨rfl, hknown⟩]
  have hfirst : parseStatements file.package (file.tokens.length + 1) ⟨none, false, [], ⟨∅, ∅⟩, ∅⟩
      file.tokens = parseStatements file.package file.tokens.length
        (parserOf file.version [] [] [] [] []) (file.items.flatMap Item.tokens) := by
    have htext : (keyword "syntax").text = "syntax" := rfl
    conv_lhs => rw [tokens]
    rw [parseStatements, if_pos (.inl htext), htext, parseVersion, expect_keyword, ok_bind,
      expect_symbol, ok_bind]
    simp only [expectString, if_true, ok_bind, hversion]
    rfl
  rw [parse, discoverPackage_tokens h, ok_bind, hfirst, hstatements]
  rfl

end SourceFile

end ContractScan
