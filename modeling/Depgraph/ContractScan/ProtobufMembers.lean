import Depgraph.ContractScan.ProtobufTokens

/-!
# What the parser reads of a list of statements

An empty statement in a oneof or a service is stepped over together with the statement after it
(`Next.swallowed`), unless the block before it takes its semicolon (`Next.afterBlock`).
`readMembers` is what is left, and `loop_members` says that the loops of the parser read it.
-/

namespace ContractScan

open Std Fallible

/-! ### Statements that are stepped over -/

/-- What `consume(";")` leaves. -/
def dropSemicolon (tokens : List Token) : List Token := (consume ";" tokens).2

theorem dropSemicolon_of_headNe {tokens : List Token} (h : HeadNe ";" tokens) :
    dropSemicolon tokens = tokens := by rw [dropSemicolon, consume_of_headNe h]

theorem dropSemicolon_symbol (tokens : List Token) :
    dropSemicolon (symbol ";" :: tokens) = tokens := by rw [dropSemicolon, consume_symbol]

/-- The end of a statement: a semicolon or a block. -/
def endTokens : Option (List Token) → List Token
  | none => [symbol ";"]
  | some block => symbol "\x7b" :: (block ++ [symbol "\x7d"])

/-- The tokens after a statement: a block takes a semicolon with it. -/
def afterStatement (block : Bool) (tokens : List Token) : List Token :=
  if block then dropSemicolon tokens else tokens

theorem skipLoop_endTokens {block : Option (List Token)}
    (h : ∀ tokens ∈ block, Balanced false 63 tokens) (rest : List Token) :
    skipLoop [] (endTokens block ++ rest) = .ok (afterStatement block.isSome rest) := by
  cases block with
  | none => rfl
  | some tokens =>
    have hclose : ∀ close ∈ ["\x7d"], close ∈ closers := by decide
    have hopens : closing (symbol "\x7b").text = some "\x7d" := rfl
    rw [endTokens, List.cons_append, List.append_assoc, List.singleton_append,
      skipLoop_open hopens (by decide), skipLoop_balanced (h tokens rfl) hclose (by simp) (by decide)]
    exact @skipLoop_block (symbol "\x7d") rest rfl

/-- A statement that is not read, after its first word. -/
structure Skipped where
  before : List Token
  block : Option (List Token)

namespace Skipped

def tokens (first : String) (statement : Skipped) : List Token :=
  keyword first :: (statement.before ++ endTokens statement.block)

structure Regular (statement : Skipped) : Prop where
  before : Balanced true 64 statement.before
  block : ∀ tokens ∈ statement.block, Balanced false 63 tokens

theorem skipStatementOrBlock_tokens (first : String) {statement : Skipped} (h : statement.Regular)
    (rest : List Token) : skipStatementOrBlock (statement.tokens first ++ rest) =
      .ok (afterStatement statement.block.isSome rest) := by
  rw [tokens, List.cons_append, List.append_assoc, skipStatementOrBlock,
    skipLoop_balanced h.before (fun _ h => by cases h) (fun _ => rfl) (by decide),
    skipLoop_endTokens h.block]

end Skipped

/-! ### Methods -/

/-- A method as it is written. -/
structure WrittenRpc where
  name : Identifier
  clientStreaming : Bool
  inputType : WrittenName
  serverStreaming : Bool
  outputType : WrittenName
  body : Option (List Token)

/-- The type in the parentheses of a method. -/
def typeTokens (streaming : Bool) (name : WrittenName) : List Token :=
  symbol "(" :: ((if streaming then keyword "stream" :: name.tokens else name.tokens) ++ [symbol ")"])

/-- The type of a method is not too long, and does not start with the word `stream`. -/
structure MethodTypeRegular (streaming : Bool) (name : WrittenName) : Prop where
  bounded : boundedText name.text = true
  word : streaming = false → name.head.text ≠ "stream"

theorem parseMethodType_tokens {streaming : Bool} {name : WrittenName}
    (h : MethodTypeRegular streaming name) (rest : List Token) :
    parseMethodType (typeTokens streaming name ++ rest) = .ok ((streaming, name.text), rest) := by
  have hconsume : consume "stream"
      ((if streaming then keyword "stream" :: name.tokens else name.tokens) ++ symbol ")" :: rest) =
      (streaming, name.tokens ++ symbol ")" :: rest) := by
    cases hstreaming : streaming with
    | true => exact consume_keyword _ _
    | false => exact consume_of_headNe (headNe_cons.2 (h.word hstreaming))
  rw [typeTokens, List.cons_append, List.append_assoc, List.singleton_append, parseMethodType,
    expect_symbol, ok_bind, hconsume]
  simp only
  rw [parseQualifiedName_tokens name (fun _ => rfl) (headNe_cons.2 (by decide)), if_pos h.bounded,
    ok_bind]
  simp only
  rw [expect_symbol]
  rfl

theorem balanced_typeTokens (streaming : Bool) (name : WrittenName) {rest : List Token}
    (h : Balanced true 64 rest) : Balanced true 64 (typeTokens streaming name ++ rest) := by
  have hinner : Balanced false 63 (if streaming then keyword "stream" :: name.tokens else name.tokens)
      := by
    split_ifs
    · exact .plainText "stream" (by decide) name.balanced
    · exact name.balanced
  rw [typeTokens, List.cons_append, List.append_assoc, List.singleton_append]
  exact .group (by rfl) (fun _ => by decide) hinner h

namespace WrittenRpc

def declared (method : WrittenRpc) : ProtoMethod where
  name := method.name.text
  inputType := method.inputType.text
  outputType := method.outputType.text
  clientStreaming := method.clientStreaming
  serverStreaming := method.serverStreaming

/-- A method before its end. -/
def signature (method : WrittenRpc) : List Token :=
  keyword "rpc" :: word method.name :: (typeTokens method.clientStreaming method.inputType ++
    keyword "returns" :: typeTokens method.serverStreaming method.outputType)

def tokens (method : WrittenRpc) : List Token := method.signature ++ endTokens method.body

structure Regular (method : WrittenRpc) : Prop where
  input : MethodTypeRegular method.clientStreaming method.inputType
  output : MethodTypeRegular method.serverStreaming method.outputType
  body : ∀ tokens ∈ method.body, Balanced false 63 tokens

/-- **A method is read as it is declared.** -/
theorem parseRpc_tokens {method : WrittenRpc} (h : method.Regular) (rest : List Token) :
    parseRpc (method.tokens ++ rest) = .ok (method.declared, rest) := by
  have htokens : method.tokens ++ rest = keyword "rpc" :: word method.name ::
      (typeTokens method.clientStreaming method.inputType ++ keyword "returns" ::
        (typeTokens method.serverStreaming method.outputType ++
          (endTokens method.body ++ rest))) := by
    simp [tokens, signature]
  have hend : parseRpcEnd (endTokens method.body ++ rest) = .ok rest := by
    cases hbody : method.body with
    | none => rfl
    | some block =>
      rw [parseRpcEnd, endTokens, List.cons_append, List.append_assoc, List.singleton_append, consume_symbol]
      simp only
      rw [skipBalancedBody_balanced (h.body block hbody) Nat.one_pos (by decide)]
      rfl
  rw [htokens, parseRpc, expect_keyword, ok_bind, expectIdentifier_word, ok_bind]
  simp only
  rw [parseMethodType_tokens h.input, ok_bind]
  simp only
  rw [expect_keyword, ok_bind, parseMethodType_tokens h.output, ok_bind]
  simp only
  rw [hend]
  rfl

theorem balanced_signature (method : WrittenRpc) : Balanced true 64 method.signature := by
  refine .plainText "rpc" (by decide) (.word _ (balanced_typeTokens _ _ ?_))
  refine .plainText "returns" (by decide) ?_
  have houtput := balanced_typeTokens method.serverStreaming method.outputType .nil
  rwa [List.append_nil] at houtput

/-- A method is stepped over as a whole. -/
theorem skipLoop_tokens {method : WrittenRpc} (h : method.Regular) (rest : List Token) :
    skipLoop [] (method.tokens ++ rest) = .ok (afterStatement method.body.isSome rest) := by
  rw [tokens, List.append_assoc, skipLoop_balanced method.balanced_signature (fun _ h => by cases h)
    (fun _ => rfl) (by decide), skipLoop_endTokens h.body]

end WrittenRpc

/-! ### Members of a oneof or a service -/

/-- A statement in a oneof or a service. -/
inductive Member (α : Type)
  | declares (a : α)
  | option (statement : Skipped)
  | empty

/-- Where the parser stands before a statement: it reads it, it has taken the semicolon before it for
its first token, or it has taken the semicolon with the block before it, if there is one. -/
inductive Next
  | statement
  | swallowed
  | afterBlock

/-- Where the parser stands after a statement. -/
def Next.after (block : Bool) : Next := if block then .afterBlock else .statement

section Members

variable {α β : Type} (tokensOf : α → List Token) (blockOf : α → Bool) (read : α → Option β)

namespace Member

def tokens : Member α → List Token
  | .declares a => tokensOf a
  | .option statement => statement.tokens "option"
  | .empty => [symbol ";"]

def endsInBlock : Member α → Bool
  | .declares a => blockOf a
  | .option statement => statement.block.isSome
  | .empty => false

def Regular (P : α → Prop) : Member α → Prop
  | .declares a => P a
  | .option statement => statement.Regular
  | .empty => True

/-- What is declared. -/
def declares? : Member α → Option α
  | .declares a => some a
  | _ => none

end Member

def membersTokens (members : List (Member α)) : List Token :=
  members.flatMap (Member.tokens tokensOf)

/-- What is read of the members of a oneof or a service. -/
def readMembers : Next → List (Member α) → List β
  | _, [] => []
  | .swallowed, member :: members => readMembers (.after (member.endsInBlock blockOf)) members
  | .afterBlock, .empty :: members => readMembers .statement members
  | .statement, .empty :: members => readMembers .swallowed members
  | .statement, .option statement :: members | .afterBlock, .option statement :: members =>
    readMembers (.after statement.block.isSome) members
  | .statement, .declares a :: members | .afterBlock, .declares a :: members =>
    (read a).toList ++ readMembers .statement members

/-- The tokens that the loop goes on with. -/
def enter : Next → List Token → Except String (List Token)
  | .statement, tokens => .ok tokens
  | .swallowed, tokens => skipLoop [] tokens
  | .afterBlock, tokens => .ok (dropSemicolon tokens)

theorem enter_after (block : Bool) (tokens : List Token) :
    enter (.after block) tokens = .ok (afterStatement block tokens) := by cases block <;> rfl

/-- A loop that reads members, where the regular ones have a property. -/
structure ReadsMembers (P : α → Prop)
    (loop : Nat → List β → List Token → Except String (List β × List Token)) : Prop where
  skips : ∀ a, P a → ∀ tokens,
    skipLoop [] (tokensOf a ++ tokens) = .ok (afterStatement (blockOf a) tokens)
  head : ∀ a, P a → ∀ tokens, HeadNe ";" (tokensOf a ++ tokens)
  ends : ∀ fuel found rest, loop (fuel + 1) found (symbol "\x7d" :: rest) = .ok (found, rest)
  empty : ∀ fuel found tokens,
    loop (fuel + 1) found (symbol ";" :: tokens) = skipLoop [] tokens >>= loop fuel found
  option : ∀ statement : Skipped, statement.Regular → ∀ fuel found tokens,
    loop (fuel + 1) found (statement.tokens "option" ++ tokens) =
      loop fuel found (afterStatement statement.block.isSome tokens)
  declares : ∀ a, P a → ∀ fuel found tokens,
    loop (fuel + 1) found (tokensOf a ++ tokens) = loop fuel (found ++ (read a).toList) tokens

variable {tokensOf blockOf read} {P : α → Prop}
  {loop : Nat → List β → List Token → Except String (List β × List Token)}

theorem Member.skipLoop_tokens (h : ReadsMembers tokensOf blockOf read P loop) {member : Member α}
    (hmember : member.Regular P) (tokens : List Token) :
    skipLoop [] (member.tokens tokensOf ++ tokens) =
      .ok (afterStatement (member.endsInBlock blockOf) tokens) := by
  cases member with
  | declares a => exact h.skips a hmember tokens
  | option statement =>
    have hskip := Skipped.skipStatementOrBlock_tokens "option" hmember tokens
    rw [Skipped.tokens, List.cons_append, skipStatementOrBlock] at hskip
    rw [Member.tokens, Skipped.tokens, List.cons_append,
      skipLoop_plain (by rfl) (by decide) (by decide)]
    exact hskip
  | empty => rfl

/-- **The loop reads `readMembers`**, by induction on the members, wherever it stands. -/
theorem loop_members (h : ReadsMembers tokensOf blockOf read P loop) {members : List (Member α)}
    (hmembers : ∀ member ∈ members, member.Regular P) (rest : List Token) (next : Next) {fuel : Nat}
    (hfuel : members.length < fuel) (found : List β) :
    (enter next (membersTokens tokensOf members ++ symbol "\x7d" :: rest) >>= loop fuel found) =
      .ok (found ++ readMembers blockOf read next members, rest) := by
  induction members generalizing next fuel found with
  | nil =>
    obtain ⟨fuel, rfl⟩ := Nat.exists_eq_succ_of_ne_zero (Nat.ne_of_gt hfuel)
    rw [readMembers, List.append_nil]
    cases next <;> exact h.ends fuel found rest
  | cons member members ih =>
    obtain ⟨hmember, hmembers⟩ := List.forall_mem_cons.1 hmembers
    have ih := ih hmembers
    rw [List.length_cons] at hfuel
    obtain ⟨fuel, rfl⟩ := Nat.exists_eq_succ_of_ne_zero (Nat.ne_of_gt (Nat.zero_lt_of_lt hfuel))
    have hfuel := Nat.lt_of_succ_lt_succ hfuel
    rw [membersTokens, List.flatMap_cons, List.append_assoc, ← membersTokens]
    cases next with
    | swallowed =>
      rw [enter, Member.skipLoop_tokens h hmember, ← enter_after, readMembers]
      exact ih _ (Nat.lt_succ_of_lt hfuel) found
    | statement =>
      cases member with
      | empty => exact (h.empty fuel found _).trans (ih .swallowed hfuel found)
      | option statement =>
        refine (h.option statement hmember fuel found _).trans ?_
        have hrest := ih (.after statement.block.isSome) hfuel found
        rwa [enter_after] at hrest
      | declares a =>
        refine (h.declares a hmember fuel found _).trans ?_
        have hrest := ih .statement hfuel (found ++ (read a).toList)
        rwa [List.append_assoc] at hrest
    | afterBlock =>
      cases member with
      | empty =>
        rw [enter, Member.tokens, List.singleton_append, dropSemicolon_symbol]
        exact ih .statement (Nat.lt_succ_of_lt hfuel) found
      | option statement =>
        have hhead : HeadNe ";" (Member.tokens tokensOf (.option statement) ++
            (membersTokens tokensOf members ++ symbol "\x7d" :: rest)) := headNe_cons.2 (by decide)
        rw [enter, dropSemicolon_of_headNe hhead]
        refine (h.option statement hmember fuel found _).trans ?_
        have hrest := ih (.after statement.block.isSome) hfuel found
        rwa [enter_after] at hrest
      | declares a =>
        have hhead : HeadNe ";" (Member.tokens tokensOf (.declares a) ++
            (membersTokens tokensOf members ++ symbol "\x7d" :: rest)) := h.head a hmember _
        rw [enter, dropSemicolon_of_headNe hhead]
        refine (h.declares a hmember fuel found _).trans ?_
        have hrest := ih .statement hfuel (found ++ (read a).toList)
        rwa [List.append_assoc] at hrest

end Members

end ContractScan
