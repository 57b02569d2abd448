import Depgraph.Protocol.SemanticKinds

/-!
# Semantic nodes

`validator.rs`: the canonical identity of symbols, types and framework abstractions, and the profile
that stable semantic identities are named after.
-/

namespace Protocol

open Json Fallible Panics OrderedMap

/-- `value.get(field).and_then(Value::as_str)`. -/
def fieldStr (value : Value) (field : String) : Option String :=
  (asObject value).bind fun members => memberStr members field

/-- `value.get(field)`. -/
def fieldOf (value : Value) (field : String) : Option Value :=
  (asObject value).bind fun members => members.lookup field

/-! ### Identities -/

section Identity

variable (identity : Value) (nodeId : String)

def requiredIdentityString (field : String) : Except ProtocolError String :=
  required ((fieldStr identity field).filter (· ≠ ""))
    (.invariant ("semantic node " ++ nodeId ++ " canonical_identity." ++ field ++
      " must be a non-empty string"))

def validateFrameworkIdentityBase : Except ProtocolError Unit := do
  let framework ← requiredIdentityString identity nodeId "framework"
  ensure (framework ∈ ["next", "astro", "tanstack-router", "tanstack-start"])
    ("framework semantic node " ++ nodeId ++ " has unsupported framework " ++ debugStr framework)
  let _ ← requiredIdentityString identity nodeId "environment"
  return ()

def reservedSymbolIdentityKind (symbolKind : String) : Option String :=
  if symbolKind.startsWith "local_" ∨ symbolKind = "parameter" then some "local"
  else if symbolKind.startsWith "anonymous_" ∨ symbolKind ∈ ["closure", "lambda"] then
    some "anonymous"
  else if symbolKind.startsWith "generated_" then some "generated"
  else none

/-- The closure `coordinate`. -/
def identityCoordinate (span : Value) (field : String) : Except ProtocolError Nat := do
  let owner := "symbol node " ++ nodeId ++ " canonical_identity.span." ++ field
  let value ← required ((fieldOf span field).bind asU64)
    (.invariant (owner ++ " must be a positive integer"))
  ensure (value < 2 ^ 32) (owner ++ " exceeds u32")
  ensure (value ≠ 0) (owner ++ " must be at least 1")
  return value

def validateIdentitySpan (span : Value) : Except ProtocolError Unit := do
  let startLine ← identityCoordinate nodeId span "start_line"
  let startColumn ← identityCoordinate nodeId span "start_column"
  let endLine ← identityCoordinate nodeId span "end_line"
  let endColumn ← identityCoordinate nodeId span "end_column"
  ensure (¬ precedes endLine endColumn startLine startColumn)
    ("symbol node " ++ nodeId ++ " canonical identity span end precedes start")

def validateSymbolIdentity : Except ProtocolError Unit := do
  let identityKind ← requiredIdentityString identity nodeId "identity_kind"
  let symbolKind ← requiredIdentityString identity nodeId "symbol_kind"
  if let some expected := reservedSymbolIdentityKind symbolKind then
    ensure (identityKind = expected)
      ("symbol node " ++ nodeId ++ " symbol_kind " ++ debugStr symbolKind ++
        " requires canonical_identity.identity_kind=" ++ debugStr expected)
  if identityKind = "named" then
    let _ ← requiredIdentityString identity nodeId "resolver_identity"
    return ()
  else
    ensure (identityKind ∈ ["local", "anonymous", "generated"])
      ("symbol node " ++ nodeId ++ " canonical_identity.identity_kind has unsupported value " ++
        debugStr identityKind)
    ensure (∃ field ∈ ["enclosing_symbol", "generated_from"],
        ∃ value ∈ fieldStr identity field, value ≠ "")
      (identityKind ++ " symbol node " ++ nodeId ++
        " canonical_identity must include enclosing_symbol or generated_from")
    let relativePath ← requiredIdentityString identity nodeId "relative_path"
    validateCanonicalRelativePath "symbol canonical_identity.relative_path" relativePath
    let span ← required (fieldOf identity "span")
      (.invariant ("symbol node " ++ nodeId ++ " local canonical_identity must include span"))
    validateIdentitySpan nodeId span

end Identity

/-! ### Nodes -/

def isFrameworkSemanticNodeKind (kind : String) : Bool :=
  ["component", "route", "server_function", "middleware"].contains kind

def requiredNodeProperty (node : GraphNode) (field : String) : Except ProtocolError String :=
  required ((node.properties.getStr field).filter (· ≠ ""))
    (.invariant (node.kind ++ " node " ++ node.id ++ " must include non-empty properties." ++ field))

/-- The property that holds the kind of a semantic node. -/
def kindProperty : String → Option String
  | "symbol" => some "symbol_kind"
  | "type" => some "type_kind"
  | "component" => some "component_kind"
  | "route" => some "route_kind"
  | "server_function" => some "server_function_kind"
  | "middleware" => some "middleware_kind"
  | _ => none

/-- The properties that a canonical identity repeats. -/
def mirroredProperties (node : GraphNode) (packageLocator property semanticKind : String) :
    Except ProtocolError (List (String × String)) := do
  let mirrored := [("package_locator", packageLocator), (property, semanticKind)]
  if node.kind ∈ ["symbol", "type"] then
    let language ← requiredNodeProperty node "language"
    return ("language", language) :: mirrored
  else
    let framework ← requiredNodeProperty node "framework"
    let environment ← requiredNodeProperty node "environment"
    let _ ← requiredNodeProperty node "profile_id"
    return ("framework", framework) :: (mirrored ++ [("environment", environment)])

/-- The part of a canonical identity that depends on the kind of the node. -/
def validateIdentityOfKind (kind : String) (identity : Value) (nodeId : String) :
    Except (Failure ProtocolError) Unit :=
  match kind with
  | "symbol" => orReject (validateSymbolIdentity identity nodeId)
  | "type" => orReject do
    let _ ← requiredIdentityString identity nodeId "resolver_identity"
    return ()
  | "component" | "server_function" => orReject do
    validateFrameworkIdentityBase identity nodeId
    let _ ← requiredIdentityString identity nodeId "resolver_identity"
    return ()
  | "route" => orReject do
    validateFrameworkIdentityBase identity nodeId
    let _ ← requiredIdentityString identity nodeId "router_instance"
    let pattern ← requiredIdentityString identity nodeId "route_pattern"
    ensure (pattern.startsWith "/" = true)
      ("route node " ++ nodeId ++ " canonical_identity.route_pattern must start with /")
  | "middleware" => orReject do
    validateFrameworkIdentityBase identity nodeId
    let _ ← requiredIdentityString identity nodeId "resolver_identity"
    let _ ← requiredIdentityString identity nodeId "scope"
    return ()
  | _ => .error (.panicked "internal error: entered unreachable code: semantic node kind matched above")

section

variable (S : StableIds)

def validateSemanticNode (node : GraphNode) : Except (Failure ProtocolError) Unit :=
  if isFrameworkSemanticNodeKind node.kind = true ∧ "canonical_identity" ∉ node.properties then
    .ok ()
  else
    match kindProperty node.kind with
    | none => .ok ()
    | some property => do
      let packageLocator ← orReject (requiredNodeProperty node "package_locator")
      let semanticKind ← orReject (requiredNodeProperty node property)
      let identity ← orReject (required node.properties["canonical_identity"]?
        (.invariant (node.kind ++ " node " ++ node.id ++
          " must include properties.canonical_identity")))
      orReject (ensure ((asObject identity).isSome = true)
        (node.kind ++ " node " ++ node.id ++ " canonical_identity must be an object"))
      let mirrored ← orReject (mirroredProperties node packageLocator property semanticKind)
      orReject (mirrored.forM fun (field, expected) => do
        let found ← requiredIdentityString identity node.id field
        ensure (found = expected)
          (node.kind ++ " node " ++ node.id ++ " property " ++ field ++ "=" ++ debugStr expected ++
            " disagrees with canonical_identity value " ++ debugStr found))
      validateIdentityOfKind node.kind identity node.id
      let expectedId := S.stableIdFromValue node.kind identity
      orReject (ensure (node.id = expectedId)
        (node.kind ++ " node " ++ node.id ++ " does not match its canonical identity; expected " ++
          expectedId))

/-- The nodes that the identity of a symbol refers to. -/
def validateSymbolOrigins (nodes : NodeMap) (node : GraphNode) : Except ProtocolError Unit :=
  if node.kind = "symbol" then
    match node.properties["canonical_identity"]? with
    | none => .ok ()
    | some identity =>
      ["enclosing_symbol", "generated_from"].forM fun field =>
        match fieldStr identity field with
        | none => .ok ()
        | some origin => do
          let originNode ← required nodes[origin]?
            (.invariant ("symbol node " ++ node.id ++ " canonical_identity." ++ field ++
              " references missing node " ++ origin))
          ensure (¬ (field = "enclosing_symbol" ∧ originNode.kind ≠ "symbol"))
            ("symbol node " ++ node.id ++
              " canonical_identity.enclosing_symbol references non-symbol node " ++ originNode.id ++
              " of kind " ++ originNode.kind)
  else .ok ()

/-! ### Logical profiles -/

def sourceBatchContractVersion : String := "depgraph-analysis-unit-v2"

/-- A property of a source-batch profile. -/
def batchProperty (profile : Profile) (profileId key : String) : Except ProtocolError String :=
  required ((profile.properties.getStr key).filter (· ≠ ""))
    (.invariant ("source-batch profile " ++ profileId ++ " omitted " ++ key))

/-- The logical profile of a source batch, by the language of its profile. -/
def expectedLogicalProfile (language base unit stage : String) : Option String :=
  if language ∈ ["web", "typescript", "javascript"] then
    some (S.stableIdFromValue "profile" (.object [("base_profile", .string base),
      ("contract_version", .string sourceBatchContractVersion), ("stage", .string stage),
      ("unit_id", .string unit)]))
  else if language = "go" then
    some (S.stableIdFromValue "profile" (.object [("kind", .string "profile"),
      ("workspace", .string "go-analysis-unit-v2-logical"),
      ("parts", .array [.string base, .string unit, .string stage])]))
  else none

def semanticIdentityProfileId (profileId : String) (profiles : ProfileMap) :
    Except ProtocolError String :=
  match profiles[profileId]? with
  | none => .ok profileId
  | some profile =>
    if profile.properties.getStr "analysis_unit_contract" = some sourceBatchContractVersion then do
      let base ← batchProperty profile profileId "analysis_base_profile_id"
      let unit ← batchProperty profile profileId "analysis_unit_id"
      let stage ← batchProperty profile profileId "analysis_stage"
      ensure (stage ∈ ["syntax", "semantic"])
        ("source-batch profile " ++ profileId ++ " has unsupported analysis_stage " ++
          debugStr stage)
      let logical ← batchProperty profile profileId "analysis_logical_profile_id"
      let expected ← required (expectedLogicalProfile S profile.language base unit stage)
        (.invariant ("source-batch profile " ++ profileId ++ " has unsupported language " ++
          debugStr profile.language))
      ensure (logical = expected)
        ("source-batch profile " ++ profileId ++
          " logical profile does not match its unit and stage; expected " ++ expected)
      return logical
    else .ok profileId

end

end Protocol
