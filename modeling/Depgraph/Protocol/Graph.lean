import Depgraph.Protocol.Model
import Mathlib.Data.List.Infix

/-!
# Validation of nodes, edges and sites

`validator.rs`: what a node, an edge and a dependency site satisfy alone, and
`validate_site_edge_maps`, which checks them against each other.
-/

namespace Protocol

open Json Fallible

/-! ### Texts -/

/-- The `Debug` text of one character of a string; characters beyond ASCII are kept. -/
def debugChar (c : Char) : List Char :=
  if c = '"' then ['\\', '"']
  else if c = '\\' then ['\\', '\\']
  else if c = '\t' then ['\\', 't']
  else if c = '\n' then ['\\', 'n']
  else if c = '\r' then ['\\', 'r']
  else if c.toNat = 0 then ['\\', '0']
  else if c.toNat < 32 ∨ c.toNat = 127 then
    ['\\', 'u', '\x7b'] ++ Nat.toDigits 16 c.toNat ++ ['\x7d']
  else [c]

/-- `format!("{s:?}")`. -/
def debugStr (s : String) : String :=
  String.ofList ('"' :: (s.toList.flatMap debugChar ++ ['"']))

/-- `str::contains`. -/
def containsText (s part : String) : Bool := decide (part.toList <:+: s.toList)

/-- `str::split(separator)`. -/
def splitAt (separator : Char) (s : String) : List String :=
  (s.toList.splitOn separator).map String.ofList

def validateCanonicalRelativePath (owner path : String) : Except ProtocolError Unit :=
  ensure (¬ (path = "" ∨ path.toList.head? = some '/' ∨ '\\' ∈ path.toList ∨
      (utf8 path)[1]? = some 58 ∨ ∃ component ∈ splitAt '/' path, component ∈ ["", ".", ".."]))
    (owner ++ " must be a normalized repository-relative path, found " ++ debugStr path)

/-! ### Secrets -/

/-- The parts of property keys that look like secrets. -/
def secretParts : List String :=
  ["TOKEN", "SECRET", "PASSWORD", "PASSWD", "API_KEY", "PRIVATE_KEY", "CREDENTIAL", "AUTH",
    "COOKIE", "SESSION"]

def isSecretKey (key : String) : Bool :=
  secretParts.any (containsText (key.map Char.toUpper))

mutual

/-- Whether a key at any depth looks like a secret. -/
def hasSecretKey : Value → Bool
  | .object members => membersHaveSecretKey members
  | .array items => itemsHaveSecretKey items
  | _ => false

def itemsHaveSecretKey : List Value → Bool
  | [] => false
  | v :: vs => hasSecretKey v || itemsHaveSecretKey vs

def membersHaveSecretKey : List (String × Value) → Bool
  | [] => false
  | (k, v) :: ms => isSecretKey k || hasSecretKey v || membersHaveSecretKey ms

end

def rejectSecretLikeProperties (owner : String) (properties : Properties) :
    Except ProtocolError Unit :=
  ensure (hasSecretKey properties.toValue = false)
    (owner ++ " contains forbidden secret-like property key")

/-! ### Nodes -/

/-- The provenance of a build-generated node. -/
def buildProvenanceFields : List String :=
  ["build_run_id", "profile_id", "observer", "observer_version"]

def buildProvenanceDigests : List String :=
  ["command_plan_digest", "toolchain_executable_digest", "environment_key_set_digest",
    "validated_output_digest", "artifact_digest"]

/-- `provenance.get(field).and_then(Value::as_str)`. -/
def memberStr (members : List (String × Value)) (field : String) : Option String :=
  match members.lookup field with
  | some (.string value) => some value
  | _ => none

/-- The object under a property. -/
def Properties.getObject (properties : Properties) (key : String) :
    Option (List (String × Value)) :=
  match properties[key]? with
  | some (.object members) => some members
  | _ => none

/-- `properties.get("build_generated").and_then(Value::as_bool) == Some(true)`. -/
def GraphNode.isBuildGenerated (node : GraphNode) : Bool :=
  match node.properties["build_generated"]? with
  | some (.bool true) => true
  | _ => false

section

variable (S : StableIds)

def validateNode (node : GraphNode) : Except ProtocolError Unit := do
  requireNonEmpty "node.id" node.id
  requireNonEmpty "node.kind" node.kind
  requireNonEmpty "node.locator" node.locator
  if node.isBuildGenerated then do
    let owner := "build-generated node " ++ node.id
    rejectSecretLikeProperties owner node.properties
    let provenance ← required (node.properties.getObject "build_provenance")
      (.invariant (owner ++ " must include properties.build_provenance"))
    let identity ← required (node.properties.getObject "build_identity")
      (.invariant (owner ++ " must include object properties.build_identity"))
    let expectedId := S.stableIdFromValue node.kind (.object identity)
    ensure (node.id = expectedId)
      (owner ++ " does not match its stable identity; expected " ++ expectedId)
    buildProvenanceFields.forM fun field =>
      ensure (∃ value ∈ memberStr provenance field, value ≠ "")
        (owner ++ " must include non-empty build_provenance." ++ field)
    buildProvenanceDigests.forM fun field =>
      ensure (∃ value ∈ memberStr provenance field, isSha256Hex value = true)
        (owner ++ " build_provenance." ++ field ++ " must be a lowercase SHA-256 digest")
    validateCanonicalRelativePath (owner ++ " logical artifact")
      ((memberStr provenance "logical_artifact_path").getD "")
  else .ok ()

/-! ### Evidence -/

def Evidence.hasCompleteSpan (evidence : Evidence) : Bool :=
  evidence.path.isSome && evidence.startLine.isSome && evidence.startColumn.isSome &&
    evidence.endLine.isSome && evidence.endColumn.isSome

/-- `is_observed_build_evidence`. -/
def Evidence.isObservedBuild (evidence : Evidence) : Bool :=
  evidence.kind == .build && evidence.properties.contains "build_run_id"

def crossLanguageContractVersion : String := "cross-language-contract-v1"

/-- `is_cross_language_artifact_evidence`. -/
def Evidence.isCrossLanguageArtifact (evidence : Evidence) : Bool :=
  evidence.path.isNone &&
    evidence.properties.getStr "contract_version" == some crossLanguageContractVersion &&
    (evidence.properties.getStr "artifact_identity").isSome &&
    match evidence.properties["ordinal"]? with
    | some (.number (.int n)) => decide (0 ≤ n)
    | _ => false

/-- `first().is_some_and(predicate)`. -/
def firstIs (predicate : Evidence → Bool) (evidence : List Evidence) : Bool :=
  evidence.head?.any predicate

/-- The four coordinates of a span. -/
def Evidence.coordinates (evidence : Evidence) : List (Option Nat) :=
  [evidence.startLine, evidence.startColumn, evidence.endLine, evidence.endColumn]

/-- `(end_line, end_column) < (start_line, start_column)`. -/
def precedes (line column line' column' : Nat) : Prop :=
  line < line' ∨ (line = line' ∧ column < column')

instance (line column line' column' : Nat) : Decidable (precedes line column line' column') :=
  inferInstanceAs (Decidable (_ ∨ _))

def validateSpan (owner : String) (evidence : Evidence) : Except ProtocolError Unit := do
  if let some path := evidence.path then requireNonEmpty (owner ++ ".path") path
  match evidence.path, evidence.startLine, evidence.startColumn, evidence.endLine,
      evidence.endColumn with
  | _, none, none, none, none => .ok ()
  | some _, some startLine, some startColumn, some endLine, some endColumn => do
    ensure (0 ∉ [startLine, startColumn, endLine, endColumn])
      (owner ++ " span coordinates must be at least 1")
    ensure (¬ precedes endLine endColumn startLine startColumn)
      (owner ++ s!" span end {endLine}:{endColumn} precedes start {startLine}:{startColumn}")
  | _, _, _, _, _ =>
    invariant (owner ++ " span requires path and all four line/column coordinates")

def validateEvidence (evidence : List Evidence) : Except ProtocolError Unit :=
  evidence.forM fun item => do
    requireNonEmpty "evidence.extractor" item.extractor
    requireNonEmpty "evidence.extractor_version" item.extractorVersion
    validateSpan "evidence" item

def validateDependencyEvidence (owner : String) (evidence : List Evidence)
    (requiresSourceSpan : Bool) : Except ProtocolError Unit := do
  ensure (evidence ≠ []) (owner ++ " must include at least one evidence item")
  validateEvidence evidence
  ensure (requiresSourceSpan = true → ∃ item ∈ evidence, item.hasCompleteSpan = true)
    (owner ++ " must include at least one evidence item with a complete source span")

end

end Protocol
