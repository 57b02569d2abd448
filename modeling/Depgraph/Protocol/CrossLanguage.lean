import Depgraph.Protocol.Completeness

/-!
# Cross-language contracts

`cross_language.rs`: profiles that claim the cross-language contract, their nodes, sites and edges,
and the ledgers that count them.
-/

namespace Protocol

open Json Fallible Panics OrderedMap

def crossLanguageCompletenessVersion : String := "cross-language-completeness-v1"

def crossLanguageContractProperty : String := "cross_language_contract_version"

def crossLanguageProfileIdentityProperty : String := "cross_language_profile_identity"

def crossLanguageCompletenessProperty : String := "cross_language_completeness"

def maxIdentityChars : Nat := 4096

def maxReasonChars : Nat := 256

def maxLedgerEntries : Nat := 4

def maxReasonsPerEntry : Nat := 64

def maxArtifactOrdinal : Nat := 1000000

/-! ### Vocabulary -/

inductive CrossLanguageFormat where
  | ffi | graphql | openapi | protobuf
deriving DecidableEq

namespace CrossLanguageFormat

def asStr : CrossLanguageFormat → String
  | .ffi => "ffi"
  | .graphql => "graphql"
  | .openapi => "openapi"
  | .protobuf => "protobuf"

def capability : CrossLanguageFormat → String
  | .ffi => "ffi-contract-v1"
  | .graphql => "graphql-contract-v1"
  | .openapi => "openapi-contract-v1"
  | .protobuf => "protobuf-contract-v1"

/-- The formats in their derived order. -/
def all : List CrossLanguageFormat := [.ffi, .graphql, .openapi, .protobuf]

end CrossLanguageFormat

inductive CrossLanguageNodeKind where
  | service | schema | operation | message | nativeSymbol
deriving DecidableEq

namespace CrossLanguageNodeKind

def asStr : CrossLanguageNodeKind → String
  | .service => "service"
  | .schema => "schema"
  | .operation => "operation"
  | .message => "message"
  | .nativeSymbol => "native_symbol"

def all : List CrossLanguageNodeKind := [.service, .schema, .operation, .message, .nativeSymbol]

def parse (value : String) : Option CrossLanguageNodeKind :=
  all.find? fun kind => kind.asStr = value

end CrossLanguageNodeKind

inductive CrossLanguageRelationKind where
  | providesOperation | acceptsMessage | returnsMessage | referencesSchema | callsOperation
  | implementedBy | generatedFrom | bindsNativeSymbol | providedByLibrary
deriving DecidableEq

namespace CrossLanguageRelationKind

def asStr : CrossLanguageRelationKind → String
  | .providesOperation => "provides_operation"
  | .acceptsMessage => "accepts_message"
  | .returnsMessage => "returns_message"
  | .referencesSchema => "references_schema"
  | .callsOperation => "calls_operation"
  | .implementedBy => "implemented_by"
  | .generatedFrom => "generated_from"
  | .bindsNativeSymbol => "binds_native_symbol"
  | .providedByLibrary => "provided_by_library"

def all : List CrossLanguageRelationKind :=
  [.providesOperation, .acceptsMessage, .returnsMessage, .referencesSchema, .callsOperation,
    .implementedBy, .generatedFrom, .bindsNativeSymbol, .providedByLibrary]

def parse (value : String) : Option CrossLanguageRelationKind :=
  all.find? fun kind => kind.asStr = value

def isContractInternal (kind : CrossLanguageRelationKind) : Bool :=
  [.providesOperation, .acceptsMessage, .returnsMessage, .referencesSchema].contains kind

end CrossLanguageRelationKind

inductive CrossLanguageMappingKind where
  | contractInternal | descriptor | generatorManifest | sourceMap | buildObservation
  | runtimeObservation | repositoryMapping | manualDeclaration | closedCandidates
  | externalReference | unresolved
deriving DecidableEq

namespace CrossLanguageMappingKind

def asStr : CrossLanguageMappingKind → String
  | .contractInternal => "contract_internal"
  | .descriptor => "descriptor"
  | .generatorManifest => "generator_manifest"
  | .sourceMap => "source_map"
  | .buildObservation => "build_observation"
  | .runtimeObservation => "runtime_observation"
  | .repositoryMapping => "repository_mapping"
  | .manualDeclaration => "manual_declaration"
  | .closedCandidates => "closed_candidates"
  | .externalReference => "external_reference"
  | .unresolved => "unresolved"

def all : List CrossLanguageMappingKind :=
  [.contractInternal, .descriptor, .generatorManifest, .sourceMap, .buildObservation,
    .runtimeObservation, .repositoryMapping, .manualDeclaration, .closedCandidates,
    .externalReference, .unresolved]

end CrossLanguageMappingKind

inductive CrossLanguageCapabilityStatus where
  | complete | incomplete
deriving DecidableEq

def CrossLanguageCapabilityStatus.asStr : CrossLanguageCapabilityStatus → String
  | .complete => "complete"
  | .incomplete => "incomplete"

structure CrossLanguageCanonicalIdentity where
  contractVersion : String
  format : CrossLanguageFormat
  repositoryContractLocator : String
  formatVersion : String
  coordinate : String
  profileId : String

structure CrossLanguageProfileIdentity where
  contractVersion : String
  completenessVersion : String
  contractInputDigest : String
  adapterCapabilityVersions : List String
  participatingProfileIds : List String

structure CrossLanguageFormatCoverage where
  format : CrossLanguageFormat
  capability : String
  status : CrossLanguageCapabilityStatus
  inputCount : Nat
  nodeCount : Nat
  siteCount : Nat
  edgeCount : Nat
  externalCount : Nat
  unresolvedCount : Nat
  skippedCount : Nat
  reasons : List String

structure CrossLanguageCompletenessLedger where
  schemaVersion : String
  entries : List CrossLanguageFormatCoverage

structure CrossLanguageEvidenceProperties where
  contractVersion : String
  format : CrossLanguageFormat
  profileId : String
  formatVersion : String
  contractDigest : String
  occurrenceKind : CrossLanguageRelationKind
  mappingKind : CrossLanguageMappingKind
  artifactIdentity : Option String
  ordinal : Option Nat

/-! ### Reading and writing -/

/-- The variant of an enumeration without fields: its name, or an object with its name and null. -/
def variantOf {α : Type} (asStr : α → String) (all : List α) : Value → Option α
  | .string name => all.find? fun a => asStr a = name
  | .object [(name, .null)] => all.find? fun a => asStr a = name
  | _ => none

/-- `Deserialize` of the enumerations. -/
def CrossLanguageFormat.ofValue : Value → Option CrossLanguageFormat :=
  variantOf CrossLanguageFormat.asStr CrossLanguageFormat.all

def CrossLanguageRelationKind.ofValue : Value → Option CrossLanguageRelationKind :=
  variantOf CrossLanguageRelationKind.asStr CrossLanguageRelationKind.all

def CrossLanguageMappingKind.ofValue : Value → Option CrossLanguageMappingKind :=
  variantOf CrossLanguageMappingKind.asStr CrossLanguageMappingKind.all

def CrossLanguageCapabilityStatus.ofValue : Value → Option CrossLanguageCapabilityStatus :=
  variantOf CrossLanguageCapabilityStatus.asStr [.complete, .incomplete]

/-- The fields of a structure that denies unknown fields, from an object or in their order. -/
def fieldValues (names : List String) : Value → Option (List Value)
  | .object members =>
    if members.all fun member => names.contains member.1 then
      names.mapM fun name => members.lookup name
    else none
  | .array items => if items.length = names.length then some items else none
  | _ => none

/-- A vector of strings. -/
def stringsOf (value : Value) : Option (List String) :=
  (asArray value).bind fun items => items.mapM stringOf

/-- `Deserialize` of `CrossLanguageCanonicalIdentity`. -/
def CrossLanguageCanonicalIdentity.ofValue (value : Value) :
    Option CrossLanguageCanonicalIdentity := do
  let fields ← fieldValues ["contract_version", "format", "repository_contract_locator",
    "format_version", "coordinate", "profile_id"] value
  match fields with
  | [contractVersion, format, locator, formatVersion, coordinate, profileId] =>
    return ⟨← stringOf contractVersion, ← CrossLanguageFormat.ofValue format,
      ← stringOf locator, ← stringOf formatVersion, ← stringOf coordinate, ← stringOf profileId⟩
  | _ => none

def CrossLanguageCanonicalIdentity.toValue (identity : CrossLanguageCanonicalIdentity) : Value :=
  .object [("contract_version", .string identity.contractVersion),
    ("format", .string identity.format.asStr),
    ("repository_contract_locator", .string identity.repositoryContractLocator),
    ("format_version", .string identity.formatVersion),
    ("coordinate", .string identity.coordinate), ("profile_id", .string identity.profileId)]

/-- `Deserialize` of `CrossLanguageProfileIdentity`. -/
def CrossLanguageProfileIdentity.ofValue (value : Value) : Option CrossLanguageProfileIdentity := do
  let fields ← fieldValues ["contract_version", "completeness_version", "contract_input_digest",
    "adapter_capability_versions", "participating_profile_ids"] value
  match fields with
  | [contractVersion, completenessVersion, digest, capabilities, participants] =>
    return ⟨← stringOf contractVersion, ← stringOf completenessVersion, ← stringOf digest,
      ← stringsOf capabilities, ← stringsOf participants⟩
  | _ => none

def CrossLanguageProfileIdentity.toValue (identity : CrossLanguageProfileIdentity) : Value :=
  .object [("contract_version", .string identity.contractVersion),
    ("completeness_version", .string identity.completenessVersion),
    ("contract_input_digest", .string identity.contractInputDigest),
    ("adapter_capability_versions", stringsValue identity.adapterCapabilityVersions),
    ("participating_profile_ids", stringsValue identity.participatingProfileIds)]

/-- `Deserialize` of `CrossLanguageFormatCoverage`. -/
def CrossLanguageFormatCoverage.ofValue (value : Value) : Option CrossLanguageFormatCoverage := do
  let fields ← fieldValues ["format", "capability", "status", "input_count", "node_count",
    "site_count", "edge_count", "external_count", "unresolved_count", "skipped_count",
    "reasons"] value
  match fields with
  | [format, capability, status, inputs, nodes, sites, edges, external, unresolved, skipped,
      reasons] =>
    return ⟨← CrossLanguageFormat.ofValue format, ← stringOf capability,
      ← CrossLanguageCapabilityStatus.ofValue status,
      ← asU64 inputs, ← asU64 nodes, ← asU64 sites, ← asU64 edges, ← asU64 external,
      ← asU64 unresolved, ← asU64 skipped, ← stringsOf reasons⟩
  | _ => none

/-- `Deserialize` of `CrossLanguageCompletenessLedger`. -/
def CrossLanguageCompletenessLedger.ofValue (value : Value) :
    Option CrossLanguageCompletenessLedger := do
  let fields ← fieldValues ["schema_version", "entries"] value
  match fields with
  | [schemaVersion, entries] =>
    return ⟨← stringOf schemaVersion,
      ← (← asArray entries).mapM CrossLanguageFormatCoverage.ofValue⟩
  | _ => none

/-- An optional field that is left out or null. -/
def optionalField {α : Type} (read : Value → Option α) : Option Value → Option (Option α)
  | none | some .null => some none
  | some value => (read value).map some

/-- `Deserialize` of `CrossLanguageEvidenceProperties` from the properties. -/
def CrossLanguageEvidenceProperties.ofProperties (properties : Properties) :
    Option CrossLanguageEvidenceProperties := do
  return ⟨← properties.getStr "contract_version",
    ← properties["format"]?.bind CrossLanguageFormat.ofValue,
    ← properties.getStr "profile_id", ← properties.getStr "format_version",
    ← properties.getStr "contract_digest",
    ← properties["occurrence_kind"]?.bind CrossLanguageRelationKind.ofValue,
    ← properties["mapping_kind"]?.bind CrossLanguageMappingKind.ofValue,
    ← optionalField stringOf properties["artifact_identity"]?,
    ← optionalField asU64 properties["ordinal"]?⟩

/-! ### Texts -/

def isControl (c : Char) : Bool := c.toNat < 32 || (127 ≤ c.toNat && c.toNat < 160)

def isBoundedText (value : String) (maxChars : Nat) : Bool :=
  value ≠ "" && value.length ≤ maxChars && !value.toList.any isControl

def isPrefixedSha256 (value : String) : Bool :=
  (utf8 value).take 7 == utf8 "sha256:" && ((utf8 value).drop 7).length == 64 &&
    ((utf8 value).drop 7).all isHexByte

def isSafeContractLocator (value : String) : Bool :=
  isBoundedText value maxIdentityChars && value.toList.head? ≠ some '/' &&
    value.toList.head? ≠ some '\\' && !value.toList.contains '\\' && !containsText value "://" &&
    !value.toList.contains '?' && !value.toList.contains '#' &&
    !(splitAt '/' value).any fun component => ["", ".", ".."].contains component

def CrossLanguage.validateSortedUnique {α : Type} (lt : α → α → Prop) [DecidableRel lt] (label : String)
    (values : List α) (allowEmpty : Bool) : Except ProtocolError Unit :=
  ensure ((allowEmpty = true ∨ values ≠ []) ∧ values.IsChain lt)
    (label ++ " must be sorted and unique")

/-- The parts at the end of a key that look like secrets. -/
def forbiddenKeys : List String :=
  ["authorization", "cookie", "password", "secret", "token", "api_key", "query", "headers", "body"]

def isForbiddenKey (key : String) : Bool :=
  forbiddenKeys.any fun forbidden => forbidden.toList.isSuffixOf (key.map Char.toLower).toList

mutual

/-- Whether a key at any depth is forbidden. -/
def hasForbiddenKey : Value → Bool
  | .object members => membersHaveForbiddenKey members
  | .array items => itemsHaveForbiddenKey items
  | _ => false

def itemsHaveForbiddenKey : List Value → Bool
  | [] => false
  | v :: vs => hasForbiddenKey v || itemsHaveForbiddenKey vs

def membersHaveForbiddenKey : List (String × Value) → Bool
  | [] => false
  | (k, v) :: ms => isForbiddenKey k || hasForbiddenKey v || membersHaveForbiddenKey ms

end

def rejectSecretProperties (owner : String) (properties : Properties) :
    Except ProtocolError Unit :=
  ensure (hasForbiddenKey properties.toValue = false)
    (owner ++ " contains forbidden secret-shaped property")

/-! ### Claims -/

/-- `profile_claims_cross_language`. -/
def Profile.claimsCrossLanguage (profile : Profile) : Bool :=
  profile.language == "cross-language" ||
    profile.properties.contains crossLanguageContractProperty ||
    profile.properties.contains crossLanguageProfileIdentityProperty ||
    profile.properties.contains crossLanguageCompletenessProperty

/-- `is_cross_language_node`. -/
def GraphNode.isCrossLanguage (node : GraphNode) : Bool :=
  (node.properties.getObject "canonical_identity").any fun identity =>
    memberStr identity "contract_version" == some crossLanguageContractVersion

/-- `evidence_claims_cross_language`. -/
def Evidence.claimsCrossLanguage (evidence : Evidence) : Bool :=
  evidence.properties.getStr "contract_version" == some crossLanguageContractVersion

section

variable (S : StableIds) (malformed : String → Value → String)

def crossLanguageNodeId (kind : CrossLanguageNodeKind) (identity : CrossLanguageCanonicalIdentity) :
    String :=
  S.stableIdFromValue kind.asStr identity.toValue

def crossLanguageProfileId (identity : CrossLanguageProfileIdentity) : String :=
  S.stableIdFromValue "profile" identity.toValue

/-- `parse_property`; `malformed` is the library's description of a value it cannot read. -/
def parseProperty {α : Type} (read : Value → Option α) (profile : Profile)
    (property label : String) : Except ProtocolError α := do
  let value ← required profile.properties[property]?
    (.invariant ("cross-language profile " ++ profile.id ++ " has no " ++ label))
  required (read value)
    (.invariant ("cross-language profile " ++ profile.id ++ " " ++ label ++ " is invalid: " ++
      malformed label value))

def parseEvidenceProperties (evidence : Evidence) :
    Except ProtocolError CrossLanguageEvidenceProperties :=
  required (CrossLanguageEvidenceProperties.ofProperties evidence.properties)
    (.invariant ("cross-language primary evidence properties are invalid: " ++
      malformed "evidence properties" evidence.properties.toValue))

/-! ### Profiles -/

/-- The checks of one entry of a ledger. -/
def validateLedgerCoverage (profile : Profile) (entry : CrossLanguageFormatCoverage) :
    Except ProtocolError Unit := do
  ensure (entry.capability = entry.format.capability)
    ("cross-language profile " ++ profile.id ++ " declares unknown capability " ++
      entry.capability ++ " for " ++ entry.format.asStr)
  CrossLanguage.validateSortedUnique (· < ·) "cross-language ledger reasons" entry.reasons true
  ensure (entry.reasons.length ≤ maxReasonsPerEntry ∧
      ∀ reason ∈ entry.reasons, isBoundedText reason maxReasonChars = true)
    ("cross-language profile " ++ profile.id ++ " has an invalid bounded reason ledger")
  let mustBeIncomplete := 0 < entry.unresolvedCount ∨ 0 < entry.skippedCount ∨ entry.reasons ≠ []
  ensure (¬ (entry.status = .complete ∧ mustBeIncomplete) ∧
      ¬ (entry.status = .incomplete ∧ ¬ mustBeIncomplete))
    ("cross-language profile " ++ profile.id ++ " capability " ++ entry.capability ++
      " status contradicts its ledger")

/-- The position of a format in the derived order. -/
def CrossLanguageFormat.rank : CrossLanguageFormat → Nat
  | .ffi => 0
  | .graphql => 1
  | .openapi => 2
  | .protobuf => 3

def validateLedgerShape (profile : Profile) (identity : CrossLanguageProfileIdentity)
    (ledger : CrossLanguageCompletenessLedger) : Except ProtocolError Unit := do
  ensure (ledger.schemaVersion = crossLanguageCompletenessVersion ∧
      ledger.entries.length ≤ maxLedgerEntries)
    ("cross-language profile " ++ profile.id ++ " has an incompatible completeness ledger")
  CrossLanguage.validateSortedUnique (fun a b => CrossLanguageFormat.rank a < CrossLanguageFormat.rank b)
    "cross-language ledger formats" (ledger.entries.map CrossLanguageFormatCoverage.format) true
  ledger.entries.forM (validateLedgerCoverage profile)
  ensure (ledger.entries.map CrossLanguageFormatCoverage.capability =
      identity.adapterCapabilityVersions)
    ("cross-language profile " ++ profile.id ++ " capability identity differs from its ledger")

def validateCrossLanguageProfile (profile : Profile) : Except ProtocolError Unit := do
  let owner := "cross-language profile " ++ profile.id
  ensure (profile.language = "cross-language") (owner ++ " must use language=cross-language")
  ensure (profile.properties.getStr crossLanguageContractProperty =
      some crossLanguageContractVersion)
    (owner ++ " has an incompatible contract version")
  let identity ← parseProperty malformed CrossLanguageProfileIdentity.ofValue profile
    crossLanguageProfileIdentityProperty "profile identity"
  ensure (identity.contractVersion = crossLanguageContractVersion ∧
      identity.completenessVersion = crossLanguageCompletenessVersion ∧
      isPrefixedSha256 identity.contractInputDigest = true)
    (owner ++ " has an incompatible profile identity")
  CrossLanguage.validateSortedUnique (· < ·) "cross-language adapter capability versions"
    identity.adapterCapabilityVersions false
  CrossLanguage.validateSortedUnique (· < ·) "cross-language participating profile IDs"
    identity.participatingProfileIds false
  ensure (∀ value ∈ identity.adapterCapabilityVersions ++ identity.participatingProfileIds,
      isBoundedText value maxIdentityChars = true)
    (owner ++ " identity contains an invalid bounded value")
  let expected := crossLanguageProfileId S identity
  ensure (profile.id = expected)
    (owner ++ " does not match its canonical identity; expected " ++ expected)
  let ledger ← parseProperty malformed CrossLanguageCompletenessLedger.ofValue profile
    crossLanguageCompletenessProperty "completeness ledger"
  validateLedgerShape profile identity ledger

/-- The check of one participating profile. -/
def validateParticipant (profiles : ProfileMap) (profile : Profile) (participantId : String) :
    Except ProtocolError Unit := do
  let participant ← required profiles[participantId]?
    (.invariant ("cross-language profile " ++ profile.id ++
      " references undeclared participating profile " ++ participantId))
  ensure (participant.claimsCrossLanguage = false)
    ("cross-language profile " ++ profile.id ++ " cannot use cross-language profile " ++
      participantId ++ " as a participant")

/-- The check of the profiles that a profile names. -/
def validateParticipants (profiles : ProfileMap) (profile : Profile) :
    Except ProtocolError Unit := do
  let identity ← parseProperty malformed CrossLanguageProfileIdentity.ofValue profile
    crossLanguageProfileIdentityProperty "profile identity"
  identity.participatingProfileIds.forM (validateParticipant profiles profile)

/-! ### Nodes -/

/-- A node of a claimed profile with its identity. -/
abbrev CrossNode : Type := GraphNode × CrossLanguageCanonicalIdentity

abbrev CrossNodes := Std.ExtTreeMap String CrossNode

def validateCrossLanguageNode (claimed : ProfileMap) (node : GraphNode) :
    Except ProtocolError CrossLanguageCanonicalIdentity := do
  let owner := "cross-language node " ++ node.id
  let kind ← required (CrossLanguageNodeKind.parse node.kind)
    (.invariant (owner ++ " uses unknown kind " ++ node.kind))
  let value ← required node.properties["canonical_identity"]?
    (.invariant (owner ++ " has no canonical identity"))
  let identity ← required (CrossLanguageCanonicalIdentity.ofValue value)
    (.invariant (owner ++ " identity is invalid: " ++ malformed "canonical identity" value))
  ensure (identity.contractVersion = crossLanguageContractVersion ∧
      identity.profileId ∈ claimed ∧
      isSafeContractLocator identity.repositoryContractLocator = true ∧
      isBoundedText identity.formatVersion maxIdentityChars = true ∧
      isBoundedText identity.coordinate maxIdentityChars = true)
    (owner ++ " has an incompatible canonical identity")
  ensure (node.properties.getStr "profile_id" = some identity.profileId ∧
      node.properties.getStr "format" = some identity.format.asStr)
    (owner ++ " duplicates an inconsistent format or profile")
  ensure (node.id = crossLanguageNodeId S kind identity ∧
      node.locator = "cross-language:" ++ node.id)
    (owner ++ " does not match its canonical identity or locator")
  return identity

/-! ### Evidence -/

/-- `json!(option)` of a coordinate. -/
def coordinateValue (coordinate : Option Nat) : Value := optionalValue (coordinate.map natValue)

def evidenceAnchor (evidence : Evidence) (properties : CrossLanguageEvidenceProperties) :
    Except ProtocolError Value :=
  match evidence.path with
  | some path => do
    ensure (none ∉ evidence.coordinates ∧ isSafeContractLocator path = true)
      "cross-language source evidence has an incomplete span"
    return .object [("path", .string path), ("start_line", coordinateValue evidence.startLine),
      ("start_column", coordinateValue evidence.startColumn),
      ("end_line", coordinateValue evidence.endLine),
      ("end_column", coordinateValue evidence.endColumn)]
  | none => do
    ensure (∀ coordinate ∈ evidence.coordinates, coordinate = none)
      "cross-language artifact evidence has partial source coordinates"
    let artifactIdentity ← required
      (properties.artifactIdentity.filter fun value => isBoundedText value maxIdentityChars)
      (.invariant "cross-language unspanned evidence requires artifact_identity")
    let ordinal ← required (properties.ordinal.filter fun ordinal => ordinal ≤ maxArtifactOrdinal)
      (.invariant "cross-language unspanned evidence requires a bounded ordinal")
    return .object [("artifact_identity", .string artifactIdentity), ("ordinal", natValue ordinal)]

/-- The canonical JSON of supporting evidence is in order. -/
def SupportingSorted (evidence : List Evidence) : Prop :=
  ((evidence.drop 1).map fun item => canonicalJson S.floatText item.toValue).IsChain
    fun a b => ¬ b < a

instance decidableSupportingSorted (evidence : List Evidence) :
    Decidable (SupportingSorted S evidence) :=
  inferInstanceAs (Decidable (List.IsChain _ _))

def validateCrossLanguageEvidence (owner profileId : String) (relation : CrossLanguageRelationKind)
    (evidence : List Evidence) : Except ProtocolError CrossLanguageEvidenceProperties := do
  let primary ← required evidence.head? (.invariant (owner ++ " has no primary evidence"))
  let properties ← parseEvidenceProperties malformed primary
  ensure (primary.detail = none ∧ properties.contractVersion = crossLanguageContractVersion ∧
      properties.profileId = profileId ∧ properties.occurrenceKind = relation ∧
      isBoundedText properties.formatVersion maxIdentityChars = true ∧
      isPrefixedSha256 properties.contractDigest = true)
    (owner ++ " has invalid common primary evidence")
  let _ ← evidenceAnchor primary properties
  evidence.forM fun item => do
    ensure (item.detail = none) (owner ++ " must not retain raw evidence detail")
    rejectSecretProperties owner item.properties
  ensure (SupportingSorted S evidence)
    (owner ++ " supporting evidence is not canonical-JSON sorted")
  return properties

/-- The proofs that `validate_resolution_contract` allows. -/
def resolutionAllowed (status : ResolutionStatus) (precision : Precision)
    (relation : CrossLanguageRelationKind) (evidenceKind : EvidenceKind)
    (mappingKind : CrossLanguageMappingKind) : Bool :=
  match status, precision with
  | .resolved, .exact =>
    evidenceKind == .semantic &&
      if relation.isContractInternal then [.contractInternal, .descriptor].contains mappingKind
      else [.generatorManifest, .sourceMap].contains mappingKind
  | .resolved, .heuristic => [.repositoryMapping, .manualDeclaration].contains mappingKind
  | .resolved, .observed =>
    [(.build, .buildObservation), (.runtime, .runtimeObservation)].contains
      (evidenceKind, mappingKind)
  | .candidates, .overapprox => mappingKind == .closedCandidates
  | .external, .exact | .external, .heuristic => mappingKind == .externalReference
  | .unresolved, .heuristic => mappingKind == .unresolved
  | _, _ => false

def validateResolutionContract (owner : String) (status : ResolutionStatus) (precision : Precision)
    (relation : CrossLanguageRelationKind) (evidenceKind : EvidenceKind)
    (mappingKind : CrossLanguageMappingKind) : Except ProtocolError Unit :=
  ensure (resolutionAllowed status precision relation evidenceKind mappingKind = true ∧
      ¬ (relation = .providedByLibrary ∧ status = .resolved ∧ precision ≠ .observed))
    (owner ++ " has an invalid status/precision/phase/mapping proof")

/-! ### Sites and edges -/

/-- The kinds of nodes that a relation may start from. -/
def relationSources : CrossLanguageRelationKind → List String
  | .providesOperation => ["service"]
  | .acceptsMessage | .returnsMessage | .implementedBy => ["operation"]
  | .referencesSchema => ["schema", "message"]
  | .callsOperation => ["symbol", "component", "server_function", "operation"]
  | .generatedFrom => ["file", "symbol", "type"]
  | .bindsNativeSymbol => ["symbol", "build_unit"]
  | .providedByLibrary => ["native_symbol"]

/-- The kinds of nodes that a relation may lead to. -/
def relationTargets : CrossLanguageRelationKind → List String
  | .providesOperation | .callsOperation => ["operation"]
  | .acceptsMessage | .returnsMessage => ["message"]
  | .referencesSchema => ["schema", "message"]
  | .implementedBy => ["symbol", "server_function"]
  | .generatedFrom => ["schema", "service", "operation", "message"]
  | .bindsNativeSymbol => ["native_symbol"]
  | .providedByLibrary => ["native_library"]

def validateRelationEndpoints (relation : CrossLanguageRelationKind) (status : ResolutionStatus)
    (source : String) (targets : List String) (nodes : NodeMap) : Except ProtocolError Unit := do
  let owner := "cross-language relation " ++ relation.asStr
  let sourceNode ← required nodes[source]?
    (.invariant (owner ++ " references missing source " ++ source))
  ensure (sourceNode.kind ∈ relationSources relation)
    (owner ++ " has invalid source kind " ++ sourceNode.kind)
  if status = .external ∨ status = .unresolved then .ok ()
  else targets.forM fun target => do
    let targetNode ← required nodes[target]?
      (.invariant (owner ++ " references missing target " ++ target))
    ensure (targetNode.kind ∈ relationTargets relation)
      (owner ++ " has invalid target kind " ++ targetNode.kind)

def validateFormatOwnership (relation : CrossLanguageRelationKind) (format : CrossLanguageFormat)
    (profileId source : String) (targets : List String) (crossNodes : CrossNodes) :
    Except ProtocolError Unit :=
  let identities := (source :: targets).filterMap fun id => crossNodes[id]?.map Prod.snd
  ensure (∀ identity ∈ identities, identity.format = format ∧ identity.profileId = profileId)
    ("cross-language relation " ++ relation.asStr ++
      " mixes incompatible format or profile identities")

def crossLanguagePrimaryEvidence (site : DependencySite) : Except ProtocolError Evidence :=
  required site.evidence.head?
    (.invariant ("cross-language dependency site " ++ site.id ++ " has no primary evidence"))

def buildCrossLanguageSiteId (site : DependencySite) : Except ProtocolError String := do
  let primary ← crossLanguagePrimaryEvidence site
  let properties ← parseEvidenceProperties malformed primary
  let anchor ← evidenceAnchor primary properties
  return S.stableIdFromValue "site" (.object
    [("contract_version", .string crossLanguageContractVersion), ("kind", .string site.kind),
      ("source", .string site.source), ("profile_id", .string site.profileId),
      ("condition", (site.condition.canonicalized S.floatText).toValue),
      ("extractor", .string primary.extractor),
      ("extractor_version", .string primary.extractorVersion),
      ("format", .string properties.format.asStr),
      ("format_version", .string properties.formatVersion),
      ("occurrence_kind", .string properties.occurrenceKind.asStr),
      ("mapping_kind", .string properties.mappingKind.asStr), ("anchor", anchor)])

def buildCrossLanguageEdgeId (edge : GraphEdge) : Except ProtocolError String := do
  let siteId ← required edge.siteId
    (.invariant ("cross-language edge " ++ edge.id ++ " must reference a dependency site"))
  return S.stableIdFromValue "edge" (.object
    [("contract_version", .string crossLanguageContractVersion), ("site_id", .string siteId),
      ("kind", .string edge.kind), ("target", .string edge.target)])

def validateCrossLanguageSite (nodes : NodeMap) (crossNodes : CrossNodes) (site : DependencySite)
    (relation : CrossLanguageRelationKind) : Except ProtocolError Unit := do
  let owner := "cross-language dependency site " ++ site.id
  let primary ← crossLanguagePrimaryEvidence site
  let properties ← validateCrossLanguageEvidence S malformed owner site.profileId relation
    site.evidence
  validateResolutionContract owner site.resolutionStatus site.precision relation primary.kind
    properties.mappingKind
  ensure (site.targetIds.IsChain (· < ·)) (owner ++ " targets must be sorted and unique")
  ensure (∀ reason ∈ site.reason, isBoundedText reason maxReasonChars = true)
    (owner ++ " has an invalid bounded reason")
  validateRelationEndpoints relation site.resolutionStatus site.source site.targetIds nodes
  validateFormatOwnership relation properties.format site.profileId site.source site.targetIds
    crossNodes
  let expected ← buildCrossLanguageSiteId S malformed site
  ensure (site.id = expected)
    (owner ++ " does not match its canonical identity; expected " ++ expected)

/-- The phase of an edge with a kind of primary evidence. -/
def evidencePhase : EvidenceKind → Phase
  | .source => .source
  | .semantic => .semantic
  | .build => .build
  | .runtime => .runtime

def validateCrossLanguageEdge (edge : GraphEdge) (relation : CrossLanguageRelationKind) :
    Except ProtocolError Unit := do
  let owner := "cross-language edge " ++ edge.id
  let primary ← required edge.evidence.head? (.invariant (owner ++ " has no evidence"))
  let properties ← validateCrossLanguageEvidence S malformed owner edge.profileId relation
    edge.evidence
  validateResolutionContract owner edge.resolutionStatus edge.precision relation primary.kind
    properties.mappingKind
  ensure (edge.phase = evidencePhase primary.kind)
    (owner ++ " phase does not match its primary evidence")
  let expected ← buildCrossLanguageEdgeId S edge
  ensure (edge.id = expected)
    (owner ++ " does not match its canonical identity; expected " ++ expected)

/-- A site or an edge of the contract with its relation. -/
abbrev CrossSites := Std.ExtTreeMap String (DependencySite × CrossLanguageRelationKind)

abbrev CrossEdges := Std.ExtTreeMap String (GraphEdge × CrossLanguageRelationKind)

/-- A turn of the loop over the sites. -/
def collectCrossSite (claimed : ProfileMap) (nodes : NodeMap) (crossNodes : CrossNodes)
    (crossSites : CrossSites) (site : DependencySite) : Except ProtocolError CrossSites :=
  if site.profileId ∉ claimed ∧ (∀ id ∈ site.source :: site.targetIds, id ∉ crossNodes) ∧
      site.evidence.any Evidence.claimsCrossLanguage = false then .ok crossSites
  else do
    ensure (site.profileId ∈ claimed)
      ("cross-language dependency site " ++ site.id ++ " uses undeclared profile " ++
        site.profileId)
    let relation ← required (CrossLanguageRelationKind.parse site.kind)
      (.invariant ("cross-language dependency site " ++ site.id ++
        " uses unknown relation kind " ++ site.kind))
    validateCrossLanguageSite S malformed nodes crossNodes site relation
    return crossSites.insert site.id (site, relation)

/-- A turn of the loop over the edges. -/
def collectCrossEdge (claimed : ProfileMap) (crossNodes : CrossNodes) (crossEdges : CrossEdges)
    (edge : GraphEdge) : Except ProtocolError CrossEdges :=
  if edge.profileId ∉ claimed ∧ edge.source ∉ crossNodes ∧ edge.target ∉ crossNodes ∧
      edge.evidence.any Evidence.claimsCrossLanguage = false then .ok crossEdges
  else do
    ensure (edge.profileId ∈ claimed)
      ("cross-language edge " ++ edge.id ++ " uses undeclared profile " ++ edge.profileId)
    let relation ← required (CrossLanguageRelationKind.parse edge.kind)
      (.invariant ("cross-language edge " ++ edge.id ++ " uses unknown relation kind " ++
        edge.kind))
    validateCrossLanguageEdge S malformed edge relation
    return crossEdges.insert edge.id (edge, relation)

/-! ### Closure and ledgers -/

/-- The derived `PartialEq` of lists of evidence. -/
def evidenceBeq (a b : List Evidence) : Bool :=
  a.length == b.length && (a.zip b).all fun pair => pair.1.beq pair.2

/-- The edges of a site are its targets, and agree with the site. -/
def validateCrossSiteClosure (crossEdges : CrossEdges)
    (entry : DependencySite × CrossLanguageRelationKind) : Except ProtocolError Unit := do
  let (site, relation) := entry
  let siteEdges := ((values crossEdges).map Prod.fst).filter fun edge => edge.siteId == some site.id
  ensure (siteEdges.length = site.targetIds.length)
    ("cross-language dependency site " ++ site.id ++ " edge closure is incomplete")
  ensure ((distinctStrings (siteEdges.map GraphEdge.target)).toList =
      (distinctStrings site.targetIds).toList)
    ("cross-language dependency site " ++ site.id ++
      " edge targets differ from its declared targets")
  siteEdges.forM fun edge =>
    ensure (edge.kind = relation.asStr ∧ edge.source = site.source ∧
        edge.profileId = site.profileId ∧ edge.condition.beq site.condition = true ∧
        edge.resolutionStatus = site.resolutionStatus ∧ edge.precision = site.precision ∧
        evidenceBeq edge.evidence site.evidence = true)
      ("cross-language edge " ++ edge.id ++ " differs from dependency site " ++ site.id)

def validateCrossLanguageSiteEdgeClosure (crossSites : CrossSites) (crossEdges : CrossEdges) :
    Except ProtocolError Unit := do
  (values crossEdges).forM fun (edge, _) => do
    let siteId ← required edge.siteId
      (.invariant ("cross-language edge " ++ edge.id ++ " does not reference a site"))
    ensure (siteId ∈ crossSites)
      ("cross-language edge " ++ edge.id ++ " references a non-cross-language site")
  (values crossSites).forM (validateCrossSiteClosure crossEdges)

/-- The items of a profile whose primary evidence has this format. -/
def countedItems {α : Type} (profileId : String) (format : CrossLanguageFormat)
    (owner : α → String) (evidence : α → List Evidence) (items : List α) :
    Except (Failure ProtocolError) (List α) :=
  items.filterM fun item =>
    if owner item = profileId then do
      let primary ← itemAt (evidence item) 0
      match parseEvidenceProperties malformed primary with
      | .ok properties => return properties.format = format
      | .error _ => return false
    else return false

/-- The checks of one ledger entry against what was emitted. -/
def validateLedgerCounts (profile : Profile) (crossNodes : CrossNodes) (crossSites : CrossSites)
    (crossEdges : CrossEdges) (entry : CrossLanguageFormatCoverage) :
    Except (Failure ProtocolError) Unit := do
  let nodeCount := (values crossNodes).countP fun node =>
    node.2.profileId = profile.id ∧ node.2.format = entry.format
  let formatSites ← countedItems malformed profile.id entry.format DependencySite.profileId
    DependencySite.evidence ((values crossSites).map Prod.fst)
  let formatEdges ← countedItems malformed profile.id entry.format GraphEdge.profileId
    GraphEdge.evidence ((values crossEdges).map Prod.fst)
  orReject (ensure (entry.inputCount ≠ 0 ∧ entry.nodeCount = nodeCount ∧
      entry.siteCount = formatSites.length ∧ entry.edgeCount = formatEdges.length ∧
      entry.externalCount = formatSites.countP (·.resolutionStatus = .external) ∧
      entry.unresolvedCount = formatSites.countP (·.resolutionStatus = .unresolved))
    ("cross-language profile " ++ profile.id ++ " capability " ++ entry.capability ++
      " count ledger does not match its emitted closure"))

/-- The checks of one site against the ledger of its profile. -/
def validateLedgeredSite (profile : Profile) (ledger : CrossLanguageCompletenessLedger)
    (site : DependencySite) : Except (Failure ProtocolError) Unit := do
  let primary ← itemAt site.evidence 0
  let properties ← orReject (parseEvidenceProperties malformed primary)
  orReject (ensure (∃ entry ∈ ledger.entries, entry.format = properties.format)
    ("cross-language profile " ++ profile.id ++ " has an unledgered " ++ properties.format.asStr ++
      " site"))

/-- The turn of `validate_cross_language_ledgers` for one profile. -/
def validateProfileLedger (crossNodes : CrossNodes) (crossSites : CrossSites)
    (crossEdges : CrossEdges) (profile : Profile) : Except (Failure ProtocolError) Unit := do
  let ledger ← orReject (parseProperty malformed CrossLanguageCompletenessLedger.ofValue profile
    crossLanguageCompletenessProperty "completeness ledger")
  ledger.entries.forM (validateLedgerCounts malformed profile crossNodes crossSites crossEdges)
  ((values crossNodes).filter fun node => node.2.profileId = profile.id).forM fun (_, identity) =>
    orReject (ensure (∃ entry ∈ ledger.entries, entry.format = identity.format)
      ("cross-language profile " ++ profile.id ++ " has an unledgered " ++
        identity.format.asStr ++ " node"))
  (((values crossSites).map Prod.fst).filter fun site => site.profileId = profile.id).forM
    (validateLedgeredSite malformed profile ledger)

def validateCrossLanguageLedgers (claimed : ProfileMap) (crossNodes : CrossNodes)
    (crossSites : CrossSites) (crossEdges : CrossEdges) : Except (Failure ProtocolError) Unit :=
  (values claimed).forM (validateProfileLedger malformed crossNodes crossSites crossEdges)

/-! ### The maps -/

/-- The profiles that claim the contract, by their ids. -/
def claimedProfiles (profiles : ProfileMap) : Except ProtocolError ProfileMap := do
  let claimed := (values profiles).filter Profile.claimsCrossLanguage
  claimed.forM (validateCrossLanguageProfile S malformed)
  return indexed Profile.id claimed

/-- The nodes of the contract, by their ids. -/
def claimedNodes (claimed : ProfileMap) (nodes : NodeMap) : Except ProtocolError CrossNodes := do
  let crossNodes := (values nodes).filter fun node => node.isCrossLanguage ||
    (node.properties.getStr "profile_id").any fun profileId => claimed.contains profileId
  let identified ← crossNodes.mapM fun node => do
    let identity ← validateCrossLanguageNode S malformed claimed node
    return (node, identity)
  return indexed (fun entry => GraphNode.id entry.1) identified

def validateCrossLanguageMaps (profiles : ProfileMap) (nodes : NodeMap) (edges : EdgeMap)
    (sites : SiteMap) : Except (Failure ProtocolError) Unit := do
  let claimed ← orReject (claimedProfiles S malformed profiles)
  orReject ((values claimed).forM (validateParticipants malformed profiles))
  let crossNodes ← orReject (claimedNodes S malformed claimed nodes)
  let hasCrossEvidence := (values sites).any (·.evidence.any Evidence.claimsCrossLanguage) ||
    (values edges).any (·.evidence.any Evidence.claimsCrossLanguage)
  if claimed.isEmpty then
    orReject (ensure (crossNodes.isEmpty = true ∧ hasCrossEvidence = false)
      "cross-language nodes or evidence require a claimed cross-language profile")
  else
    let crossSites ← orReject
      ((values sites).foldlM (collectCrossSite S malformed claimed nodes crossNodes) ∅)
    let crossEdges ← orReject
      ((values edges).foldlM (collectCrossEdge S malformed claimed crossNodes) ∅)
    orReject (validateCrossLanguageSiteEdgeClosure crossSites crossEdges)
    validateCrossLanguageLedgers malformed claimed crossNodes crossSites crossEdges

end

end Protocol
