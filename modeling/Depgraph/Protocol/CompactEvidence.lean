import Depgraph.Protocol.ConditionText
import Depgraph.Protocol.Event

/-!
# The compact evidence encoding

`compact_evidence.rs`: evidence properties that are declared once for a profile, and the decoder that
puts them back and copies the evidence of sites into the edges that leave it out.
-/

namespace Protocol

open Json Fallible Std

/-! ### Property defaults -/

def evidenceEncodingProperty : String := "evidence_encoding"

def compactEvidenceEncodingV1 : String := "compact-evidence-v1"

def evidencePropertyDefaultsProperty : String := "evidence_property_defaults"

/-- `EvidencePropertyDefaults`: properties shared by every evidence item with one extractor and
extractor version. -/
structure EvidencePropertyDefaults where
  extractor : String
  extractorVersion : String
  properties : Properties

def EvidencePropertyDefaults.matches (entry : EvidencePropertyDefaults) (evidence : Evidence) :
    Bool :=
  evidence.extractor == entry.extractor && evidence.extractorVersion == entry.extractorVersion

section Apply

variable (F : FloatText)

def jsonLen (value : Value) : Nat := (String.ofList (value.text F)).utf8ByteSize

/-- Inserts a property unless the key is there, and adds the bytes of what it inserts. -/
def insertDefault (applied : Evidence × Nat) (property : String × Value) : Evidence × Nat :=
  if property.1 ∈ applied.1.properties then applied
  else
    ({ applied.1 with properties := applied.1.properties.insert property.1 property.2 },
      applied.2 + (property.1.utf8ByteSize + jsonLen F property.2 + 4))

def EvidencePropertyDefaults.apply (entry : EvidencePropertyDefaults) (evidence : Evidence) :
    Evidence × Nat :=
  if entry.matches evidence then entry.properties.toList.foldl (insertDefault F) (evidence, 0)
  else (evidence, 0)

/-- Applies every matching default to an item. -/
def applyDefaults (defaults : List EvidencePropertyDefaults) (item : Evidence) : Evidence × Nat :=
  defaults.foldl (fun applied entry =>
    let (item, added) := entry.apply F applied.1
    (item, applied.2 + added)) (item, 0)

def applyEvidencePropertyDefaults (defaults : List EvidencePropertyDefaults)
    (evidence : List Evidence) : List Evidence × Nat :=
  ((evidence.map fun item => (applyDefaults F defaults item).1),
    (evidence.map fun item => (applyDefaults F defaults item).2).sum)

end Apply

/-! ### Serialization -/

def EvidencePropertyDefaults.toValue (entry : EvidencePropertyDefaults) : Value :=
  .object [("extractor", .string entry.extractor),
    ("extractor_version", .string entry.extractorVersion),
    ("properties", entry.properties.toValue)]

/-- `serde_json::to_value`. -/
def defaultsValue (defaults : List EvidencePropertyDefaults) : Value :=
  .array (defaults.map EvidencePropertyDefaults.toValue)

/-- The fields from their values. -/
def EvidencePropertyDefaults.ofFields : Value → Value → Value → Option EvidencePropertyDefaults
  | .string extractor, .string extractorVersion, .object properties =>
    some ⟨extractor, extractorVersion, .ofList properties⟩
  | _, _, _ => none

/-- `Deserialize` with `deny_unknown_fields`, from an object or from the fields in their order. -/
def EvidencePropertyDefaults.ofValue : Value → Option EvidencePropertyDefaults
  | .object members =>
    if members.all fun member => ["extractor", "extractor_version", "properties"].contains member.1
    then do
      let extractor ← members.lookup "extractor"
      let extractorVersion ← members.lookup "extractor_version"
      let properties ← members.lookup "properties"
      ofFields extractor extractorVersion properties
    else none
  | .array [extractor, extractorVersion, properties] =>
    ofFields extractor extractorVersion properties
  | _ => none

/-- `serde_json::from_value`. -/
def defaultsOfValue : Value → Option (List EvidencePropertyDefaults)
  | .array items => items.mapM EvidencePropertyDefaults.ofValue
  | _ => none

theorem ofValue_toValue (entry : EvidencePropertyDefaults) :
    EvidencePropertyDefaults.ofValue entry.toValue = some entry := by
  obtain ⟨extractor, extractorVersion, properties⟩ := entry
  simp only [EvidencePropertyDefaults.toValue, EvidencePropertyDefaults.ofValue, Properties.toValue]
  rw [if_pos (by simp)]
  simp [List.lookup_cons, EvidencePropertyDefaults.ofFields, OrderedMap.ofList_toList]

/-- Defaults are read back as they were written. -/
theorem defaultsOfValue_defaultsValue (defaults : List EvidencePropertyDefaults) :
    defaultsOfValue (defaultsValue defaults) = some defaults := by
  rw [defaultsValue, defaultsOfValue]
  induction defaults with
  | nil => rfl
  | cons entry defaults ih => rw [List.map_cons, List.mapM_cons, ofValue_toValue, ih]; rfl

/-! ### Checks -/

/-- The pairs of extractors and versions that were seen. -/
abbrev SeenDefaults : Type := List (String × String)

/-- The checks of `parse_defaults` on one entry. -/
def validateDefaultsEntry (profileId : String) (seen : SeenDefaults)
    (entry : EvidencePropertyDefaults) : Except ProtocolError SeenDefaults := do
  ensure (¬ (entry.extractor = "" ∨ entry.extractorVersion = ""))
    ("profile " ++ profileId ++
      " declares evidence property defaults without an extractor and extractor version")
  ensure (entry.properties.isEmpty = false)
    ("profile " ++ profileId ++ " declares empty evidence property defaults for " ++
      entry.extractor ++ " " ++ entry.extractorVersion)
  ensure ((entry.extractor, entry.extractorVersion) ∉ seen)
    ("profile " ++ profileId ++ " declares evidence property defaults for " ++ entry.extractor ++
      " " ++ entry.extractorVersion ++ " more than once")
  return (entry.extractor, entry.extractorVersion) :: seen

/-- The checks of `parse_defaults`. -/
def validateDefaults (profileId : String) (defaults : List EvidencePropertyDefaults) :
    Except ProtocolError Unit := do
  let _ ← defaults.foldlM (validateDefaultsEntry profileId) []
  return ()

section Decoder

variable (F : FloatText) (malformed : Value → String)

/-- `parse_defaults`; `malformed` is the library's description of a value it cannot read. -/
def parseDefaults (profileId : String) (value : Option Value) :
    Except ProtocolError (List EvidencePropertyDefaults) :=
  match value with
  | none => .ok []
  | some value => do
    let defaults ← required (defaultsOfValue value) (.invariant
      ("profile " ++ profileId ++ " has malformed " ++ evidencePropertyDefaultsProperty ++ ": " ++
        malformed value))
    validateDefaults profileId defaults
    return defaults

/-! ### The decoder -/

structure CompactEvidenceDecoder where
  profiles : ExtTreeMap String (Option (List EvidencePropertyDefaults))
  expansionLimit : Option Nat
  expandedBytes : Nat

def CompactEvidenceDecoder.new : CompactEvidenceDecoder := ⟨∅, none, 0⟩

def CompactEvidenceDecoder.account (decoder : CompactEvidenceDecoder) (added : Nat) :
    Except ProtocolError CompactEvidenceDecoder := do
  let expandedBytes := min (decoder.expandedBytes + added) (2 ^ 64 - 1)
  check (¬ decoder.expansionLimit.any (· < expandedBytes))
    (.expansionLimit (decoder.expansionLimit.getD 0))
  return { decoder with expandedBytes }

def CompactEvidenceDecoder.defaults (decoder : CompactEvidenceDecoder) (profileId : String) :
    Option (List EvidencePropertyDefaults) :=
  decoder.profiles[profileId]?.join

/-- The derived `PartialEq`. -/
def EvidencePropertyDefaults.beq (a b : EvidencePropertyDefaults) : Bool :=
  a.extractor == b.extractor && a.extractorVersion == b.extractorVersion &&
    a.properties.beq b.properties

/-- The derived `PartialEq` of what is known of a profile. -/
def sameEncoding : Option (List EvidencePropertyDefaults) →
    Option (List EvidencePropertyDefaults) → Bool
  | none, none => true
  | some a, some b => a.length == b.length && (a.zip b).all fun pair => pair.1.beq pair.2
  | _, _ => false

/-- The encoding that a profile declares. -/
def declaredEncoding (profile : Profile) :
    Except ProtocolError (Option (List EvidencePropertyDefaults)) :=
  let defaults := profile.properties[evidencePropertyDefaultsProperty]?
  match profile.properties[evidenceEncodingProperty]? with
  | none =>
    if defaults.isNone then .ok none
    else invariant ("profile " ++ profile.id ++ " declares " ++ evidencePropertyDefaultsProperty ++
      " without " ++ evidenceEncodingProperty ++ "=" ++ compactEvidenceEncodingV1)
  | some encoding =>
    if stringOf encoding = some compactEvidenceEncodingV1 then
      some <$> parseDefaults malformed profile.id defaults
    else invariant ("profile " ++ profile.id ++ " declares unsupported " ++
      evidenceEncodingProperty ++ " " ++ String.ofList (encoding.text F))

/-- `decode` of a declared profile. -/
def CompactEvidenceDecoder.decodeProfile (decoder : CompactEvidenceDecoder) (profile : Profile) :
    Except ProtocolError (CompactEvidenceDecoder × Profile) := do
  let decoded ← declaredEncoding F malformed profile
  ensure (decoder.profiles[profile.id]?.all fun previous => sameEncoding previous decoded)
    ("profile " ++ profile.id ++ " changed its evidence encoding")
  return ({ decoder with profiles := decoder.profiles.insert profile.id decoded },
    { profile with properties :=
        (profile.properties.erase evidenceEncodingProperty).erase evidencePropertyDefaultsProperty })

/-- Applies the defaults of a profile, if it has any, and accounts for what they add. -/
def CompactEvidenceDecoder.decodeEvidence (decoder : CompactEvidenceDecoder)
    (profileId : Option String) (evidence : List Evidence) :
    Except ProtocolError (CompactEvidenceDecoder × List Evidence) :=
  match profileId.bind decoder.defaults with
  | none => .ok (decoder, evidence)
  | some defaults => do
    let (evidence, added) := applyEvidencePropertyDefaults F defaults evidence
    let decoder ← decoder.account added
    return (decoder, evidence)

/-- `decode` of an edge. -/
def CompactEvidenceDecoder.decodeEdge (decoder : CompactEvidenceDecoder) (edge : GraphEdge)
    (site : String → Option DependencySite) :
    Except ProtocolError (CompactEvidenceDecoder × GraphEdge) :=
  if (decoder.defaults edge.profileId).isNone then .ok (decoder, edge)
  else if edge.evidence.isEmpty = false then do
    let (decoder, evidence) ← decoder.decodeEvidence F (some edge.profileId) edge.evidence
    return (decoder, { edge with evidence })
  else do
    let siteId ← required edge.siteId (.invariant
      ("edge " ++ edge.id ++ " omits its evidence but has no dependency site"))
    let site ← required (site siteId) (.invariant
      ("edge " ++ edge.id ++ " omits its evidence but its dependency site " ++ siteId ++
        " was not declared before it"))
    ensure (site.profileId = edge.profileId)
      ("edge " ++ edge.id ++ " omits its evidence but its dependency site " ++ siteId ++
        " belongs to profile " ++ site.profileId)
    let decoder ← decoder.account (jsonLen F (.array (site.evidence.map Evidence.toValue)))
    return (decoder, { edge with evidence := site.evidence })

/-- `decode`; `site` returns a dependency site that was decoded before. -/
def CompactEvidenceDecoder.decode (decoder : CompactEvidenceDecoder) (event : ProtocolEvent)
    (site : String → Option DependencySite) :
    Except ProtocolError (CompactEvidenceDecoder × ProtocolEvent) :=
  match event.payload with
  | .profileDeclared profile => do
    let (decoder, profile) ← decoder.decodeProfile F malformed profile
    return (decoder, ⟨event.common, .profileDeclared profile⟩)
  | .dependencySite site => do
    let (decoder, evidence) ← decoder.decodeEvidence F (some site.profileId) site.evidence
    return (decoder, ⟨event.common, .dependencySite { site with evidence }⟩)
  | .edgeUpsert edge => do
    let (decoder, edge) ← decoder.decodeEdge F edge site
    return (decoder, ⟨event.common, .edgeUpsert edge⟩)
  | .diagnostic diagnostic => do
    let (decoder, evidence) ← decoder.decodeEvidence F diagnostic.profileId diagnostic.evidence
    return (decoder, ⟨event.common, .diagnostic { diagnostic with evidence }⟩)
  | _ => .ok (decoder, event)

/-- The first of the events that declares a dependency site with this identity. -/
def siteAmong (events : List ProtocolEvent) (siteId : String) : Option DependencySite :=
  events.findSome? fun event =>
    match event.payload with
    | .dependencySite site => if site.id = siteId then some site else none
    | _ => none

/-- Decodes a stream event by event; sites are looked up among the events decoded before. -/
def CompactEvidenceDecoder.decodeStream :
    CompactEvidenceDecoder → List ProtocolEvent → List ProtocolEvent →
      Except ProtocolError (List ProtocolEvent)
  | _, decoded, [] => .ok decoded
  | decoder, decoded, event :: events => do
    let (decoder, event) ← decoder.decode F malformed event (siteAmong decoded)
    decodeStream decoder (decoded ++ [event]) events

end Decoder

end Protocol
