import Depgraph.Library.Grouping
import Depgraph.Store.Diff

/-!
# Renamed nodes

A removed node and an added node that agree in one of five keys are a candidate for a rename. A pair
neither side of which has another partner is a rename if one of its keys is strong enough.

The maps of the source are maps here; an index into a side is a `Fin`, so that no lookup by an index
can fail. The two panics of the loop are errors, and `Store.RenameMirror` shows that none occurs.
-/

namespace Store

open Json Protocol Fallible SortDedup OrderedMap Std

inductive RenameConfidence where
  | ambiguous
  | medium
  | high
  | exact
deriving DecidableEq

structure NodeRenameEvidence where
  nodeId : String
  packageOwner : Option String
  contentHash : Option String
  sourceContentHash : Option String
  semanticFingerprint : Option String
  canonicalIdentity : Option Proper
  sourcePath : Option String
  sourceSpan : Option Proper
  records : List EvidenceRecord

structure NodeRename where
  kind : String
  oldId : String
  newId : String
  confidence : RenameConfidence
  reasons : List String
  changedFields : List String
  before : NodeRecord
  after : NodeRecord
  oldEvidence : NodeRenameEvidence
  newEvidence : NodeRenameEvidence

def maxRenameCandidatePairsPerKey : Nat := 4096

/-! ### Properties -/

def stripPrefix (start value : String) : Option String :=
  if start.toList.isPrefixOf value.toList then
    some (String.ofList (value.toList.drop start.toList.length))
  else none

/-- `string_property`: the first of the fields that holds a text which is not empty. -/
def stringProperty (value : Proper) (fields : List String) : Option String :=
  fields.findSome? fun field =>
    ((value.get field).bind Proper.asStr).filter fun text => !text.isEmpty

def isSha256Fingerprint (value : String) : Bool := (stripPrefix "sha256:" value).any isSha256Hex

def fingerprintProperty (value : Proper) (fields : List String) : Option String :=
  (stringProperty value fields).filter isSha256Fingerprint

def packageOwner (node : NodeRecord) : Option String :=
  (["package_locator", "package_id", "package_path", "package"].findSome? fun field =>
    (stringProperty node.properties [field]).map fun value => field ++ ":" ++ value).or
  (((node.properties.get "canonical_identity").bind fun identity =>
    stringProperty identity ["package_locator"]).map fun value => "package_locator:" ++ value)

/-- `semantic_identity_shape`. The order of the members does not matter in canonical JSON. -/
def semanticIdentityShape (identity : Proper) : Option Value :=
  match identity.value with
  | .object members => some (.object (members.filter fun member =>
      !(["resolver_identity", "relative_path", "route_pattern", "span"].contains member.1)))
  | _ => none

def isSemanticRenameKind (node : NodeRecord) : Bool :=
  node.kind == "symbol" || node.kind == "type" || node.kind == "route"

def isLocalOrAnonymous (node : NodeRecord) : Bool :=
  node.kind == "symbol" &&
    (((node.properties.get "canonical_identity").bind fun identity =>
      identity.get "identity_kind").bind Proper.asStr).any fun kind =>
        kind == "local" || kind == "anonymous"

/-! ### Evidence -/

/-- Notes the target of an edge that declares or contains it. -/
def noteOwner (targets : ExtTreeMap (String ×ₗ String) String) (edge : EdgeRecord) :
    ExtTreeMap (String ×ₗ String) String :=
  if edge.kind == "declares" || edge.kind == "contains" then
    targets.insert (toLex ("edge", edge.id)) edge.target
  else targets

/-- `node_source_evidence`: the evidence of the edges that declare or contain a node. -/
def nodeSourceEvidence (snapshot : GraphSnapshot) : ExtTreeMap String (List EvidenceRecord) :=
  let ownerTargets := snapshot.edges.foldl noteOwner ∅
  (groupBy (fun record : EvidenceRecord => ownerTargets[toLex (record.ownerType, record.ownerId)]?)
    snapshot.evidence).map fun _ records => sortByKey evidenceIdentity records

/-- The path and the hash of a file. -/
def fileHash (node : NodeRecord) : Option (String × String) := do
  let path ← (stringProperty node.properties ["source_path", "path"]).or
    ((stripPrefix "file://" node.locator).or (stripPrefix "file:" node.locator))
  let hash ← fingerprintProperty node.properties ["content_hash", "content_digest"]
  return (path, hash)

/-- A path with two hashes has none. -/
def mergeHash (hash : String) : Option (Option String) → Option (Option String)
  | none => some (some hash)
  | some existing => some (if existing = some hash then existing else none)

/-- Notes the hash of a path. -/
def noteHash (byPath : ExtTreeMap String (Option String)) (entry : String × String) :
    ExtTreeMap String (Option String) :=
  byPath.alter entry.1 (mergeHash entry.2)

def sourceFileContentHashes (snapshot : GraphSnapshot) : ExtTreeMap String String :=
  (((snapshot.nodes.filter fun node => node.kind == "file").filterMap fileHash).foldl noteHash
    ∅).filterMap fun _ hash => hash

/-- The span of a record of evidence. -/
def EvidenceRecord.span (record : EvidenceRecord) : List (String × Proper) :=
  [("start_line", .int record.startLine), ("start_column", .int record.startColumn),
    ("end_line", .int record.endLine), ("end_column", .int record.endColumn)]

theorem EvidenceRecord.span_nodup (record : EvidenceRecord) :
    (record.span.map Prod.fst).Nodup := by
  simp [span]

def renameEvidence (node : NodeRecord) (records : Option (List EvidenceRecord))
    (sourceHashes : ExtTreeMap String String) : NodeRenameEvidence :=
  let records := records.getD []
  let canonicalIdentity := node.properties.get "canonical_identity"
  let sourcePath := (stringProperty node.properties ["source_path", "path"]).or
    ((canonicalIdentity.bind fun identity => stringProperty identity ["relative_path"]).or
      (records.head?.map EvidenceRecord.path))
  let sourceSpan := (node.properties.get "source_span").or
    ((canonicalIdentity.bind fun identity => identity.get "span").or
      (records.head?.map fun record => Proper.object record.span record.span_nodup))
  { nodeId := node.id
    packageOwner := packageOwner node
    contentHash := fingerprintProperty node.properties ["content_hash", "content_digest"]
    sourceContentHash := sourcePath.bind fun path => sourceHashes[path]?
    semanticFingerprint :=
      fingerprintProperty node.properties ["semantic_hash", "declaration_hash"]
    canonicalIdentity
    sourcePath
    sourceSpan
    records }

/-! ### Keys -/

section Keys

variable (F : FloatText) (node : NodeRecord) (evidence : NodeRenameEvidence)

/-- The canonical text of an object that begins with the kind of the node. -/
def keyText (members : List (String × Value)) : String :=
  canonicalJson F (.object (("kind", .string node.kind) :: members))

def fileContentKey : Option String := do
  guard (node.kind = "file")
  let owner ← evidence.packageOwner
  let hash ← evidence.contentHash
  return keyText F node [("package_owner", .string owner), ("content_hash", .string hash)]

def semanticFingerprintKey : Option String := do
  guard (isSemanticRenameKind node = true)
  let owner ← evidence.packageOwner
  let fingerprint ← evidence.semanticFingerprint
  let shape ← evidence.canonicalIdentity.bind semanticIdentityShape
  return keyText F node [("package_owner", .string owner),
    ("semantic_fingerprint", .string fingerprint), ("identity_shape", shape)]

def semanticSourceContentKey : Option String := do
  guard (isSemanticRenameKind node = true)
  let displayName := if node.kind ≠ "route" then Value.string node.displayName else .null
  let owner ← evidence.packageOwner
  let hash ← evidence.sourceContentHash
  let shape ← evidence.canonicalIdentity.bind semanticIdentityShape
  return keyText F node [("display_name", displayName), ("package_owner", .string owner),
    ("source_content_hash", .string hash), ("identity_shape", shape)]

def semanticSourceAnchorKey : Option String := do
  guard (isSemanticRenameKind node = true ∧ isLocalOrAnonymous node = false)
  let span ← evidence.sourceSpan
  let owner ← evidence.packageOwner
  let shape ← evidence.canonicalIdentity.bind semanticIdentityShape
  let path ← evidence.sourcePath
  let startLine ← span.get "start_line"
  let startColumn ← span.get "start_column"
  return keyText F node [("package_owner", .string owner), ("identity_shape", shape),
    ("source_path", .string path), ("start_line", startLine.value),
    ("start_column", startColumn.value)]

def localOrAnonymousSpanKey : Option String := do
  guard (isLocalOrAnonymous node = true)
  let owner ← evidence.packageOwner
  let shape ← evidence.canonicalIdentity.bind semanticIdentityShape
  let path ← evidence.sourcePath
  return keyText F node [("display_name", .string node.displayName),
    ("package_owner", .string owner), ("identity_shape", shape), ("source_path", .string path)]

end Keys

/-! ### Signals -/

inductive MatchStrength where
  | medium
  | high
  | exact
deriving DecidableEq

/-- The order of the strengths. -/
def MatchStrength.rank : MatchStrength → Nat
  | .medium => 0
  | .high => 1
  | .exact => 2

def MatchStrength.max (a b : MatchStrength) : MatchStrength := if a.rank ≤ b.rank then b else a

structure MatchSignals where
  strength : Option MatchStrength
  reasons : ExtTreeSet String

def MatchSignals.default : MatchSignals := ⟨none, ∅⟩

def MatchSignals.add (signals : MatchSignals) (strength : MatchStrength) (reason : String) :
    MatchSignals :=
  ⟨some (signals.strength.elim strength fun current => current.max strength),
    signals.reasons.insert reason⟩

/-- The nodes of a side, each with its evidence. -/
abbrev RenameSide : Type := List (NodeRecord × NodeRenameEvidence)

structure RenameSides where
  removed : RenameSide
  added : RenameSide

/-- The indices of a removed and an added node. -/
abbrev IndexPair (sides : RenameSides) : Type :=
  Fin sides.removed.length ×ₗ Fin sides.added.length

/-- The arguments of a call of `add_match_signal`. -/
structure Matcher where
  key : NodeRecord → NodeRenameEvidence → Option String
  strength : MatchStrength
  reason : String

/-- The five calls, in their order. -/
def matchers (F : FloatText) : List Matcher :=
  [⟨fileContentKey F, .exact, "same_file_content_hash_and_package"⟩,
    ⟨semanticFingerprintKey F, .exact, "same_semantic_fingerprint_identity_shape_and_package"⟩,
    ⟨semanticSourceContentKey F, .exact,
      "same_source_content_semantic_identity_shape_name_and_package"⟩,
    ⟨semanticSourceAnchorKey F, .high, "same_source_anchor_semantic_identity_shape_and_package"⟩,
    ⟨localOrAnonymousSpanKey F, .medium, "same_local_or_anonymous_origin_source_and_package"⟩]

/-- The key of a node of a side. -/
def RenameSide.keyAt (side : RenameSide) (key : NodeRecord → NodeRenameEvidence → Option String)
    (i : Fin side.length) : Option String :=
  key (side.get i).1 (side.get i).2

/-- The indices of a side by their keys. -/
def RenameSide.byKey (side : RenameSide)
    (key : NodeRecord → NodeRenameEvidence → Option String) :
    ExtTreeMap String (List (Fin side.length)) :=
  groupBy (side.keyAt key) (List.finRange side.length)

/-- The pairs that a call of `add_match_signal` goes through. A key with too many pairs has none. -/
def matchedPairs (sides : RenameSides) (m : Matcher) : List (IndexPair sides) :=
  (sides.removed.byKey m.key).toList.flatMap fun (key, removedIndices) =>
    match (sides.added.byKey m.key)[key]? with
    | none => []
    | some addedIndices =>
      if maxRenameCandidatePairsPerKey < removedIndices.length * addedIndices.length then []
      else removedIndices.flatMap fun i => addedIndices.map fun j => toLex (i, j)

/-- Adds a signal to a pair. -/
def addSignal {sides : RenameSides} (m : Matcher)
    (signals : ExtTreeMap (IndexPair sides) MatchSignals) (pair : IndexPair sides) :
    ExtTreeMap (IndexPair sides) MatchSignals :=
  signals.alter pair fun entry => some ((entry.getD .default).add m.strength m.reason)

def addMatchSignal (sides : RenameSides) (signals : ExtTreeMap (IndexPair sides) MatchSignals)
    (m : Matcher) : ExtTreeMap (IndexPair sides) MatchSignals :=
  (matchedPairs sides m).foldl (addSignal m) signals

/-- The signals of all calls. -/
def renameSignals (F : FloatText) (sides : RenameSides) :
    ExtTreeMap (IndexPair sides) MatchSignals :=
  (matchers F).foldl (addMatchSignal sides) ∅

/-- The pairs with signals. -/
def pairsOf (F : FloatText) (sides : RenameSides) : List (IndexPair sides) :=
  (renameSignals F sides).keys

/-- The pairs with their signals. -/
def signalEntries (F : FloatText) (sides : RenameSides) : List (IndexPair sides × MatchSignals) :=
  (renameSignals F sides).toList

/-! ### Renames -/

/-- The reason why a pair that has several partners is ambiguous. -/
def ambiguity (removedDegree addedDegree : Nat) : Except String (Option String) :=
  if removedDegree = 1 ∧ addedDegree = 1 then .ok none
  else
    match decide (1 < removedDegree), decide (1 < addedDegree) with
    | true, true => .ok (some "ambiguous_many_to_many")
    | true, false => .ok (some "ambiguous_one_to_many")
    | false, true => .ok (some "ambiguous_many_to_one")
    | false, false => .error "non-unique match must have a branching side"

/-- The confidence of a pair without other partners. -/
def MatchStrength.confidence : MatchStrength → RenameConfidence
  | .medium => .medium
  | .high => .high
  | .exact => .exact

/-- The number of pairs with this removed node. -/
def removedDegree {sides : RenameSides} (pairs : List (IndexPair sides))
    (i : Fin sides.removed.length) : Nat :=
  pairs.countP fun pair => (ofLex pair).1 = i

/-- The number of pairs with this added node. -/
def addedDegree {sides : RenameSides} (pairs : List (IndexPair sides))
    (j : Fin sides.added.length) : Nat :=
  pairs.countP fun pair => (ofLex pair).2 = j

/-- The reason that a local or anonymous declaration has moved. -/
def spanReasons (before after : NodeRecord × NodeRenameEvidence) : List String :=
  if before.2.sourceSpan != after.2.sourceSpan && isLocalOrAnonymous before.1 &&
    isLocalOrAnonymous after.1 then ["local_or_anonymous_source_span_changed"] else []

/-- `BTreeSet::insert`, for several reasons. -/
def insertReasons (reasons : ExtTreeSet String) (more : List String) : ExtTreeSet String :=
  more.foldl (fun reasons reason => reasons.insert reason) reasons

/-- No other pair has a node of this pair. -/
def isUnique {sides : RenameSides} (pairs : List (IndexPair sides)) (pair : IndexPair sides) :
    Bool :=
  removedDegree pairs (ofLex pair).1 = 1 ∧ addedDegree pairs (ofLex pair).2 = 1

/-- The record of a pair, and whether it is promoted to a rename. -/
def renameRecord {sides : RenameSides} (pairs : List (IndexPair sides)) (pair : IndexPair sides)
    (reasons : ExtTreeSet String) (strength : MatchStrength) (ambiguous : Option String) :
    Bool × NodeRename :=
  let before := sides.removed.get (ofLex pair).1
  let after := sides.added.get (ofLex pair).2
  (isUnique pairs pair && MatchStrength.high.rank ≤ strength.rank,
    { kind := before.1.kind
      oldId := before.1.id
      newId := after.1.id
      confidence := if isUnique pairs pair then strength.confidence else .ambiguous
      reasons :=
        (insertReasons reasons (spanReasons before after ++ ambiguous.toList)).toList
      changedFields := changedFields before.1 after.1
      before := before.1
      after := after.1
      oldEvidence := before.2
      newEvidence := after.2 })

/-- A turn of the loop over the signals. -/
def renameOf {sides : RenameSides} (pairs : List (IndexPair sides))
    (entry : IndexPair sides × MatchSignals) : Except String (Bool × NodeRename) := do
  let strength ← required entry.2.strength "a rename match always contains a signal"
  let ambiguous ← ambiguity (removedDegree pairs (ofLex entry.1).1)
    (addedDegree pairs (ofLex entry.1).2)
  return renameRecord pairs entry.1 entry.2.reasons strength ambiguous

/-- The loop over the signals. -/
def renameRecords (F : FloatText) (sides : RenameSides) :
    Except String (List (Bool × NodeRename)) :=
  (signalEntries F sides).mapM (renameOf (pairsOf F sides))

/-- The renames and the candidates that `detect_node_renames` finds. -/
structure DetectedRenames where
  nodes : RecordDiff NodeRecord
  renames : List NodeRename
  candidates : List NodeRename

/-- The nodes without a counterpart, with their evidence. -/
def renameSides (nodes : RecordDiff NodeRecord)
    (fromRecords toRecords : ExtTreeMap String (List EvidenceRecord))
    (fromSourceHashes toSourceHashes : ExtTreeMap String String) : RenameSides where
  removed := nodes.removed.map fun node =>
    (node, renameEvidence node fromRecords[node.id]? fromSourceHashes)
  added := nodes.added.map fun node =>
    (node, renameEvidence node toRecords[node.id]? toSourceHashes)

def detectNodeRenames (F : FloatText) (nodes : RecordDiff NodeRecord)
    (fromRecords toRecords : ExtTreeMap String (List EvidenceRecord))
    (fromSourceHashes toSourceHashes : ExtTreeMap String String) :
    Except String DetectedRenames := do
  let records ← renameRecords F
    (renameSides nodes fromRecords toRecords fromSourceHashes toSourceHashes)
  let renames := (records.filter Prod.fst).map Prod.snd
  let candidates := (records.filter fun record => !record.1).map Prod.snd
  return ⟨{ nodes with
      removed := nodes.removed.filter fun node => !(renames.map NodeRename.oldId).contains node.id
      added := nodes.added.filter fun node => !(renames.map NodeRename.newId).contains node.id },
    renames, candidates⟩

end Store
