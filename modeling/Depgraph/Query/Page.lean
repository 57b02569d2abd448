import Depgraph.Protocol.CanonicalSize
import Depgraph.Protocol.Completeness
import Depgraph.Query.Why

/-!
# Pages of an interactive query

`paginate_interactive_query`: the page that starts at a cursor holds as many of the remaining items
as the budgets of items and bytes admit, and a cursor to the items after them. The bytes that are
compared with the budget are those of the page's own canonical text, in which their number occurs.

The items are any records that serialize to JSON.
-/

namespace Query

open Json Protocol SortDedup
open Store hiding GraphSnapshot

/-! ### Pages -/

deriving instance DecidableEq for QueryPageDiagnostic

structure QueryCountGroup where
  key : String
  count : Nat

structure QueryCountSummary where
  groups : List QueryCountGroup
  omittedGroups : Nat
  omittedItems : Nat

structure InteractiveQuerySummary where
  totalItems : Nat
  byStatus : QueryCountSummary
  byPhase : QueryCountSummary
  byProfile : QueryCountSummary
  byKind : QueryCountSummary
  byReason : QueryCountSummary

structure InteractiveQueryPage (T : Type) where
  schemaVersion : String
  contractVersion : String
  command : String
  scanId : String
  snapshotId : String
  complete : Bool
  returnedItems : Nat
  totalItems : Nat
  traversedItems : Nat
  serializedOutputBytes : Nat
  root : Option NodeRecord
  summary : InteractiveQuerySummary
  diagnostics : List QueryPageDiagnostic
  nextCursor : Option String
  items : List T

structure InteractiveQueryPageRequest where
  command : String
  scanId : String
  snapshotId : String
  context : Value
  cursor : Option String
  maxItems : Nat
  maxBytes : Nat
  traversalComplete : Bool
  traversedItems : Nat
  root : Option NodeRecord
  diagnostics : List QueryPageDiagnostic

/-! ### Serialization -/

def QueryPageDiagnostic.toValue (diagnostic : QueryPageDiagnostic) : Value :=
  .object [("code", .string diagnostic.code), ("message", .string diagnostic.message),
    ("remediation", .string diagnostic.remediation)]

def QueryCountGroup.toValue (group : QueryCountGroup) : Value :=
  .object [("key", .string group.key), ("count", natValue group.count)]

def QueryCountSummary.toValue (summary : QueryCountSummary) : Value :=
  .object [("groups", .array (summary.groups.map QueryCountGroup.toValue)),
    ("omitted_groups", natValue summary.omittedGroups),
    ("omitted_items", natValue summary.omittedItems)]

def InteractiveQuerySummary.toValue (summary : InteractiveQuerySummary) : Value :=
  .object [("total_items", natValue summary.totalItems), ("by_status", summary.byStatus.toValue),
    ("by_phase", summary.byPhase.toValue), ("by_profile", summary.byProfile.toValue),
    ("by_kind", summary.byKind.toValue), ("by_reason", summary.byReason.toValue)]

def nodeRecordValue (node : NodeRecord) : Value :=
  .object [("id", .string node.id), ("kind", .string node.kind), ("locator", .string node.locator),
    ("display_name", .string node.displayName), ("properties", node.properties.value)]

section Pages

variable {T : Type} (itemValue : T → Value)

/-- The members of a page. -/
def InteractiveQueryPage.members (page : InteractiveQueryPage T) : List (String × Value) :=
  [("schema_version", .string page.schemaVersion),
    ("contract_version", .string page.contractVersion), ("command", .string page.command),
    ("scan_id", .string page.scanId), ("snapshot_id", .string page.snapshotId),
    ("complete", .bool page.complete), ("returned_items", natValue page.returnedItems),
    ("total_items", natValue page.totalItems), ("traversed_items", natValue page.traversedItems),
    ("serialized_output_bytes", natValue page.serializedOutputBytes)] ++
  optionalMember "root" (page.root.map nodeRecordValue) ++
  [("summary", page.summary.toValue),
    ("diagnostics", .array (page.diagnostics.map QueryPageDiagnostic.toValue))] ++
  optionalMember "next_cursor" (page.nextCursor.map .string) ++
  [("items", .array (page.items.map itemValue))]

def InteractiveQueryPage.toValue (page : InteractiveQueryPage T) : Value :=
  .object (page.members itemValue)

/-! ### Bounds -/

def interactiveQueryPageContractVersion : String := "depgraph-interactive-query-page-v1"

def maxInteractiveQueryItems : Nat := 10000

def minInteractiveQueryBytes : Nat := 4 * 1024

def maxInteractiveQueryBytes : Nat := 16 * 1024 * 1024

def interactiveQueryCursorPrefix : String := "depgraph-query-cursor-v1"

def validateInteractiveQueryBounds (maxItems maxBytes : Nat) (maxTraversal : Option Nat) :
    Except String Unit :=
  if ¬(1 ≤ maxItems ∧ maxItems ≤ maxInteractiveQueryItems) then
    .error ("interactive query max-items must be in 1..=" ++ toString maxInteractiveQueryItems)
  else if ¬(minInteractiveQueryBytes ≤ maxBytes ∧ maxBytes ≤ maxInteractiveQueryBytes) then
    .error ("interactive query max-bytes must be in " ++ toString minInteractiveQueryBytes ++
      "..=" ++ toString maxInteractiveQueryBytes)
  else if maxTraversal.any fun maximum =>
      !decide (1 ≤ maximum ∧ maximum ≤ maxInteractiveQueryTraversal) then
    .error ("interactive query max-traversal must be in 1..=" ++
      toString maxInteractiveQueryTraversal)
  else .ok ()

/-! ### Cursors -/

section Cursors

variable (S : StableIds)

/-- The digest of what a cursor may be used with. -/
def interactiveQueryContext (request : InteractiveQueryPageRequest) : String :=
  S.stableIdFromValue "interactive-query-context" (.object [
    ("contract_version", .string interactiveQueryPageContractVersion),
    ("command", .string request.command), ("scan_id", .string request.scanId),
    ("snapshot_id", .string request.snapshotId), ("context", request.context)])

/-- The stable identity that signs a cursor. -/
def cursorIdentity (contextDigest : String) (offset : Nat) : String :=
  S.stableIdFromValue "interactive-query-cursor"
    (.object [("context_digest", .string contextDigest), ("offset", natValue offset)])

/-- The signature of a cursor. -/
def cursorSignature (contextDigest : String) (offset : Nat) : String :=
  (splitAt ':' (cursorIdentity S contextDigest offset)).getLast?.getD
    (cursorIdentity S contextDigest offset)

def encodeInteractiveQueryCursor (contextDigest : String) (offset : Nat) : String :=
  interactiveQueryCursorPrefix ++ "." ++ toString offset ++ "." ++
    cursorSignature S contextDigest offset

def decodeInteractiveQueryCursor (cursor contextDigest : String) : Except String Nat :=
  let parts := splitAt '.' cursor
  if parts[0]? ≠ some interactiveQueryCursorPrefix ∨ parts[3]?.isSome ∨
      (parts[2]?.all fun value => !isSha256Hex value) then
    .error "interactive query cursor is malformed"
  else
    match parts[1]? with
    | none => .error "interactive query cursor is malformed"
    | some rawOffset =>
      match parseUsize rawOffset with
      | none => .error "interactive query cursor has an invalid offset"
      | some offset =>
        if toString offset ≠ rawOffset then
          .error "interactive query cursor offset is not canonical"
        else if encodeInteractiveQueryCursor S contextDigest offset ≠ cursor then
          .error "interactive query cursor does not match this snapshot and query"
        else .ok offset

end Cursors

/-! ### Building a page -/

/-- The diagnostic of an item that is too long for a page of its own. -/
def itemExceedsByteBudget (maxBytes : Nat) : QueryPageDiagnostic where
  code := "QUERY_ITEM_EXCEEDS_BYTE_BUDGET"
  message := "the next canonical item does not fit within the " ++ toString maxBytes ++
    "-byte output budget"
  remediation := "rerun the same cursor with a larger --max-bytes value"

/-- The diagnostic of a page with items after it. -/
def outputTruncated (count offset : Nat) : QueryPageDiagnostic where
  code := "QUERY_OUTPUT_TRUNCATED"
  message := "returned " ++ toString count ++ " canonical items from offset " ++ toString offset ++
    " before the configured output limit"
  remediation := "resume with next_cursor, or use --all for an explicit full result"

/-- What diagnostics are sorted by. -/
def QueryPageDiagnostic.sortKey (diagnostic : QueryPageDiagnostic) : String ×ₗ String :=
  toLex (diagnostic.code, diagnostic.message)

/-- `diagnostics.sort_by(..)` and `diagnostics.dedup()`. -/
def canonicalDiagnostics (diagnostics : List QueryPageDiagnostic) : List QueryPageDiagnostic :=
  sortDedup QueryPageDiagnostic.sortKey (fun a b => decide (a = b)) diagnostics

def buildInteractiveQueryPage (S : StableIds) (items : List T) (summary : InteractiveQuerySummary)
    (request : InteractiveQueryPageRequest) (contextDigest : String) (offset count : Nat)
    (remainingItemExceedsBudget : Bool) : InteractiveQueryPage T :=
  let pageEnd := offset + count
  let truncated := decide (pageEnd < items.length)
  { schemaVersion := "1.0"
    contractVersion := interactiveQueryPageContractVersion
    command := request.command
    scanId := request.scanId
    snapshotId := request.snapshotId
    complete := request.traversalComplete && !truncated
    returnedItems := count
    totalItems := summary.totalItems
    traversedItems := request.traversedItems
    serializedOutputBytes := 0
    root := request.root
    summary
    diagnostics := canonicalDiagnostics (request.diagnostics ++
      if remainingItemExceedsBudget then [itemExceedsByteBudget request.maxBytes]
      else if truncated then [outputTruncated count offset]
      else [])
    nextCursor :=
      if truncated && !remainingItemExceedsBudget then
        some (encodeInteractiveQueryCursor S contextDigest pageEnd)
      else none
    items := (items.drop offset).take count }

def serializedPageLen (F : FloatText) (page : InteractiveQueryPage T) : Nat :=
  (canonicalJson F (page.toValue itemValue)).utf8ByteSize

/-- The loop that writes the length of a page into the page, with the rounds it has left. -/
def stabilizeFor (F : FloatText) : Nat → InteractiveQueryPage T →
    Except String (InteractiveQueryPage T)
  | 0, _ => .error "interactive query output byte accounting did not converge"
  | rounds + 1, page =>
    if page.serializedOutputBytes = serializedPageLen itemValue F page then .ok page
    else stabilizeFor F rounds
      { page with serializedOutputBytes := serializedPageLen itemValue F page }

def stabilizeSerializedOutputBytes (F : FloatText) (page : InteractiveQueryPage T) :
    Except String (InteractiveQueryPage T) :=
  stabilizeFor itemValue F 8 page

/-! ### Pagination -/

/-- The loop that looks for the largest count whose page fits. -/
def searchCount (fits : Nat → Except String Bool) (low high : Nat) : Except String Nat :=
  if low < high then do
    let count := low + (high - low + 1) / 2
    if ← fits count then searchCount fits count high else searchCount fits low (count - 1)
  else return low
termination_by high - low

section Paginate

variable (S : StableIds) (items : List T) (summary : InteractiveQuerySummary)
  (request : InteractiveQueryPageRequest)

/-- The offset at which a request starts. -/
def startOffset : Except String Nat :=
  match request.cursor with
  | some cursor => decodeInteractiveQueryCursor S cursor (interactiveQueryContext S request)
  | none => .ok 0

/-- A page of a number of items, with the number of its bytes in it. -/
def stablePage (offset count : Nat) (exceeds : Bool) : Except String (InteractiveQueryPage T) :=
  stabilizeSerializedOutputBytes itemValue S.floatText
    (buildInteractiveQueryPage S items summary request (interactiveQueryContext S request) offset
      count exceeds)

/-- The count of items on a page: as many as the budget of items admits if their page fits, and what
the search finds otherwise. -/
def chosenCount (offset : Nat) : Except String Nat := do
  let maximumCount := min request.maxItems (items.length - offset)
  let maximumPage ← stablePage itemValue S items summary request offset maximumCount false
  if maximumPage.serializedOutputBytes ≤ request.maxBytes then pure maximumCount
  else searchCount (fun count => do
    let page ← stablePage itemValue S items summary request offset count false
    return decide (page.serializedOutputBytes ≤ request.maxBytes)) 0 (maximumCount - 1)

/-- The error of a budget that the summary alone exceeds. -/
def maxBytesTooSmall : String :=
  "interactive query max-bytes is too small for the bounded summary metadata; " ++
    "increase --max-bytes"

def paginateInteractiveQuery : Except String (InteractiveQueryPage T) := do
  validateInteractiveQueryBounds request.maxItems request.maxBytes none
  let offset ← startOffset S request
  if items.length < offset then
    throw "interactive query cursor is beyond the available canonical result"
  let low ← chosenCount itemValue S items summary request offset
  let page ← stablePage itemValue S items summary request offset low
    (decide (low = 0 ∧ offset < items.length))
  if request.maxBytes < page.serializedOutputBytes then throw maxBytesTooSmall
  return page

end Paginate

end Pages

end Query
