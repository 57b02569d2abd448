import Depgraph.Library.Fallible
import Depgraph.Protocol.StableId

/-!
# The values of the operation journal

The types of `depgraph-operation` and `depgraph-agent-contract` that the journal's operations read
and write, with their validating constructors.

* Times are milliseconds in an `i64`; the additions the code checks for overflow are `checkedAdd`.
* `Codec` collects what lies outside the repository: the JSON parser, the decimal text of doubles
  and SHA-256.
* A canonical text (`CanonicalInput`, `CanonicalJson`) does not carry the parsed value, which is a
  function of the text that no operation of the journal reads.
-/

namespace Operation

open Json Protocol Fallible

inductive JournalError where
  | invalidArgument
  | unsupportedSchemaVersion
  | integrityFailure
  | notFound
  | expired
  | repositoryMismatch
  | capabilityDenied
  | idempotencyConflict
  | operationNotReady
  | invalidTransition
  | leaseHeld
  | leaseMismatch
  | leaseExpired
  | deadlineExceeded
  | requestCancelled
  | storage
  | io
  | entropyUnavailable
deriving DecidableEq

/-! ### Constants -/

/-- `i64::MAX`. -/
def i64Max : Int := 9223372036854775807

/-- Minimum duration for which a terminal record remains retrievable. -/
def terminalRetentionMs : Int := 7 * 24 * 60 * 60 * 1000

/-- Duration for which a purged operation's identity and idempotency scope remain reserved. -/
def tombstoneRetentionMs : Int := 30 * 24 * 60 * 60 * 1000

def maxTaskTtlMs : Int := 365 * 24 * 60 * 60 * 1000

/-- The deadline of a scan without a deadline. -/
def unboundedScanDeadlineMs : Int := i64Max - 7 * 24 * 60 * 60 * 1000

def maxProgressUnits : Nat := 1000000000
def maxTerminalPayloadBytes : Nat := 16 * 1024 * 1024
def maxOperationInputBytes : Nat := maxTerminalPayloadBytes
def maxCapabilityJsonBytes : Nat := 256
def maxIdempotencyKeyBytes : Nat := 4 * 1024
def maxLeaseTokenBytes : Nat := 4 * 1024
def maxPurgeBatchSize : Nat := 256

def deadlineExceededErrorJson : String := "\x7b\"code\":\"operation_execution_deadline_exceeded\"\x7d"
def executionStateUnknownErrorJson : String := "\x7b\"code\":\"EXECUTION_STATE_UNKNOWN\"\x7d"

def checkedAdd (value delta : Int) : Except JournalError Int :=
  if value + delta ≤ i64Max then .ok (value + delta) else .error .invalidArgument

@[simp] theorem checkedAdd_eq_ok {value delta sum : Int} :
    checkedAdd value delta = .ok sum ↔ value + delta ≤ i64Max ∧ sum = value + delta := by
  unfold checkedAdd
  split_ifs with h <;> simp [h, eq_comm]

theorem checkedAdd_of_le {value delta : Int} (h : value + delta ≤ i64Max) :
    checkedAdd value delta = .ok (value + delta) :=
  if_pos h

def validateTimestamp (timestampMs : Int) : Except JournalError Unit :=
  check (0 ≤ timestampMs) .invalidArgument

/-! ### Identifiers -/

def isAsciiAlphanumeric (c : Char) : Bool :=
  ('0' ≤ c ∧ c ≤ '9') ∨ ('a' ≤ c ∧ c ≤ 'z') ∨ ('A' ≤ c ∧ c ≤ 'Z')

def isLowerHex (c : Char) : Bool := ('0' ≤ c ∧ c ≤ '9') ∨ ('a' ≤ c ∧ c ≤ 'f')

/-- The digits of an operation identifier behind `op_`. -/
def operationIdDigits (value : String) : Option (List Char) :=
  match value.toList with
  | 'o' :: 'p' :: '_' :: digits => some digits
  | _ => none

/-- `valid_operation_id`: 32 to 128 lowercase hexadecimal digits behind `op_`. -/
def validOperationId (value : String) : Bool :=
  match operationIdDigits value with
  | some digits => 32 ≤ digits.length && digits.length ≤ 128 && digits.all isLowerHex
  | none => false

@[ext]
structure OperationId where
  str : String
  valid : validOperationId str = true
deriving DecidableEq

/-- `OperationId::parse`, with the error the journal maps every failure to. -/
def OperationId.parse (value : String) : Except JournalError OperationId :=
  if h : validOperationId value = true then .ok ⟨value, h⟩ else .error .integrityFailure

/-- `validate_operation_id`: identifiers made by the journal have exactly 32 digits. -/
def validateOperationId (id : OperationId) : Except JournalError Unit :=
  match operationIdDigits id.str with
  | some digits => check (digits.length = 32 ∧ digits.all isLowerHex = true) .integrityFailure
  | none => .error .integrityFailure

def validLogicalRepositoryId (value : String) : Bool :=
  value.utf8ByteSize ≤ 128 && value.toList.head?.any isAsciiAlphanumeric &&
    value.toList.all fun c => isAsciiAlphanumeric c || c ∈ ['.', '_', ':', '+', '-']

@[ext]
structure LogicalRepositoryId where
  str : String
  valid : validLogicalRepositoryId str = true
deriving DecidableEq

def LogicalRepositoryId.parse (value : String) : Except JournalError LogicalRepositoryId :=
  if h : validLogicalRepositoryId value = true then .ok ⟨value, h⟩ else .error .integrityFailure

/-- The test of `LeaseOwner::parse`. -/
def validLeaseOwner (value : String) : Bool :=
  value ≠ "" && value.utf8ByteSize ≤ 128 &&
    value.toList.all fun c => isAsciiAlphanumeric c || c ∈ ['.', '_', ':', '@', '-']

structure LeaseOwner where
  str : String
  valid : validLeaseOwner str = true
deriving DecidableEq

def LeaseOwner.parse (value : String) : Except JournalError LeaseOwner :=
  if h : validLeaseOwner value = true then .ok ⟨value, h⟩ else .error .invalidArgument

/-! ### Kinds and states -/

inductive OperationKind where
  | scanSubmit
  | runtimeTraceImportSubmit
  | exportFile
  | daemonStartSubmit
  | daemonStop
  | resolveBuildSubmit
deriving DecidableEq

def OperationKind.requiresRunnerCleanup : OperationKind → Bool
  | .scanSubmit | .runtimeTraceImportSubmit | .exportFile => true
  | _ => false

inductive OperationStatus where
  | queued
  | running
  | cancelling
  | completed
  | failed
  | cancelled
deriving DecidableEq

namespace OperationStatus

def isTerminal : OperationStatus → Bool
  | .completed | .failed | .cancelled => true
  | _ => false

def allowsTransitionTo : OperationStatus → OperationStatus → Bool
  | .queued, .running | .queued, .cancelling | .queued, .failed => true
  | .running, .cancelling | .running, .completed | .running, .failed => true
  | .cancelling, .completed | .cancelling, .failed | .cancelling, .cancelled => true
  | _, _ => false

theorem not_isTerminal_of_allows {s t : OperationStatus} (h : s.allowsTransitionTo t = true) :
    s.isTerminal = false := by
  cases s <;> cases t <;> first | rfl | cases h

end OperationStatus

/-- `OperationProgress`, whose constructor checks the bounds. -/
structure OperationProgress where
  completedUnits : Nat
  totalUnits : Nat
  total_pos : 0 < totalUnits
  total_le : totalUnits ≤ maxProgressUnits
  completed_le : completedUnits ≤ totalUnits

def OperationProgress.new (completedUnits totalUnits : Nat) :
    Except JournalError OperationProgress :=
  if h : 0 < totalUnits ∧ totalUnits ≤ maxProgressUnits ∧ completedUnits ≤ totalUnits then
    .ok ⟨completedUnits, totalUnits, h.1, h.2.1, h.2.2⟩
  else .error .invalidArgument

/-! ### JSON and digests -/

/-- What the journal uses from outside the repository. -/
structure Codec where
  floatText : FloatText
  /-- `serde_json::from_str` -/
  fromStr : String → Option Value
  /-- `Sha256::digest` -/
  sha256 : List UInt8 → Digest

/-- `canonical_json_string`. -/
def Codec.canonicalJson (C : Codec) (value : Value) : String :=
  Protocol.canonicalJson C.floatText value

/-- The digest of a text. -/
def Codec.digest (C : Codec) (encoded : String) : Digest := C.sha256 (utf8 encoded)

/-- The text reads as a value whose canonical text it is. -/
def Codec.isCanonical (C : Codec) (encoded : String) : Bool :=
  (C.fromStr encoded).any fun value => C.canonicalJson value == encoded

structure CanonicalInput where
  encoded : String
  digest : Digest
deriving DecidableEq

def CanonicalInput.new (C : Codec) (value : Value) : Except JournalError CanonicalInput := do
  let encoded := C.canonicalJson value
  check (encoded.utf8ByteSize ≤ maxOperationInputBytes) .invalidArgument
  check ((C.fromStr encoded).isSome = true) .invalidArgument
  return ⟨encoded, C.digest encoded⟩

def CanonicalInput.fromDatabase (C : Codec) (encoded : String) (storedDigest : Digest) :
    Except JournalError CanonicalInput := do
  check (encoded.utf8ByteSize ≤ maxOperationInputBytes) .integrityFailure
  check (C.isCanonical encoded = true) .integrityFailure
  check (C.digest encoded = storedDigest) .integrityFailure
  return ⟨encoded, C.digest encoded⟩

structure CanonicalJson where
  encoded : String
deriving DecidableEq

def CanonicalJson.new (C : Codec) (value : Value) : Except JournalError CanonicalJson := do
  let encoded := C.canonicalJson value
  check (encoded.utf8ByteSize ≤ maxTerminalPayloadBytes) .invalidArgument
  return ⟨encoded⟩

def CanonicalJson.fromDatabase (C : Codec) (encoded : String) :
    Except JournalError CanonicalJson := do
  check (encoded.utf8ByteSize ≤ maxTerminalPayloadBytes) .integrityFailure
  check (C.isCanonical encoded = true) .integrityFailure
  return ⟨encoded⟩

/-! ### Capabilities -/

/-- `AgentCapability`, in the order of the enumeration. -/
inductive AgentCapability where
  | read
  | storeWrite
  | repositoryWrite
  | daemonControl
  | projectExec
deriving DecidableEq

namespace AgentCapability

/-- The position in the enumeration, which is its order. -/
def rank : AgentCapability → Nat
  | .read => 0
  | .storeWrite => 1
  | .repositoryWrite => 2
  | .daemonControl => 3
  | .projectExec => 4

/-- The name under which a capability is serialized. -/
def asStr : AgentCapability → String
  | .read => "read"
  | .storeWrite => "store_write"
  | .repositoryWrite => "repository_write"
  | .daemonControl => "daemon_control"
  | .projectExec => "project_exec"

/-- The capability with a name. -/
def parse : Value → Option AgentCapability
  | .string "read" => some .read
  | .string "store_write" => some .storeWrite
  | .string "repository_write" => some .repositoryWrite
  | .string "daemon_control" => some .daemonControl
  | .string "project_exec" => some .projectExec
  | _ => none

end AgentCapability

/-- `CapabilitySet`: sorted capabilities and their digest. -/
structure CapabilitySet where
  capabilities : List AgentCapability
  digest : Digest
deriving DecidableEq

namespace CapabilitySet

/-- The text of a list of capabilities. -/
def encode (C : Codec) (capabilities : List AgentCapability) : String :=
  C.canonicalJson (.array (capabilities.map fun c => .string c.asStr))

def new (C : Codec) (capabilities : List AgentCapability) : CapabilitySet :=
  let sorted := SortDedup.sortDedup AgentCapability.rank (· == ·) capabilities
  ⟨sorted, C.digest (encode C sorted)⟩

def containsAll (set required : CapabilitySet) : Bool :=
  required.capabilities.all (· ∈ set.capabilities)

def canonicalJson (C : Codec) (set : CapabilitySet) : Except JournalError String := do
  let encoded := encode C set.capabilities
  check (encoded.utf8ByteSize ≤ maxCapabilityJsonBytes) .invalidArgument
  return encoded

/-- `from_str::<Vec<AgentCapability>>`. -/
def decode (C : Codec) (json : String) : Option (List AgentCapability) :=
  match C.fromStr json with
  | some (.array items) => items.mapM AgentCapability.parse
  | _ => none

def fromDatabase (C : Codec) (json : String) (storedDigest : Digest) :
    Except JournalError CapabilitySet := do
  check (json.utf8ByteSize ≤ maxCapabilityJsonBytes) .integrityFailure
  let decoded ← required (decode C json) .integrityFailure
  let set := new C decoded
  let canonical ← orElse (set.canonicalJson C) .integrityFailure
  check (set.capabilities ≠ [] ∧ canonical = json ∧ set.digest = storedDigest) .integrityFailure
  return set

end CapabilitySet

/-- The capabilities of a kind's profile. -/
def OperationKind.profile : OperationKind → List AgentCapability
  | .scanSubmit | .runtimeTraceImportSubmit => [.read, .storeWrite]
  | .exportFile => [.read, .repositoryWrite]
  | .daemonStartSubmit | .daemonStop => [.read, .storeWrite, .daemonControl]
  | .resolveBuildSubmit => [.read, .storeWrite, .projectExec]

def OperationKind.requiredCapabilities (C : Codec) (kind : OperationKind) : CapabilitySet :=
  .new C kind.profile

def validateSecretInput (bytes : List UInt8) (maximum : Nat) : Except JournalError Unit :=
  check (bytes ≠ [] ∧ bytes.length ≤ maximum) .invalidArgument

def digestLeaseToken (C : Codec) (token : List UInt8) : Except JournalError Digest := do
  validateSecretInput token maxLeaseTokenBytes
  return C.sha256 token

/-! ### Records -/

structure OperationLease where
  owner : LeaseOwner
  tokenDigest : Digest
  expiresAtMs : Int
deriving DecidableEq

structure OperationRecord where
  operationId : OperationId
  repositoryId : LogicalRepositoryId
  kind : OperationKind
  requiredCapabilities : CapabilitySet
  normalizedInput : CanonicalInput
  inputDigest : Digest
  idempotencyKeyDigest : Digest
  status : OperationStatus
  progress : OperationProgress
  lease : Option OperationLease
  executionDeadlineMs : Int
  result : Option CanonicalJson
  error : Option CanonicalJson
  createdAtMs : Int
  updatedAtMs : Int
  terminalAtMs : Option Int
  retentionAnchorMs : Int
  retainUntilMs : Int

structure RunnerHandoff where
  operationId : OperationId
  operationKind : OperationKind
  payload : CanonicalInput
  payloadDigest : Digest
  enqueuedAtMs : Int
  claimedAtMs : Option Int
  completedAtMs : Option Int

/-- `SubmitRequest`. Its fields are private: `new` and `with_progress_total` are the only ways to
make one, and establish the invariants. -/
structure SubmitRequest (C : Codec) where
  repositoryId : LogicalRepositoryId
  repositoryBindingDigest : Digest
  kind : OperationKind
  requiredCapabilities : CapabilitySet
  normalizedInput : CanonicalInput
  inputDigest : Digest
  idempotencyKeyDigest : Digest
  executionDeadlineMs : Int
  initialProgress : OperationProgress
  required_eq : requiredCapabilities = kind.requiredCapabilities C
  digest_eq : inputDigest = normalizedInput.digest
  progress_zero : initialProgress.completedUnits = 0
  unbounded_scan : executionDeadlineMs = unboundedScanDeadlineMs → kind = .scanSubmit

end Operation
