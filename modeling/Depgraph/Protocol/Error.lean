import Depgraph.Library.Fallible

/-!
# Errors of the protocol validator
-/

namespace Protocol

open Fallible

/-- The errors of the protocol validator that the modelled functions return. -/
inductive ProtocolError where
  /-- `protocol invariant failed: {0}` -/
  | invariant (message : String)
  /-- `unsupported protocol version {found}; expected {expected}` -/
  | unsupportedVersion (expected found : String)
  /-- `protocol stream must start with scan_started, found {found}` -/
  | missingScanStarted (found : String)
  /-- `event {found} is not allowed after scan_completed` -/
  | eventAfterScanCompleted (found : String)
  /-- `duplicate scan_started event` -/
  | duplicateScanStarted
  /-- `scan metadata field {field} changed from {expected} to {found}` -/
  | metadataChanged (field expected found : String)
  /-- `event seq must increase strictly; previous={previous}, found={found}` -/
  | nonMonotonicSequence (previous found : Nat)
  /-- `{entity} {id} was upserted with conflicting content` -/
  | conflictingUpsert (entity id : String)
  /-- `profile {profile_id} must be declared before {event}` -/
  | undeclaredProfile (profileId event : String)
  /-- `profile {profile_id} already completed before {event}` -/
  | profileAlreadyCompleted (profileId event : String)
  /-- `profile {profile_id} completed more than once` -/
  | duplicateProfileCompletion (profileId : String)
  /-- `scan_completed arrived before profiles completed: {profile_ids}` -/
  | uncompletedProfiles (profileIds : List String)
  /-- `protocol stream ended before scan_completed` -/
  | incompleteStream
  /-- `strict safe-scan validation requires safe_mode=true and project_code_executed=false` -/
  | unsafeScanMode (safeMode projectCodeExecuted : Bool)
  /-- `event {found} is not allowed after profile completion has begun` -/
  | payloadAfterProfileCompletion (found : String)
  /-- `protocol path {path} escapes scan root {root}` -/
  | unsafePath (path root : String)
  /-- `decoding the compact evidence encoding would add more than {limit} bytes` -/
  | expansionLimit (limit : Nat)
deriving DecidableEq

/-- `invariant(message)`. -/
def invariant {α : Type} (message : String) : Except ProtocolError α :=
  .error (.invariant message)

/-- `require_non_empty(field, value)`. -/
def requireNonEmpty (field value : String) : Except ProtocolError Unit :=
  if value = "" then invariant (field ++ " must not be empty") else .ok ()

/-- `if !condition { return invariant(message) }`. -/
def ensure (condition : Prop) [Decidable condition] (message : String) :
    Except ProtocolError Unit :=
  check condition (.invariant message)

@[simp] theorem ensure_eq_ok {condition : Prop} [Decidable condition] {message : String} {u : Unit} :
    ensure condition message = .ok u ↔ condition :=
  check_eq_ok

end Protocol
