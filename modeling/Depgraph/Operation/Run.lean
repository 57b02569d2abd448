import Depgraph.Operation.Claim
import Depgraph.Operation.Submit
import Depgraph.Library.TimedRun
import Depgraph.Json.Text

/-!
# Runs of the journal

A run starts from the empty journal and makes calls, each at a time not before that of the last
one. Several handles of one repository may take part, with different capabilities. A call that
fails leaves the tables as they are.
-/

namespace Operation

open Protocol TimedRun

/-- A call of a method of `OperationJournal` that may change the tables. -/
inductive Call (C : Codec) where
  | submit (request : SubmitRequest C) (randomBytes : Option (Vector UInt8 16))
  | cancel (repositoryId : LogicalRepositoryId) (id : OperationId)
      (currentCapabilities : CapabilitySet) (shouldCommit : Bool)
  | cancelBeforeLaunch (repositoryId : LogicalRepositoryId) (id : OperationId)
      (currentCapabilities : CapabilitySet)
  | acquireLease (repositoryId : LogicalRepositoryId) (id : OperationId) (owner : LeaseOwner)
      (leaseToken : List UInt8) (leaseExpiresAtMs : Int)
  | claimNextRunnerHandoff (repositoryId : LogicalRepositoryId) (owner : LeaseOwner)
      (leaseToken : List UInt8) (leaseExpiresAtMs : Int)
  | renewLease (repositoryId : LogicalRepositoryId) (id : OperationId) (leaseToken : List UInt8)
      (leaseExpiresAtMs : Int)
  | releaseLease (repositoryId : LogicalRepositoryId) (id : OperationId)
      (leaseToken : List UInt8)
  | updateProgress (repositoryId : LogicalRepositoryId) (id : OperationId)
      (leaseToken : List UInt8) (progress : OperationProgress)
  | complete (repositoryId : LogicalRepositoryId) (id : OperationId) (leaseToken : List UInt8)
      (result : CanonicalJson)
  | fail (repositoryId : LogicalRepositoryId) (id : OperationId) (leaseToken : List UInt8)
      (error : CanonicalJson)
  | markCancelled (repositoryId : LogicalRepositoryId) (id : OperationId)
      (leaseToken : List UInt8)
  | commitCompletionIntent (repositoryId : LogicalRepositoryId) (id : OperationId)
      (leaseToken : List UInt8) (result : CanonicalJson)
  | finishCompletionIntent (repositoryId : LogicalRepositoryId) (id : OperationId)
  | failDeadline (repositoryId : LogicalRepositoryId) (id : OperationId)
      (runnerCleanupCompleted : Bool)
  | purge (guardAcquired : Bool)

variable {C : Codec}

/-- The tables after a call, if it succeeds. -/
def Journal.apply (J : Journal C) (root : RootSeal) (nowMs : Int) (t : Tables) :
    Call C → Except JournalError Tables
  | .submit request randomBytes => Prod.fst <$> J.submit t root request randomBytes nowMs
  | .cancel repositoryId id currentCapabilities shouldCommit =>
    Prod.fst <$> J.cancel t root repositoryId id currentCapabilities shouldCommit nowMs
  | .cancelBeforeLaunch repositoryId id currentCapabilities =>
    Prod.fst <$> J.cancelBeforeLaunch t root repositoryId id currentCapabilities nowMs
  | .acquireLease repositoryId id owner leaseToken leaseExpiresAtMs =>
    Prod.fst <$> J.acquireLease t root repositoryId id owner leaseToken nowMs leaseExpiresAtMs
  | .claimNextRunnerHandoff repositoryId owner leaseToken leaseExpiresAtMs =>
    Prod.fst <$> J.claimNextRunnerHandoff t root repositoryId owner leaseToken nowMs
      leaseExpiresAtMs
  | .renewLease repositoryId id leaseToken leaseExpiresAtMs =>
    Prod.fst <$> J.renewLease t root repositoryId id leaseToken nowMs leaseExpiresAtMs
  | .releaseLease repositoryId id leaseToken =>
    Prod.fst <$> J.releaseLease t root repositoryId id leaseToken nowMs
  | .updateProgress repositoryId id leaseToken progress =>
    Prod.fst <$> J.updateProgress t root repositoryId id leaseToken progress nowMs
  | .complete repositoryId id leaseToken result =>
    Prod.fst <$> J.complete t root repositoryId id leaseToken result nowMs
  | .fail repositoryId id leaseToken error =>
    Prod.fst <$> J.fail t root repositoryId id leaseToken error nowMs
  | .markCancelled repositoryId id leaseToken =>
    Prod.fst <$> J.markCancelled t root repositoryId id leaseToken nowMs
  | .commitCompletionIntent repositoryId id leaseToken result =>
    Prod.fst <$> J.commitCompletionIntent t root repositoryId id leaseToken result nowMs
  | .finishCompletionIntent repositoryId id =>
    Prod.fst <$> J.finishCompletionIntent t root repositoryId id nowMs
  | .failDeadline repositoryId id runnerCleanupCompleted =>
    Prod.fst <$> J.failDeadline t root repositoryId id runnerCleanupCompleted nowMs
  | .purge guardAcquired => Prod.fst <$> J.purge t root guardAcquired nowMs

/-- The tables after a call. -/
def Journal.step (J : Journal C) (root : RootSeal) (nowMs : Int) (call : Call C) (t : Tables) :
    Tables :=
  match J.apply root nowMs t call with
  | .ok t' => t'
  | .error _ => t

/-- Who calls what. -/
structure Event (C : Codec) where
  journal : Journal C
  root : RootSeal
  call : Call C

/-- An event at a journal of the repository. -/
structure Steps (repositoryId : LogicalRepositoryId) (nowMs : Int) (event : Event C)
    (t t' : Tables) : Prop where
  repository : event.journal.repositoryId = repositoryId
  after : t' = event.journal.step event.root nowMs event.call t

/-- A state of a run from the empty journal. -/
def Reachable (C : Codec) (repositoryId : LogicalRepositoryId) (c : Config Int Tables) : Prop :=
  ∃ start, Run (Steps (C := C) repositoryId) ⟨start, Tables.empty⟩ c

/-- A step leaves the tables alone, or its call succeeds. -/
theorem Steps.eq_or_apply {repositoryId : LogicalRepositoryId} {nowMs : Int} {event : Event C}
    {t t' : Tables} (h : Steps repositoryId nowMs event t t') :
    t' = t ∨ event.journal.apply event.root nowMs t event.call = .ok t' := by
  have hafter := h.after
  unfold Journal.step at hafter
  cases happly : event.journal.apply event.root nowMs t event.call with
  | error e => exact Or.inl (by rw [hafter, happly])
  | ok t₁ => exact Or.inr (by rw [hafter, happly])

theorem Journal.step_of_apply {J : Journal C} {root : RootSeal} {nowMs : Int} {call : Call C}
    {t t' : Tables} (h : J.apply root nowMs t call = .ok t') : J.step root nowMs call t = t' := by
  simp only [Journal.step, h]

theorem map_fst_eq_ok {α : Type} {x : Except JournalError (Tables × α)} {t' : Tables} :
    Prod.fst <$> x = .ok t' ↔ ∃ outcome, x = .ok (t', outcome) := by
  cases x with
  | error e => simp
  | ok r =>
    obtain ⟨t, outcome⟩ := r
    simp [Functor.map, Except.map]

/-! ### Running a list of calls -/

/-- The journal makes calls one after the other, with an intact root. A call that asks for a time
before that of the last one gets the time of the last one. -/
def Journal.calls (J : Journal C) (calls : List (Int × Call C)) (c : Config Int Tables) :
    Config Int Tables :=
  calls.foldl (fun c call =>
    ⟨max c.now call.1, J.step .intact (max c.now call.1) call.2 c.state⟩) c

theorem Journal.run_calls (J : Journal C) (calls : List (Int × Call C)) (c : Config Int Tables) :
    Run (Steps (C := C) J.repositoryId) c (J.calls calls c) := by
  induction calls generalizing c with
  | nil => exact .refl
  | cons call rest ih =>
    exact .head ⟨le_max_left _ _, ⟨J, .intact, call.2⟩, rfl, rfl⟩ (ih _)

theorem Journal.reachable_calls (J : Journal C) (calls : List (Int × Call C)) :
    Reachable C J.repositoryId (J.calls calls ⟨0, Tables.empty⟩) :=
  ⟨0, J.run_calls calls _⟩

/-! ### A concrete journal -/

namespace Sample

def capabilitiesJson : String := "[\"read\",\"store_write\",\"project_exec\"]"

/-- The JSON parser, SHA-256 and the text of doubles on the few inputs that are used below. -/
def codec : Codec where
  floatText := .plain
  fromStr text :=
    if text = "null" then some .null
    else if text = capabilitiesJson then
      some (.array [.string "read", .string "store_write", .string "project_exec"])
    else if text = executionStateUnknownErrorJson then
      some (.object [("code", .string "EXECUTION_STATE_UNKNOWN")])
    else none
  sha256 bytes :=
    if bytes = utf8 "null" then
      ⟨[116, 35, 78, 152, 175, 231, 73, 143, 181, 218, 241, 243, 106, 194, 215, 138, 204, 51, 148,
        100, 249, 80, 112, 59, 140, 1, 152, 146, 249, 130, 185, 11], rfl⟩
    else if bytes = utf8 capabilitiesJson then
      ⟨[6, 18, 181, 171, 91, 172, 199, 24, 114, 29, 51, 31, 183, 178, 214, 191, 120, 15, 152, 168,
        18, 219, 193, 3, 225, 52, 89, 212, 49, 37, 44, 152], rfl⟩
    else if bytes = [1] then
      ⟨[75, 245, 18, 47, 52, 69, 84, 197, 59, 222, 46, 187, 140, 210, 183, 227, 209, 96, 10, 214,
        49, 195, 133, 165, 215, 204, 226, 60, 119, 133, 69, 154], rfl⟩
    else
      ⟨[219, 193, 180, 201, 0, 255, 228, 141, 87, 91, 93, 165, 198, 56, 4, 1, 37, 246, 93, 176,
        254, 62, 36, 73, 75, 118, 234, 152, 100, 87, 217, 134], rfl⟩

def repositoryId : LogicalRepositoryId := ⟨"repository", by decide⟩

def owner : LeaseOwner := ⟨"runner", by decide⟩

/-- The capabilities of a project execution. -/
def capabilities : CapabilitySet := OperationKind.requiredCapabilities codec .resolveBuildSubmit

def journal : Journal codec := ⟨repositoryId, capabilities, codec.sha256 [2]⟩

theorem one_le_maxProgressUnits : 1 ≤ maxProgressUnits := by decide

theorem noProgress_le : 0 ≤ 1 := Nat.zero_le 1

/-- Nothing of one unit. -/
def noProgress : OperationProgress := ⟨0, 1, Nat.one_pos, one_le_maxProgressUnits, noProgress_le⟩

/-- A build resolution with the input `null`, the idempotency key `[1]` and the deadline 1000. -/
def request : SubmitRequest codec where
  repositoryId := repositoryId
  repositoryBindingDigest := codec.sha256 [2]
  kind := .resolveBuildSubmit
  requiredCapabilities := capabilities
  normalizedInput := ⟨"null", codec.digest "null"⟩
  inputDigest := codec.digest "null"
  idempotencyKeyDigest := codec.sha256 [1]
  executionDeadlineMs := 1000
  initialProgress := noProgress
  required_eq := rfl
  digest_eq := rfl
  progress_zero := rfl
  unbounded_scan h := by cases h

/-- The identifier made from sixteen zero bytes. -/
def operationId : OperationId := ⟨"op_00000000000000000000000000000000", by decide⟩

def submit : Call codec := .submit request (some (.replicate 16 0))

end Sample

end Operation
