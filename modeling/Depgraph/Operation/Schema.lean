import Depgraph.Operation.Row
import Std.Data.ExtTreeMap

/-!
# The tables of the journal

The four tables, their constraints and triggers, and the statements the journal executes on them.
A table maps the primary key, an operation identifier, to the other columns of its row.

* `operationAllowed` and its siblings are the `CHECK` constraints; a statement that breaks a
  constraint or runs into a trigger fails with a storage error.
* Deleting an operation deletes its handoff and its completion intent with it.
-/

namespace Operation

open Protocol Fallible

/-- A table, by its primary key. -/
abbrev Table (α : Type) := Std.ExtTreeMap String α

/-- The content of the journal. -/
structure Tables where
  operations : Table OperationRow
  handoffs : Table HandoffRow
  intents : Table IntentRow
  tombstones : Table TombstoneRow

/-- The journal after `open` has created its schema. -/
def Tables.empty : Tables := ⟨∅, ∅, ∅, ∅⟩

/-! ### Constraints -/

/-- The `CHECK` on `operation_id`. -/
def keyAllowed (id : String) : Bool :=
  (operationIdDigits id).any fun digits => digits.length == 32 && digits.all isLowerHex

/-- The `CHECK` on the status and the terminal columns. -/
def statusAllowed (row : OperationRow) : Bool :=
  match row.status with
  | .queued | .running | .cancelling =>
    row.terminalAtMs.isNone && row.resultJson.isNone && row.errorJson.isNone
  | .completed => row.terminalAtMs.isSome && row.resultJson.isSome && row.errorJson.isNone
  | .failed => row.terminalAtMs.isSome && row.resultJson.isNone && row.errorJson.isSome
  | .cancelled => row.terminalAtMs.isSome && row.resultJson.isNone && row.errorJson.isNone

/-- The `CHECK` on the lease columns. -/
def leaseAllowed (row : OperationRow) : Bool :=
  (row.leaseOwner.isNone && row.leaseTokenDigest.isNone && row.leaseExpiresAtMs.isNone) ||
    (row.leaseOwner.isSome && row.leaseTokenDigest.isSome && row.leaseExpiresAtMs.isSome)

/-- The `CHECK` constraints of `operations`. -/
structure OperationAllowed (id : String) (row : OperationRow) : Prop where
  key : keyAllowed id = true
  capabilities : 1 ≤ row.requiredCapabilitiesJson.utf8ByteSize ∧
    row.requiredCapabilitiesJson.utf8ByteSize ≤ 256
  input : row.inputJson.utf8ByteSize ≤ 16777216
  progress : 0 ≤ row.progressCompleted ∧ 1 ≤ row.progressTotal ∧
    row.progressTotal ≤ 1000000000 ∧ row.progressCompleted ≤ row.progressTotal
  result : ∀ text ∈ row.resultJson, text.utf8ByteSize ≤ 16777216
  error : ∀ text ∈ row.errorJson, text.utf8ByteSize ≤ 16777216
  lease : leaseAllowed row = true
  status : statusAllowed row = true
  terminal : row.status.isTerminal = true → row.leaseOwner = none

theorem operationAllowed_iff {id : String} {row : OperationRow} :
    OperationAllowed id row ↔ keyAllowed id = true ∧
      (1 ≤ row.requiredCapabilitiesJson.utf8ByteSize ∧
        row.requiredCapabilitiesJson.utf8ByteSize ≤ 256) ∧
      row.inputJson.utf8ByteSize ≤ 16777216 ∧
      (0 ≤ row.progressCompleted ∧ 1 ≤ row.progressTotal ∧ row.progressTotal ≤ 1000000000 ∧
        row.progressCompleted ≤ row.progressTotal) ∧
      (∀ text ∈ row.resultJson, text.utf8ByteSize ≤ 16777216) ∧
      (∀ text ∈ row.errorJson, text.utf8ByteSize ≤ 16777216) ∧
      leaseAllowed row = true ∧ statusAllowed row = true ∧
      (row.status.isTerminal = true → row.leaseOwner = none) :=
  ⟨fun ⟨h1, h2, h3, h4, h5, h6, h7, h8, h9⟩ => ⟨h1, h2, h3, h4, h5, h6, h7, h8, h9⟩,
    fun ⟨h1, h2, h3, h4, h5, h6, h7, h8, h9⟩ => ⟨h1, h2, h3, h4, h5, h6, h7, h8, h9⟩⟩

instance (id : String) (row : OperationRow) : Decidable (OperationAllowed id row) :=
  decidable_of_iff' _ operationAllowed_iff

/-- The `CHECK` constraints of `runner_handoffs`. -/
def HandoffAllowed (row : HandoffRow) : Prop :=
  row.payloadJson.utf8ByteSize ≤ 16777216 ∧
  (∀ claimedAtMs ∈ row.claimedAtMs, row.enqueuedAtMs ≤ claimedAtMs) ∧
  (∀ completedAtMs ∈ row.completedAtMs, row.enqueuedAtMs ≤ completedAtMs) ∧
  ∀ completedAtMs ∈ row.completedAtMs, ∀ claimedAtMs ∈ row.claimedAtMs,
    claimedAtMs ≤ completedAtMs

instance (row : HandoffRow) : Decidable (HandoffAllowed row) := by
  unfold HandoffAllowed
  infer_instance

/-- The `CHECK` constraints of `operation_completion_intents`. -/
def IntentAllowed (row : IntentRow) : Prop :=
  1 ≤ row.resultJson.utf8ByteSize ∧ row.resultJson.utf8ByteSize ≤ 16777216

instance (row : IntentRow) : Decidable (IntentAllowed row) := by
  unfold IntentAllowed
  infer_instance

/-- The `CHECK` constraints of `operation_tombstones`. -/
def TombstoneAllowed (id : String) (row : TombstoneRow) : Prop :=
  keyAllowed id = true ∧ 1 ≤ row.requiredCapabilitiesJson.utf8ByteSize ∧
  row.requiredCapabilitiesJson.utf8ByteSize ≤ 256 ∧ row.expiredAtMs < row.tombstoneUntilMs

instance (id : String) (row : TombstoneRow) : Decidable (TombstoneAllowed id row) := by
  unfold TombstoneAllowed
  infer_instance

/-! ### Rows that decode satisfy the constraints -/

variable {C : Codec} {id : String} {row : OperationRow}

theorem JournalId.keyAllowed (h : JournalId id) : keyAllowed id = true := by
  obtain ⟨-, digits, hdigits, hlength, hhex⟩ := h
  simp [Operation.keyAllowed, hdigits, hlength, hhex]

/-- The text of a capability set is neither empty nor long. -/
theorem CapabilitySet.fromDatabase_size {json : String} {digest : Digest} {set : CapabilitySet}
    (h : fromDatabase C json digest = .ok set) :
    1 ≤ json.utf8ByteSize ∧ json.utf8ByteSize ≤ 256 := by
  simp only [fromDatabase, bind_eq_ok, check_eq_ok, exists_const, required_eq_ok, orElse_eq_ok,
    canonicalJson, pure, Except.pure, Except.ok.injEq] at h
  obtain ⟨hsize, decoded, -, _, ⟨-, rfl⟩, ⟨-, hjson, -⟩, -⟩ := h
  refine ⟨Nat.pos_of_ne_zero fun h0 => ?_, hsize⟩
  rw [String.utf8ByteSize_eq_zero_iff, ← hjson] at h0
  have := congrArg String.toList h0
  simp [encode, Codec.canonicalJson, Protocol.canonicalJson, canonicalValue, Json.Value.text]
    at this

theorem LeaseValid.allowed (h : LeaseValid row) : leaseAllowed row = true := by
  rcases h with ⟨h1, h2, h3⟩ | ⟨_, _, _, ⟨h1, h2, h3⟩, -⟩ <;> simp [leaseAllowed, h1, h2, h3]

theorem RowValid.allowed (v : RowValid C id row) : OperationAllowed id row where
  key := v.id.keyAllowed
  capabilities := CapabilitySet.fromDatabase_size v.capabilities
  input := v.input.size
  progress := ⟨v.progress_nonneg, v.total_pos, v.total_le, v.progress_le⟩
  result text h := (v.result text h).size
  error text h := (v.error text h).size
  lease := v.lease.allowed
  status := by
    have := v.payloads
    cases h : row.status <;> simp_all [payloadsAgree, statusAllowed]
  terminal h := by
    rcases v.lease with ⟨h1, -⟩ | ⟨_, _, _, -, ⟨hactive, -⟩, -⟩
    · exact h1
    · rw [h] at hactive
      cases hactive

theorem HandoffValid.allowed {handoff : HandoffRow} (w : HandoffValid C id handoff) :
    HandoffAllowed handoff :=
  ⟨w.payload.size, w.claimed_ge, fun completedAtMs h => (w.completed_ge completedAtMs h).1,
    fun completedAtMs h => (w.completed_ge completedAtMs h).2⟩

/-! ### Idempotency scopes -/

/-- The columns of the unique index `operations_idempotency_scope`. -/
structure Scope where
  repositoryId : String
  kind : OperationKind
  idempotencyKeyDigest : Digest
deriving DecidableEq

def OperationRow.scope (row : OperationRow) : Scope :=
  ⟨row.repositoryId, row.kind, row.idempotencyKeyDigest⟩

def TombstoneRow.scope (row : TombstoneRow) : Scope :=
  ⟨row.repositoryId, row.kind, row.idempotencyKeyDigest⟩

/-! ### Lookups -/

section Lookup

variable {α : Type} {table : Table α} {id key : String} {a : α}

theorem Table.getElem?_insert :
    (table.insert id a)[key]? = if key = id then some a else table[key]? := by
  simp only [Std.ExtTreeMap.getElem?_insert, Std.compare_eq_iff_eq, eq_comm (a := id)]

theorem Table.getElem?_erase :
    (table.erase id)[key]? = if key = id then none else table[key]? := by
  simp only [Std.ExtTreeMap.getElem?_erase, Std.compare_eq_iff_eq, eq_comm (a := id)]

theorem Table.mem_toList {entry : String × α} :
    entry ∈ table.toList ↔ table[entry.1]? = some entry.2 :=
  Std.ExtTreeMap.mem_toList_iff_getElem?_eq_some

/-- A key occurs once in a table. -/
theorem Table.keys_nodup : (table.toList.map Prod.fst).Nodup :=
  List.pairwise_map.2 (Std.ExtTreeMap.distinct_keys_toList.imp fun h heq =>
    h (Std.compare_eq_iff_eq.2 heq))

end Lookup

namespace Tables

variable (t : Tables)

/-- The tables with another row in `operations`. -/
def setOperation (id : String) (row : OperationRow) : Tables :=
  { t with operations := t.operations.insert id row }

/-- The tables with another row in `runner_handoffs`. -/
def setHandoff (id : String) (row : HandoffRow) : Tables :=
  { t with handoffs := t.handoffs.insert id row }

section

variable {t} {id key : String} {row : OperationRow} {handoff : HandoffRow}

theorem operations_setOperation :
    (t.setOperation id row).operations[key]? = if key = id then some row else t.operations[key]? :=
  Table.getElem?_insert

theorem handoffs_setHandoff :
    (t.setHandoff id handoff).handoffs[key]? =
      if key = id then some handoff else t.handoffs[key]? :=
  Table.getElem?_insert

@[simp] theorem handoffs_setOperation : (t.setOperation id row).handoffs = t.handoffs := rfl
@[simp] theorem intents_setOperation : (t.setOperation id row).intents = t.intents := rfl
@[simp] theorem tombstones_setOperation : (t.setOperation id row).tombstones = t.tombstones := rfl
@[simp] theorem operations_setHandoff : (t.setHandoff id handoff).operations = t.operations := rfl
@[simp] theorem intents_setHandoff : (t.setHandoff id handoff).intents = t.intents := rfl
@[simp] theorem tombstones_setHandoff : (t.setHandoff id handoff).tombstones = t.tombstones := rfl

@[simp] theorem setOperation_setOperation {row' : OperationRow} :
    (t.setOperation id row).setOperation id row' = t.setOperation id row' := by
  have h : (t.operations.insert id row).insert id row' = t.operations.insert id row' := by
    ext1 key
    simp only [Table.getElem?_insert]
    split_ifs <;> rfl
  simp only [setOperation, h]

@[simp] theorem operations_setOperation_self : (t.setOperation id row).operations[id]? = some row :=
  by rw [operations_setOperation, if_pos rfl]

@[simp] theorem handoffs_setHandoff_self : (t.setHandoff id handoff).handoffs[id]? = some handoff :=
  by rw [handoffs_setHandoff, if_pos rfl]

end

/-! ### Statements -/

def selectOperationByScope (scope : Scope) : Option (String × OperationRow) :=
  t.operations.toList.find? fun entry => entry.2.scope == scope

def selectTombstoneByScope (scope : Scope) : Option (String × TombstoneRow) :=
  t.tombstones.toList.find? fun entry => entry.2.scope == scope

/-- `INSERT INTO operations`: the key and the scope are unique, and the trigger
`operations_reject_tombstone_overlap_insert` keeps both apart from the tombstones. -/
def insertOperation (id : String) (row : OperationRow) : Except JournalError Tables := do
  check (t.operations[id]? = none ∧ t.selectOperationByScope row.scope = none) .storage
  check (t.tombstones[id]? = none ∧ t.selectTombstoneByScope row.scope = none) .storage
  check (OperationAllowed id row) .storage
  return t.setOperation id row

/-- `UPDATE operations SET .. WHERE operation_id = id AND ..`, with the number of updated rows. The
triggers `operations_terminal_immutable` and `operations_state_transition` guard the update. -/
def updateOperation (id : String) (condition : OperationRow → Bool)
    (set : OperationRow → OperationRow) : Except JournalError (Tables × Nat) :=
  match t.operations[id]? with
  | none => .ok (t, 0)
  | some row =>
    if condition row = true then do
      check (row.status.isTerminal = false) .storage
      check ((set row).status ≠ row.status →
        row.status.allowsTransitionTo (set row).status = true) .storage
      check (OperationAllowed id (set row)) .storage
      return (t.setOperation id (set row), 1)
    else .ok (t, 0)

/-- The tables without an operation: its handoff and its intent go with it. -/
def removeOperation (id : String) : Tables :=
  { t with
    operations := t.operations.erase id, handoffs := t.handoffs.erase id
    intents := t.intents.erase id }

/-- `DELETE FROM operations WHERE operation_id = id AND ..`, which cascades. -/
def deleteOperation (id : String) (condition : OperationRow → Bool) : Tables × Nat :=
  match t.operations[id]? with
  | none => (t, 0)
  | some row =>
    if condition row = true then (t.removeOperation id, 1) else (t, 0)

/-- `INSERT INTO runner_handoffs`. -/
def insertHandoff (id : String) (row : HandoffRow) : Except JournalError Tables := do
  check (t.operations[id]? ≠ none ∧ t.handoffs[id]? = none ∧ HandoffAllowed row) .storage
  return t.setHandoff id row

/-- `UPDATE runner_handoffs SET .. WHERE operation_id = id AND ..`. -/
def updateHandoff (id : String) (condition : HandoffRow → Bool) (set : HandoffRow → HandoffRow) :
    Except JournalError (Tables × Nat) :=
  match t.handoffs[id]? with
  | none => .ok (t, 0)
  | some row =>
    if condition row = true then do
      check (HandoffAllowed (set row)) .storage
      return (t.setHandoff id (set row), 1)
    else .ok (t, 0)

/-- `INSERT INTO operation_completion_intents`. -/
def insertIntent (id : String) (row : IntentRow) : Except JournalError Tables := do
  check (t.operations[id]? ≠ none ∧ t.intents[id]? = none ∧ IntentAllowed row) .storage
  return { t with intents := t.intents.insert id row }

/-- `DELETE FROM operation_completion_intents`. -/
def deleteIntent (id : String) : Tables × Nat :=
  ({ t with intents := t.intents.erase id }, if t.intents[id]? = none then 0 else 1)

/-- `INSERT INTO operation_tombstones`: the unique keys, and the trigger
`tombstones_reject_operation_overlap_insert`. -/
def insertTombstone (id : String) (row : TombstoneRow) : Except JournalError Tables := do
  check (t.tombstones[id]? = none ∧ t.selectTombstoneByScope row.scope = none) .storage
  check (t.operations[id]? = none ∧ t.selectOperationByScope row.scope = none) .storage
  check (TombstoneAllowed id row) .storage
  return { t with tombstones := t.tombstones.insert id row }

/-- `DELETE FROM operation_tombstones`. -/
def deleteTombstone (id : String) : Tables × Nat :=
  ({ t with tombstones := t.tombstones.erase id }, if t.tombstones[id]? = none then 0 else 1)

/-! ### What the statements do -/

section

variable {t} {id : String}

/-- What the constraints and triggers require of an update. -/
structure Updatable (id : String) (row row' : OperationRow) : Prop where
  active : row.status.isTerminal = false
  transition : row'.status ≠ row.status → row.status.allowsTransitionTo row'.status = true
  allowed : OperationAllowed id row'

theorem updateOperation_eq_ok {row : OperationRow} {condition : OperationRow → Bool}
    {set : OperationRow → OperationRow} {r : Tables × Nat} (hrow : t.operations[id]? = some row)
    (hcondition : condition row = true) : t.updateOperation id condition set = .ok r ↔
      Updatable id row (set row) ∧ r = (t.setOperation id (set row), 1) := by
  simp only [updateOperation, hrow, hcondition, if_true, bind_eq_ok, check_eq_ok, exists_const,
    pure, Except.pure, Except.ok.injEq]
  constructor
  · rintro ⟨hactive, htransition, hallowed, rfl⟩
    exact ⟨⟨hactive, htransition, hallowed⟩, rfl⟩
  · rintro ⟨⟨hactive, htransition, hallowed⟩, rfl⟩
    exact ⟨hactive, htransition, hallowed, rfl⟩

theorem updateHandoff_eq_ok {row : HandoffRow} {condition : HandoffRow → Bool}
    {set : HandoffRow → HandoffRow} {r : Tables × Nat} (hrow : t.handoffs[id]? = some row)
    (hcondition : condition row = true) : t.updateHandoff id condition set = .ok r ↔
      HandoffAllowed (set row) ∧ r = (t.setHandoff id (set row), 1) := by
  simp only [updateHandoff, hrow, hcondition, if_true, bind_eq_ok, check_eq_ok, exists_const,
    pure, Except.pure, Except.ok.injEq]
  exact and_congr_right fun _ => eq_comm

/-- An update that reports one updated row has found one. -/
theorem updateHandoff_one {row : HandoffRow} {condition : HandoffRow → Bool}
    {set : HandoffRow → HandoffRow} {t' : Tables} (hrow : t.handoffs[id]? = some row)
    (h : t.updateHandoff id condition set = .ok (t', 1)) :
    condition row = true ∧ t' = t.setHandoff id (set row) := by
  by_cases hcondition : condition row = true
  · obtain ⟨-, h⟩ := (updateHandoff_eq_ok hrow hcondition).1 h
    exact ⟨hcondition, congrArg Prod.fst h⟩
  · simp [updateHandoff, hrow, hcondition] at h

end

end Tables

end Operation
