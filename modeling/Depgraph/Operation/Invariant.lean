import Depgraph.Operation.Write

/-!
# The invariant of the journal

In every state of a run each operation decodes and matches its handoff, and nothing that is live is
reserved by a tombstone.

* `Rewrites` is the change that most methods make: one row, perhaps with its handoff. The invariant
  is preserved by it, by a submission, and by the deletions of a purge.
* `Keeps R` relates the rows before a call to those after it.
* `apply_preserves` goes through the calls; `Reachable.invariant` is the induction over a run.
-/

namespace Operation

open Protocol Fallible TimedRun

variable {C : Codec} {repositoryId : LogicalRepositoryId} {t t' : Tables} {id : String}

variable (C repositoryId) in
/-- What holds in every state of a run. -/
structure Invariant (t : Tables) : Prop where
  matched : ∀ (id : String) (row : OperationRow), t.operations[id]? = some row →
    ∃ handoff, t.handoffs[id]? = some handoff ∧ Matched C id row handoff
  repository : ∀ (id : String) (row : OperationRow), t.operations[id]? = some row →
    row.repositoryId = repositoryId.str
  handoff_operation : ∀ id : String, t.operations[id]? = none → t.handoffs[id]? = none
  intent_operation : ∀ id : String, t.operations[id]? = none → t.intents[id]? = none
  tombstone : ∀ (id : String) (row : OperationRow), t.operations[id]? = some row →
    t.tombstones[id]? = none
  tombstone_scope : ∀ (id : String) (row : OperationRow) (key : String) (tombstone : TombstoneRow),
    t.operations[id]? = some row → t.tombstones[key]? = some tombstone →
      tombstone.scope ≠ row.scope

theorem Invariant.empty : Invariant C repositoryId Tables.empty where
  matched _ _ h := by simp [Tables.empty] at h
  repository _ _ h := by simp [Tables.empty] at h
  handoff_operation _ _ := by simp [Tables.empty]
  intent_operation _ _ := by simp [Tables.empty]
  tombstone _ _ h := by simp [Tables.empty] at h
  tombstone_scope _ _ _ _ h := by simp [Tables.empty] at h

/-! ### One row is rewritten -/

variable (C) in
/-- One operation is rewritten, perhaps with its handoff and its intent. -/
structure Rewrites (t t' : Tables) (id : String) (row row' : OperationRow)
    (handoff' : HandoffRow) : Prop where
  operation_eq : t.operations[id]? = some row
  matched : Matched C id row' handoff'
  operations : ∀ key : String,
    t'.operations[key]? = if key = id then some row' else t.operations[key]?
  handoffs : ∀ key : String,
    t'.handoffs[key]? = if key = id then some handoff' else t.handoffs[key]?
  intents : ∀ key : String, key ≠ id → t'.intents[key]? = t.intents[key]?
  tombstones : t'.tombstones = t.tombstones

theorem Rewrites.both {row row' : OperationRow} {handoff' : HandoffRow}
    (hrow : t.operations[id]? = some row) (m : Matched C id row' handoff') :
    Rewrites C t ((t.setOperation id row').setHandoff id handoff') id row row' handoff' :=
  ⟨hrow, m, fun _ => Tables.operations_setOperation, fun _ => Tables.handoffs_setHandoff,
    fun _ _ => rfl, rfl⟩

theorem Rewrites.operation {row row' : OperationRow} {handoff : HandoffRow}
    (hrow : t.operations[id]? = some row) (hhandoff : t.handoffs[id]? = some handoff)
    (m : Matched C id row' handoff) :
    Rewrites C t (t.setOperation id row') id row row' handoff := by
  refine ⟨hrow, m, fun _ => Tables.operations_setOperation, fun key => ?_, fun _ _ => rfl, rfl⟩
  split_ifs with h
  · rw [h]; exact hhandoff
  · rfl

theorem Rewrites.decided {row : OperationRow} {handoff : HandoffRow} {intent : IntentRow}
    (hrow : t.operations[id]? = some row) (hhandoff : t.handoffs[id]? = some handoff)
    (m : Matched C id (decidedRow intent.decidedAtMs row) handoff) :
    Rewrites C t (Journal.decidedTables t id intent row) id row
      (decidedRow intent.decidedAtMs row) handoff := by
  refine ⟨hrow, m, fun _ => Tables.operations_setOperation, fun key => ?_, fun key hkey => ?_, rfl⟩
  · split_ifs with h
    · rw [h]; exact hhandoff
    · rfl
  · exact Table.getElem?_insert.trans (if_neg hkey)

theorem Rewrites.published {row row' : OperationRow} {handoff' : HandoffRow}
    (hrow : t.operations[id]? = some row) (m : Matched C id row' handoff') :
    Rewrites C t
      { (t.setOperation id row').setHandoff id handoff' with intents := t.intents.erase id } id row
      row' handoff' :=
  ⟨hrow, m, fun _ => Tables.operations_setOperation, fun _ => Tables.handoffs_setHandoff,
    fun _ hkey => Table.getElem?_erase.trans (if_neg hkey), rfl⟩

theorem Invariant.rewrites {row row' : OperationRow} {handoff' : HandoffRow}
    (inv : Invariant C repositoryId t) (r : Rewrites C t t' id row row' handoff')
    (hscope : row'.scope = row.scope) : Invariant C repositoryId t' where
  matched key row₁ h := by
    rw [r.operations] at h
    rw [r.handoffs]
    split_ifs at h ⊢ with hkey
    · obtain rfl := Option.some.inj h
      subst hkey
      exact ⟨handoff', rfl, r.matched⟩
    · exact inv.matched key row₁ h
  repository key row₁ h := by
    rw [r.operations] at h
    split_ifs at h with hkey
    · obtain rfl := Option.some.inj h
      exact (congrArg Scope.repositoryId hscope).trans (inv.repository id row r.operation_eq)
    · exact inv.repository key row₁ h
  handoff_operation key h := by
    rw [r.operations] at h
    rw [r.handoffs]
    split_ifs at h ⊢
    exact inv.handoff_operation key h
  intent_operation key h := by
    rw [r.operations] at h
    split_ifs at h with hkey
    rw [r.intents key hkey]
    exact inv.intent_operation key h
  tombstone key row₁ h := by
    rw [r.operations] at h
    rw [r.tombstones]
    split_ifs at h with hkey
    · rw [hkey]
      exact inv.tombstone id row r.operation_eq
    · exact inv.tombstone key row₁ h
  tombstone_scope key row₁ key' tombstone h h' := by
    rw [r.operations] at h
    rw [r.tombstones] at h'
    split_ifs at h with hkey
    · obtain rfl := Option.some.inj h
      rw [hscope]
      exact inv.tombstone_scope id row key' tombstone r.operation_eq h'
    · exact inv.tombstone_scope key row₁ key' tombstone h h'

/-! ### Operations come and go -/

theorem Invariant.deleteTombstone (inv : Invariant C repositoryId t) :
    Invariant C repositoryId (t.deleteTombstone id).1 where
  matched := inv.matched
  repository := inv.repository
  handoff_operation := inv.handoff_operation
  intent_operation := inv.intent_operation
  tombstone key row h := by
    simp only [Tables.deleteTombstone, Table.getElem?_erase]
    split_ifs
    · rfl
    · exact inv.tombstone key row h
  tombstone_scope key row key' tombstone h h' := by
    simp only [Tables.deleteTombstone, Table.getElem?_erase] at h h'
    split_ifs at h'
    exact inv.tombstone_scope key row key' tombstone h h'

theorem Invariant.submit {row : OperationRow} {handoff : HandoffRow}
    (inv : Invariant C repositoryId t) (hfree : Journal.Free t id row.scope)
    (hrepository : row.repositoryId = repositoryId.str) (m : Matched C id row handoff) :
    Invariant C repositoryId ((t.setOperation id row).setHandoff id handoff) where
  matched key row₁ h := by
    rw [Tables.operations_setHandoff, Tables.operations_setOperation] at h
    rw [Tables.handoffs_setHandoff]
    split_ifs at h ⊢ with hkey
    · obtain rfl := Option.some.inj h
      subst hkey
      exact ⟨handoff, rfl, m⟩
    · exact inv.matched key row₁ h
  repository key row₁ h := by
    rw [Tables.operations_setHandoff, Tables.operations_setOperation] at h
    split_ifs at h
    · obtain rfl := Option.some.inj h
      exact hrepository
    · exact inv.repository key row₁ h
  handoff_operation key h := by
    rw [Tables.operations_setHandoff, Tables.operations_setOperation] at h
    rw [Tables.handoffs_setHandoff]
    split_ifs at h ⊢
    exact inv.handoff_operation key h
  intent_operation key h := by
    rw [Tables.operations_setHandoff, Tables.operations_setOperation] at h
    split_ifs at h
    exact inv.intent_operation key h
  tombstone key row₁ h := by
    rw [Tables.operations_setHandoff, Tables.operations_setOperation] at h
    split_ifs at h with hkey
    · rw [hkey]
      exact hfree.tombstone
    · exact inv.tombstone key row₁ h
  tombstone_scope key row₁ key' tombstone h h' := by
    rw [Tables.operations_setHandoff, Tables.operations_setOperation] at h
    split_ifs at h
    · obtain rfl := Option.some.inj h
      exact hfree.tombstone_scope key' tombstone h'
    · exact inv.tombstone_scope key row₁ key' tombstone h h'

theorem Invariant.removeOperation (inv : Invariant C repositoryId t) :
    Invariant C repositoryId (t.removeOperation id) where
  matched key row h := by
    simp only [Tables.removeOperation, Table.getElem?_erase] at h ⊢
    split_ifs at h ⊢
    exact inv.matched key row h
  repository key row h := by
    simp only [Tables.removeOperation, Table.getElem?_erase] at h
    split_ifs at h
    exact inv.repository key row h
  handoff_operation key h := by
    simp only [Tables.removeOperation, Table.getElem?_erase] at h ⊢
    split_ifs at h ⊢
    · rfl
    · exact inv.handoff_operation key h
  intent_operation key h := by
    simp only [Tables.removeOperation, Table.getElem?_erase] at h ⊢
    split_ifs at h ⊢
    · rfl
    · exact inv.intent_operation key h
  tombstone key row h := by
    simp only [Tables.removeOperation, Table.getElem?_erase] at h
    split_ifs at h
    exact inv.tombstone key row h
  tombstone_scope key row key' tombstone h h' := by
    simp only [Tables.removeOperation, Table.getElem?_erase] at h
    split_ifs at h
    exact inv.tombstone_scope key row key' tombstone h h'

/-- The triggers keep a new tombstone apart from what is live. -/
theorem Invariant.insertTombstone {tombstone : TombstoneRow} (inv : Invariant C repositoryId t)
    (h : t.insertTombstone id tombstone = .ok t') : Invariant C repositoryId t' := by
  simp only [Tables.insertTombstone, bind_eq_ok, check_eq_ok, exists_const, pure, Except.pure,
    Except.ok.injEq] at h
  obtain ⟨-, ⟨hid, hscope⟩, -, rfl⟩ := h
  refine { inv with tombstone := fun key row h => ?_, tombstone_scope := fun key row key' _ h h' => ?_ }
  · simp only [Table.getElem?_insert]
    split_ifs with hkey
    · subst hkey
      cases hid.symm.trans h
    · exact inv.tombstone key row h
  · simp only [Table.getElem?_insert] at h'
    split_ifs at h'
    · obtain rfl := Option.some.inj h'
      exact (Journal.selectOperationByScope_eq_none.1 hscope key row h).symm
    · exact inv.tombstone_scope key row key' _ h h'

/-! ### The rows before and after a call -/

/-- Every row that is there afterwards was there before, and has changed as the relation says. -/
def Keeps (R : OperationRow → OperationRow → Prop) (t t' : Tables) : Prop :=
  ∀ (id : String) (row' : OperationRow), t'.operations[id]? = some row' →
    ∃ row, t.operations[id]? = some row ∧ R row row'

section Keeps

variable {R S Q : OperationRow → OperationRow → Prop} {t₁ : Tables}

theorem Keeps.of_eq (hrefl : ∀ row, R row row) (h : t'.operations = t.operations) :
    Keeps R t t' :=
  fun _ row' h' => ⟨row', h ▸ h', hrefl row'⟩

theorem Keeps.comp (h : Keeps R t t₁) (h' : Keeps S t₁ t')
    (hcomp : ∀ a b c, R a b → S b c → Q a c) : Keeps Q t t' := by
  intro id row' hrow'
  obtain ⟨row₁, hrow₁, hS⟩ := h' id row' hrow'
  obtain ⟨row, hrow, hR⟩ := h id row₁ hrow₁
  exact ⟨row, hrow, hcomp _ _ _ hR hS⟩

theorem Keeps.mono (h : Keeps R t t') (hsub : ∀ a b, R a b → S a b) : Keeps S t t' :=
  fun id row' hrow' => (h id row' hrow').imp fun _ ⟨hrow, hR⟩ => ⟨hrow, hsub _ _ hR⟩

theorem Rewrites.keeps {row row' : OperationRow} {handoff' : HandoffRow}
    (r : Rewrites C t t' id row row' handoff') (hrefl : ∀ row, R row row) (h : R row row') :
    Keeps R t t' := by
  intro key row₁ hrow₁
  rw [r.operations] at hrow₁
  split_ifs at hrow₁ with hkey
  · obtain rfl := Option.some.inj hrow₁
    exact ⟨row, hkey ▸ r.operation_eq, h⟩
  · exact ⟨row₁, hrow₁, hrefl row₁⟩

end Keeps

/-- A loop preserves what each turn preserves. -/
theorem forEach_preserves {I : Tables → Prop} {R : Tables → Tables → Prop}
    {body : Tables → String → Except JournalError Tables} (hrefl : ∀ t, R t t)
    (htrans : ∀ a b c, R a b → R b c → R a c) (ids : List String)
    (hbody : ∀ id ∈ ids, ∀ t t', I t → body t id = .ok t' → I t' ∧ R t t') (hI : I t)
    (h : forEach body ids t = .ok t') : I t' ∧ R t t' := by
  induction ids generalizing t with
  | nil =>
    obtain rfl := Except.ok.inj h
    exact ⟨hI, hrefl _⟩
  | cons id rest ih =>
    obtain ⟨t₁, hturn, hrest⟩ := bind_eq_ok.1 h
    obtain ⟨hI₁, hR₁⟩ := hbody id List.mem_cons_self t t₁ hI hturn
    obtain ⟨hI', hR'⟩ := ih (fun key hkey => hbody key (List.mem_cons_of_mem id hkey)) hI₁ hrest
    exact ⟨hI', htrans _ _ _ hR₁ hR'⟩

theorem ended_refl (row : OperationRow) : Ended row row := Or.inl rfl

theorem oneWrite_refl (row : OperationRow) : OneWrite row row := Or.inl rfl

theorem keeps_ended_refl (t : Tables) : Keeps Ended t t := Keeps.of_eq ended_refl rfl

theorem keeps_ended_trans (a b c : Tables) (h : Keeps Ended a b) (h' : Keeps Ended b c) :
    Keeps Ended a c :=
  h.comp h' fun _ _ _ => Ended.trans

/-! ### Every call preserves the invariant -/

section Calls

variable {row : OperationRow} {handoff : HandoffRow} {nowMs : Int}

theorem FailsAt.preserves (inv : Invariant C repositoryId t)
    (h : FailsAt C t t' id row handoff nowMs) :
    Invariant C repositoryId t' ∧ Keeps Ended t t' := by
  obtain ⟨error, retainUntilMs, rfl, m⟩ := h.fails
  have r := Rewrites.both h.operation_eq m
  have hwrites : Writes row (failedRow error nowMs retainUntilMs row) :=
    Writes.failed h.allows h.updated_le
  exact ⟨inv.rewrites r rfl, r.keeps ended_refl (Or.inr ⟨hwrites, rfl⟩)⟩

theorem purgeOperation_preserves {created : Nat} (inv : Invariant C repositoryId t)
    (h : purgeOperation C t repositoryId nowMs id = .ok (t', created)) :
    Invariant C repositoryId t' ∧ Keeps Ended t t' := by
  have hkeeps : Keeps Ended t (t.removeOperation id) := by
    intro key row' h
    simp only [Tables.removeOperation, Table.getElem?_erase] at h
    split_ifs at h
    exact ⟨row', h, ended_refl row'⟩
  obtain ⟨row, -, -, -, ⟨-, rfl⟩ | ⟨tombstone, -, -, hinsert⟩⟩ := purgeOperation_ok h
  · exact ⟨inv.removeOperation, hkeeps⟩
  · refine ⟨inv.removeOperation.insertTombstone hinsert, ?_⟩
    have hoperations : t'.operations = (t.removeOperation id).operations := by
      simp only [Tables.insertTombstone, bind_eq_ok, pure, Except.pure, Except.ok.injEq] at hinsert
      obtain ⟨_, -, _, -, _, -, rfl⟩ := hinsert
      rfl
    exact keeps_ended_trans _ _ _ hkeeps (Keeps.of_eq ended_refl hoperations)

theorem purgeOperations_preserves (ids : List String) {created : Nat}
    (inv : Invariant C repositoryId t)
    (h : purgeOperations C repositoryId nowMs ids t = .ok (t', created)) :
    Invariant C repositoryId t' ∧ Keeps Ended t t' := by
  induction ids generalizing t created with
  | nil =>
    obtain rfl := congrArg Prod.fst (Except.ok.inj h)
    exact ⟨inv, keeps_ended_refl t⟩
  | cons id rest ih =>
    simp only [purgeOperations, bind_eq_ok, pure, Except.pure, Except.ok.injEq] at h
    obtain ⟨⟨t₁, _⟩, hturn, ⟨t₂, _⟩, hrest, hr⟩ := h
    obtain rfl : t₂ = t' := congrArg Prod.fst hr
    obtain ⟨inv₁, hkeeps₁⟩ := purgeOperation_preserves inv hturn
    obtain ⟨inv', hkeeps'⟩ := ih inv₁ hrest
    exact ⟨inv', keeps_ended_trans _ _ _ hkeeps₁ hkeeps'⟩

theorem purge_preserves {J : Journal C} {root : RootSeal} {guardAcquired : Bool}
    {report : PurgeReport} (hJ : J.repositoryId = repositoryId) (inv : Invariant C repositoryId t)
    (h : J.purge t root guardAcquired nowMs = .ok (t', report)) :
    Invariant C repositoryId t' ∧ Keeps Ended t t' := by
  subst hJ
  simp only [Journal.purge, bind_eq_ok, validateTimestamp_eq_ok, exists_const] at h
  obtain ⟨-, h⟩ := h
  split_ifs at h
  · simp only [bind_eq_ok, validateTransactionRoot_eq_ok, exists_const,
      commitAuthorized_eq_ok] at h
    obtain ⟨error, -, -, t₁, hreap, ⟨t₂, _⟩, hpurge, t₃, htombstones, -, hr⟩ := h
    obtain rfl : t' = t₃ := congrArg Prod.fst hr
    obtain ⟨inv₁, hkeeps₁⟩ := forEach_preserves keeps_ended_refl keeps_ended_trans _
      (fun id _ t t' inv h => by
        obtain ⟨row, handoff, -, hfails⟩ := reapOperation_ok h
        exact hfails.preserves inv) inv hreap
    obtain ⟨inv₂, hkeeps₂⟩ := purgeOperations_preserves _ inv₁ hpurge
    obtain ⟨inv₃, hkeeps₃⟩ := forEach_preserves keeps_ended_refl keeps_ended_trans _
      (fun id _ t t' inv h => by
        obtain ⟨_, -, -, rfl⟩ := purgeTombstone_ok h
        exact ⟨inv.deleteTombstone, Keeps.of_eq ended_refl rfl⟩) inv₂ htombstones
    exact ⟨inv₃, keeps_ended_trans _ _ _ (keeps_ended_trans _ _ _ hkeeps₁ hkeeps₂) hkeeps₃⟩
  · obtain rfl := congrArg Prod.fst (Except.ok.inj h)
    exact ⟨inv, keeps_ended_refl t⟩

theorem claim_preserves {J : Journal C} {root : RootSeal} {requested : LogicalRepositoryId}
    {owner : LeaseOwner} {leaseToken : List UInt8} {leaseExpiresAtMs : Int}
    {claimed : Option (OperationRecord × RunnerHandoff)} (inv : Invariant C repositoryId t)
    (h : J.claimNextRunnerHandoff t root requested owner leaseToken nowMs leaseExpiresAtMs =
      .ok (t', claimed)) : Invariant C repositoryId t' ∧ Keeps OneWrite t t' := by
  obtain ⟨-, -, t₁, hlost, hclaim⟩ := Journal.claimNextRunnerHandoff_ok h
  obtain ⟨inv₁, hkeeps₁⟩ : Invariant C repositoryId t₁ ∧ Keeps Ended t t₁ := by
    rcases hlost with rfl | ⟨-, hlost⟩
    · exact ⟨inv, keeps_ended_refl _⟩
    · refine forEach_preserves keeps_ended_refl keeps_ended_trans _ (fun id _ t t' inv h => ?_)
        inv hlost
      obtain ⟨row, handoff, -, hfails⟩ := failLost_ok h
      exact hfails.preserves inv
  rcases hclaim with rfl | ⟨id, row, hrow, -, hclaim⟩
  · exact ⟨inv₁, hkeeps₁.mono fun _ _ => Ended.oneWrite⟩
  · obtain ⟨handoff, -, -, hupdated, hactive, -, expiresAtMs, -, -, rfl, m⟩ :=
      Journal.claimCandidate_ok hrow hclaim
    have r := Rewrites.both hrow m
    exact ⟨inv₁.rewrites r rfl, hkeeps₁.comp
      (r.keeps oneWrite_refl (Or.inr (Writes.leased hactive hupdated))) fun _ _ _ => Ended.write⟩

end Calls

/-- `cancel_before_launch` takes a queued operation through `cancelling` to `cancelled`. -/
structure Withdraws (call : Call C) (id : String) (row row' : OperationRow) : Prop where
  call_eq : ∃ requested operationId capabilities,
    call = .cancelBeforeLaunch requested operationId capabilities ∧ operationId.str = id
  before : row.status = .queued
  after : row'.status = .cancelled
  advances : Advances row row'

/-- What a call does to a row: one write, or the two of a withdrawal. -/
def CallWrites (call : Call C) (id : String) (row row' : OperationRow) : Prop :=
  OneWrite row row' ∨ Withdraws call id row row'

/-- A call does this to every row that is there before and afterwards. -/
def CallKeeps (call : Call C) (t t' : Tables) : Prop :=
  ∀ (id : String) (row row' : OperationRow), t.operations[id]? = some row →
    t'.operations[id]? = some row' → CallWrites call id row row'

section Call

variable {call : Call C} {J : Journal C} {root : RootSeal} {nowMs : Int}

theorem CallKeeps.refl : CallKeeps call t t := fun _ row row' h h' => by
  obtain rfl := Option.some.inj (h.symm.trans h')
  exact Or.inl (oneWrite_refl row)

theorem Keeps.callKeeps {R : OperationRow → OperationRow → Prop} (h : Keeps R t t')
    (hR : ∀ a b, R a b → OneWrite a b) : CallKeeps call t t' := fun id row row' hrow hrow' => by
  obtain ⟨row₀, hrow₀, hR₀⟩ := h id row' hrow'
  obtain rfl := Option.some.inj (hrow.symm.trans hrow₀)
  exact Or.inl (hR _ _ hR₀)

theorem Invariant.write {row row' : OperationRow} {handoff' : HandoffRow}
    (inv : Invariant C repositoryId t) (r : Rewrites C t t' id row row' handoff')
    (h : Writes row row') : Invariant C repositoryId t' ∧ CallKeeps call t t' :=
  ⟨inv.rewrites r h.scope, (r.keeps oneWrite_refl (Or.inr h)).callKeeps fun _ _ h => h⟩

theorem submit_preserves {request : SubmitRequest C} {randomBytes : Option (Vector UInt8 16)}
    {outcome : SubmitOutcome} (hJ : J.repositoryId = repositoryId)
    (inv : Invariant C repositoryId t)
    (h : J.submit t root request randomBytes nowMs = .ok (t', outcome)) :
    Invariant C repositoryId t' ∧ CallKeeps call t t' := by
  rcases Journal.submit_ok h with ⟨rfl, -⟩ |
    ⟨t₁, id, _, _, _, _, handoff, -, -, ht₁, hfree, hrepository, rfl, m⟩
  · exact ⟨inv, .refl⟩
  · obtain ⟨inv₁, hoperations⟩ : Invariant C repositoryId t₁ ∧ t₁.operations = t.operations := by
      rcases ht₁ with rfl | ⟨key, _, -, -, rfl⟩
      · exact ⟨inv, rfl⟩
      · exact ⟨inv.deleteTombstone, rfl⟩
    refine ⟨inv₁.submit hfree (congrArg LogicalRepositoryId.str (hrepository.trans hJ)) m,
      fun key row₁ row₂ h₁ h₂ => ?_⟩
    rw [Tables.operations_setHandoff, Tables.operations_setOperation, hoperations] at h₂
    split_ifs at h₂ with hkey
    · have hnone := hfree.operation
      rw [hoperations, ← hkey, h₁] at hnone
      cases hnone
    · obtain rfl := Option.some.inj (h₁.symm.trans h₂)
      exact Or.inl (oneWrite_refl row₁)

theorem cancelBeforeLaunch_preserves {requested : LogicalRepositoryId} {id : OperationId}
    {capabilities : CapabilitySet} {outcome : CancelOutcome} (inv : Invariant C repositoryId t)
    (h : J.cancelBeforeLaunch t root requested id capabilities nowMs = .ok (t', outcome)) :
    Invariant C repositoryId t' ∧
      CallKeeps (.cancelBeforeLaunch (C := C) requested id capabilities) t t' := by
  rcases Journal.cancelBeforeLaunch_ok h with rfl | ⟨row, handoff, ⟨s, -, hdeadline, -⟩, -, h⟩
  · exact ⟨inv, .refl⟩
  · rcases h with ⟨hrunning, rfl⟩ | ⟨hqueued, rfl, m⟩
    · have m := s.matched.cancelling (Or.inr hrunning) s.updated_le hdeadline
      exact inv.write (.operation s.operation_eq s.handoff_eq m)
        (Writes.cancelling (Or.inr hrunning) s.updated_le)
    · have r := Rewrites.both s.operation_eq m
      refine ⟨inv.rewrites r rfl, fun key row₁ row₂ h₁ h₂ => ?_⟩
      rw [r.operations] at h₂
      split_ifs at h₂ with hkey
      · subst hkey
        obtain rfl := Option.some.inj (s.operation_eq.symm.trans h₁)
        obtain rfl := Option.some.inj h₂
        have hwrites := Writes.cancelling (Or.inl hqueued) s.updated_le
        exact Or.inr ⟨⟨_, _, _, rfl, rfl⟩, hqueued, rfl,
          hwrites.advances.trans Writes.cancelled.advances⟩
      · obtain rfl := Option.some.inj (h₁.symm.trans h₂)
        exact Or.inl (oneWrite_refl row₁)

theorem finish_preserves {requested : LogicalRepositoryId} {id : OperationId}
    {leaseToken : List UInt8} {payload : FinishPayload} {record : OperationRecord}
    (inv : Invariant C repositoryId t)
    (h : J.finish t root requested id leaseToken payload nowMs = .ok (t', record)) :
    Invariant C repositoryId t' ∧ CallKeeps call t t' := by
  obtain ⟨row, handoff, a, -, -, hallows, rfl, m⟩ := Journal.finish_ok h
  exact inv.write (.both a.stored.operation_eq m)
    (Writes.ended a.stored.matched.rowValid hallows a.stored.updated_le)

/-- **Every call preserves the invariant**, and writes each row at most once, or withdraws it. -/
theorem apply_preserves (hJ : J.repositoryId = repositoryId) (inv : Invariant C repositoryId t)
    (h : J.apply root nowMs t call = .ok t') :
    Invariant C repositoryId t' ∧ CallKeeps call t t' := by
  cases call with
  | submit request randomBytes =>
    obtain ⟨outcome, h⟩ := map_fst_eq_ok.1 h
    exact submit_preserves hJ inv h
  | cancel requested id capabilities shouldCommit =>
    obtain ⟨outcome, h⟩ := map_fst_eq_ok.1 h
    rcases Journal.cancel_ok h with rfl | ⟨row, handoff, ⟨s, -, hdeadline, -⟩, -, hstatus, rfl⟩
    · exact ⟨inv, .refl⟩
    · exact inv.write
        (.operation s.operation_eq s.handoff_eq (s.matched.cancelling hstatus s.updated_le hdeadline))
        (Writes.cancelling hstatus s.updated_le)
  | cancelBeforeLaunch requested id capabilities =>
    obtain ⟨outcome, h⟩ := map_fst_eq_ok.1 h
    exact cancelBeforeLaunch_preserves inv h
  | acquireLease requested id owner leaseToken leaseExpiresAtMs =>
    obtain ⟨record, h⟩ := map_fst_eq_ok.1 h
    obtain ⟨row, handoff, a, -, hactive, -, rfl, m⟩ := Journal.acquireLease_ok h
    exact inv.write (.both a.stored.operation_eq m) (Writes.leased hactive a.stored.updated_le)
  | claimNextRunnerHandoff requested owner leaseToken leaseExpiresAtMs =>
    obtain ⟨claimed, h⟩ := map_fst_eq_ok.1 h
    obtain ⟨inv', hkeeps⟩ := claim_preserves inv h
    exact ⟨inv', hkeeps.callKeeps fun _ _ h => h⟩
  | renewLease requested id leaseToken leaseExpiresAtMs =>
    obtain ⟨record, h⟩ := map_fst_eq_ok.1 h
    obtain ⟨row, handoff, a, ⟨lease, hlease, -⟩, -, rfl, m⟩ := Journal.renewLease_ok h
    have hactive := (a.stored.matched.rowValid.lease_bound hlease).1
    exact inv.write (.operation a.stored.operation_eq a.stored.handoff_eq m)
      ⟨hactive, rfl, rfl, a.stored.updated_le, le_rfl, Or.inl rfl, Or.inl rfl⟩
  | releaseLease requested id leaseToken =>
    obtain ⟨record, h⟩ := map_fst_eq_ok.1 h
    obtain ⟨row, handoff, a, -, hactive, rfl, m⟩ := Journal.releaseLease_ok h
    exact inv.write (.operation a.stored.operation_eq a.stored.handoff_eq m)
      ⟨hactive, rfl, rfl, a.stored.updated_le, le_rfl, Or.inl rfl, Or.inl rfl⟩
  | updateProgress requested id leaseToken progress =>
    obtain ⟨record, h⟩ := map_fst_eq_ok.1 h
    obtain ⟨row, handoff, a, -, hstatus, hcompleted, htotal, rfl, m⟩ := Journal.updateProgress_ok h
    have hactive : row.status.isTerminal = false := by
      rcases hstatus with hs | hs <;> rw [hs] <;> rfl
    exact inv.write (.operation a.stored.operation_eq a.stored.handoff_eq m)
      ⟨hactive, rfl, rfl, a.stored.updated_le, hcompleted,
        htotal.imp_right fun ⟨hkind, hone, hzero, hstart, hlt⟩ =>
          ⟨hkind, hone, hzero, Int.ofNat_eq_zero.2 hstart, Int.ofNat_lt.2 hlt⟩, Or.inl rfl⟩
  | complete requested id leaseToken result =>
    obtain ⟨record, h⟩ := map_fst_eq_ok.1 h
    exact finish_preserves inv h
  | fail requested id leaseToken error =>
    obtain ⟨record, h⟩ := map_fst_eq_ok.1 h
    exact finish_preserves inv h
  | markCancelled requested id leaseToken =>
    obtain ⟨record, h⟩ := map_fst_eq_ok.1 h
    exact finish_preserves inv h
  | commitCompletionIntent requested id leaseToken result =>
    obtain ⟨decision, h⟩ := map_fst_eq_ok.1 h
    obtain ⟨row, handoff, a, -, ⟨-, rfl⟩ | ⟨-, hrunning, -, rfl⟩⟩ :=
      Journal.commitCompletionIntent_ok h
    · exact ⟨inv, .refl⟩
    · have hactive : row.status.isTerminal = false := by rw [hrunning]; rfl
      have m := a.stored.matched.decided hactive a.stored.updated_le a.before_deadline
      exact inv.write (.decided a.stored.operation_eq a.stored.handoff_eq m)
        (Writes.decided hactive a.stored.updated_le)
  | finishCompletionIntent requested id =>
    obtain ⟨record, h⟩ := map_fst_eq_ok.1 h
    obtain ⟨row, handoff, intent, s, -, d, rfl, m⟩ := Journal.finishCompletionIntent_ok h
    rw [Journal.publishedTables]
    exact inv.write (.published s.operation_eq m)
      (d.updated ▸ Writes.published s.matched.rowValid d.running)
  | failDeadline requested id runnerCleanupCompleted =>
    obtain ⟨record, h⟩ := map_fst_eq_ok.1 h
    obtain ⟨-, row, handoff, -, hfails⟩ := Journal.failDeadline_ok h
    obtain ⟨inv', hkeeps⟩ := hfails.preserves inv
    exact ⟨inv', hkeeps.callKeeps fun _ _ => Ended.oneWrite⟩
  | purge guardAcquired =>
    obtain ⟨report, h⟩ := map_fst_eq_ok.1 h
    obtain ⟨inv', hkeeps⟩ := purge_preserves hJ inv h
    exact ⟨inv', hkeeps.callKeeps fun _ _ => Ended.oneWrite⟩

end Call

end Operation
