import Depgraph.Operation.Edit

/-!
# The scope of an operation

From its submission on an operation holds its idempotency scope: first by its row, then by the
tombstone that a purge leaves, until the tombstone's time is over.

* `ScopesUnique`: no two operations, and no two tombstones, have the same scope.
* `Reserved` is what a purge leaves of an operation, and `live_or_removed` follows an operation
  through a run.
* `submit_live` and `submit_reserved` are a repeated submission before and after the removal.
-/

namespace Operation

open Protocol Fallible TimedRun

section

variable {C : Codec} {repositoryId : LogicalRepositoryId} {t t' : Tables} {id : String}
  {nowMs : Int} {call : Call C} {row row' : OperationRow}

/-! ### Scopes are unique -/

/-- No two operations and no two tombstones have the same scope. -/
structure ScopesUnique (t : Tables) : Prop where
  operation : ∀ (id key : String) (row other : OperationRow), t.operations[id]? = some row →
    t.operations[key]? = some other → row.scope = other.scope → id = key
  tombstone : ∀ (id key : String) (row other : TombstoneRow), t.tombstones[id]? = some row →
    t.tombstones[key]? = some other → row.scope = other.scope → id = key

theorem ScopesUnique.empty : ScopesUnique Tables.empty where
  operation _ _ _ _ h := by simp [Tables.empty] at h
  tombstone _ _ _ _ h := by simp [Tables.empty] at h

theorem Rewrites.keeps_scope {handoff' : HandoffRow} (r : Rewrites C t t' id row row' handoff')
    (h : RowEdit C t nowMs call row row') : Keeps (fun a b => b.scope = a.scope) t t' :=
  r.keeps (fun _ => rfl) h.sameInput.scope

theorem Removes.keeps_scope (h : Removes C t t' nowMs id row) :
    Keeps (fun a b => b.scope = a.scope) t t' := fun key row₁ h₁ => by
  rw [h.operations] at h₁
  split_ifs at h₁
  exact ⟨row₁, h₁, rfl⟩

/-- A removal leaves the tombstones alone, or adds one whose identifier and scope are new. -/
theorem Removes.tombstones (h : Removes C t t' nowMs id row) :
    (row.retainUntilMs + tombstoneRetentionMs ≤ nowMs ∧ t'.tombstones = t.tombstones) ∨
      ∃ tombstone : TombstoneRow, Buries C id row tombstone ∧ t.tombstones[id]? = none ∧
        (∀ (key : String) (other : TombstoneRow), t.tombstones[key]? = some other →
          other.scope ≠ tombstone.scope) ∧
        t'.tombstones = t.tombstones.insert id tombstone := by
  rcases h with ⟨helapsed, rfl⟩ | ⟨tombstone, hburies, -, hinsert⟩
  · exact Or.inl ⟨helapsed, rfl⟩
  · simp only [Tables.insertTombstone, bind_eq_ok, check_eq_ok, pure, Except.pure,
      Except.ok.injEq] at hinsert
    obtain ⟨_, ⟨hid, hscope⟩, _, -, _, -, rfl⟩ := hinsert
    exact Or.inr ⟨tombstone, hburies, hid, Journal.selectTombstoneByScope_eq_none.1 hscope, rfl⟩

theorem ScopesUnique.operation_of_keeps (u : ScopesUnique t)
    (h : Keeps (fun a b => b.scope = a.scope) t t') (id key : String) (row other : OperationRow)
    (hrow : t'.operations[id]? = some row) (hother : t'.operations[key]? = some other)
    (hscope : row.scope = other.scope) : id = key := by
  obtain ⟨row₀, hrow₀, hrow_scope⟩ := h id row hrow
  obtain ⟨other₀, hother₀, hother_scope⟩ := h key other hother
  exact u.operation id key row₀ other₀ hrow₀ hother₀ (hrow_scope ▸ hother_scope ▸ hscope)

/-- Adding a tombstone with a new scope keeps the scopes of the tombstones apart. -/
theorem ScopesUnique.tombstone_of_insert (u : ScopesUnique t) {tombstone : TombstoneRow}
    (hfresh : ∀ (key : String) (other : TombstoneRow), t.tombstones[key]? = some other →
      other.scope ≠ tombstone.scope) (key key' : String) (row other : TombstoneRow)
    (hrow : (t.tombstones.insert id tombstone)[key]? = some row)
    (hother : (t.tombstones.insert id tombstone)[key']? = some other)
    (hscope : row.scope = other.scope) : key = key' := by
  rw [Table.getElem?_insert] at hrow hother
  split_ifs at hrow hother with hkey hkey' hkey'
  · rw [hkey, hkey']
  · obtain rfl := Option.some.inj hrow
    exact absurd hscope.symm (hfresh key' other hother)
  · obtain rfl := Option.some.inj hother
    exact absurd hscope (hfresh key row hrow)
  · exact u.tombstone key key' row other hrow hother hscope

theorem Edit.scopesUnique (h : Edit C nowMs call t t') (u : ScopesUnique t) :
    ScopesUnique t' := by
  cases h with
  | rewrite id row row' handoff' rewrites valid edit =>
    refine ⟨u.operation_of_keeps (rewrites.keeps_scope edit), ?_⟩
    rw [rewrites.tombstones]
    exact u.tombstone
  | submit request randomBytes id json completed total retainUntilMs handoff called free matched =>
    refine ⟨fun key key' row other hrow hother hscope => ?_, u.tombstone⟩
    rw [Tables.operations_setHandoff, Tables.operations_setOperation] at hrow hother
    split_ifs at hrow hother with hkey hkey' hkey'
    · rw [hkey, hkey']
    · obtain rfl := Option.some.inj hrow
      exact absurd hscope.symm (free.operation_scope key' other hother)
    · obtain rfl := Option.some.inj hother
      exact absurd hscope (free.operation_scope key row hrow)
    · exact u.operation key key' row other hrow hother hscope
  | remove id row called found terminal elapsed removes =>
    refine ⟨u.operation_of_keeps removes.keeps_scope, ?_⟩
    rcases removes.tombstones with ⟨-, heq⟩ | ⟨tombstone, -, -, hfresh, heq⟩
    · rw [heq]
      exact u.tombstone
    · rw [heq]
      exact u.tombstone_of_insert hfresh
  | dropTombstone id =>
    refine ⟨u.operation, fun key key' row other hrow hother hscope => ?_⟩
    simp only [Tables.deleteTombstone, Table.getElem?_erase] at hrow hother
    split_ifs at hrow hother
    exact u.tombstone key key' row other hrow hother hscope

theorem Reachable.scopesUnique {c : Config Int Tables} (h : Reachable C repositoryId c) :
    ScopesUnique c.state := by
  obtain ⟨start, hrun⟩ := h
  exact hrun.invariant .empty fun _ _ _ _ hstep u =>
    hstep.edits.invariant u fun _ _ => Edit.scopesUnique

theorem ScopesUnique.selectOperation (u : ScopesUnique t) (hrow : t.operations[id]? = some row) :
    t.selectOperationByScope row.scope = some (id, row) := by
  cases hselect : t.selectOperationByScope row.scope with
  | none => exact absurd rfl (Journal.selectOperationByScope_eq_none.1 hselect id row hrow)
  | some entry =>
    have hfound := Table.mem_toList.1 (List.mem_of_find?_eq_some hselect)
    have hscope : entry.2.scope = row.scope := by simpa using List.find?_some hselect
    obtain rfl := u.operation id entry.1 row entry.2 hrow hfound hscope.symm
    obtain rfl := Option.some.inj (hrow.symm.trans hfound)
    rfl

theorem ScopesUnique.selectTombstone (u : ScopesUnique t) {tombstone : TombstoneRow}
    (hfound : t.tombstones[id]? = some tombstone) :
    t.selectTombstoneByScope tombstone.scope = some (id, tombstone) := by
  cases hselect : t.selectTombstoneByScope tombstone.scope with
  | none => exact absurd rfl (Journal.selectTombstoneByScope_eq_none.1 hselect id tombstone hfound)
  | some entry =>
    have hentry := Table.mem_toList.1 (List.mem_of_find?_eq_some hselect)
    have hscope : entry.2.scope = tombstone.scope := by simpa using List.find?_some hselect
    obtain rfl := u.tombstone id entry.1 tombstone entry.2 hfound hentry hscope.symm
    obtain rfl := Option.some.inj (hfound.symm.trans hentry)
    rfl

/-! ### What a purge leaves -/

variable (C) in
/-- What is left of a removed operation: its tombstone, until the tombstone's time is over. -/
def Reserved (id : String) (row : OperationRow) (nowMs : Int) (t : Tables) : Prop :=
  row.retainUntilMs + tombstoneRetentionMs ≤ nowMs ∨
    ∃ tombstone, t.tombstones[id]? = some tombstone ∧ Buries C id row tombstone

theorem Buries.of_sameInput {tombstone : TombstoneRow} (h : Buries C id row' tombstone)
    (hsame : SameInput row row') (hretain : row'.retainUntilMs = row.retainUntilMs) :
    Buries C id row tombstone where
  scope := h.scope.trans hsame.scope
  input := h.input.trans hsame.inputDigest
  capabilities := by
    rw [h.capabilities, show row'.kind = row.kind from congrArg Scope.kind hsame.scope]
  expired := h.expired.trans hretain
  until_eq := h.until_eq.trans (by rw [hretain])
  valid := h.valid

theorem Edit.reserved (h : Edit C nowMs call t t') (hreserved : Reserved C id row nowMs t) :
    Reserved C id row nowMs t' := by
  rcases hreserved with hover | ⟨tombstone, hfound, hburies⟩
  · exact Or.inl hover
  · cases h with
    | rewrite key row₁ row₂ handoff' rewrites valid edit =>
      exact Or.inr ⟨tombstone, rewrites.tombstones ▸ hfound, hburies⟩
    | submit => exact Or.inr ⟨tombstone, hfound, hburies⟩
    | remove key row₁ called found terminal elapsed removes =>
      refine Or.inr ⟨tombstone, ?_, hburies⟩
      rcases removes.tombstones with ⟨-, heq⟩ | ⟨other, -, hnone, -, heq⟩
      · rw [heq]
        exact hfound
      · rw [heq, Table.getElem?_insert]
        split_ifs with hkey
        · rw [hkey, hnone] at hfound
          cases hfound
        · exact hfound
    | dropTombstone key other found elapsed =>
      by_cases hkey : id = key
      · subst hkey
        obtain rfl := Option.some.inj (hfound.symm.trans found)
        exact Or.inl (hburies.until_eq ▸ elapsed)
      · exact Or.inr ⟨tombstone, Table.getElem?_erase.trans ((if_neg hkey).trans hfound), hburies⟩

theorem Reserved.mono {nowMs' : Int} (h : Reserved C id row nowMs t) (hnow : nowMs ≤ nowMs') :
    Reserved C id row nowMs' t :=
  h.imp_left fun h => h.trans hnow

/-- What a purge has left stays for a whole run. -/
theorem Reserved.run {c c' : Config Int Tables} (h : Reserved C id row c.now c.state)
    (hrun : Run (Steps (C := C) repositoryId) c c') : Reserved C id row c'.now c'.state :=
  hrun.invariant_at (I := Reserved C id row) h fun _ _ _ _ _ hnow hstep h =>
    hstep.edits.invariant (h.mono hnow) fun _ _ => Edit.reserved

/-! ### An operation in the course of a run -/

/-- The retention of an operation has passed, and it has ended or its deadline has passed. -/
structure Over (row : OperationRow) (nowMs : Int) : Prop where
  elapsed : row.retainUntilMs ≤ nowMs
  ended : row.status.isTerminal = true ∨ row.executionDeadlineMs ≤ nowMs

/-- A purge leaves a row as it is, or fails its operation at the deadline. -/
def PurgeKeeps (nowMs : Int) (row row' : OperationRow) : Prop :=
  row' = row ∨ (row.status.isTerminal = false ∧ row.executionDeadlineMs ≤ nowMs ∧
    ∃ error, row' = failedRow error row.executionDeadlineMs row.retainUntilMs row)

theorem PurgeKeeps.retain_eq (h : PurgeKeeps nowMs row row') :
    row'.retainUntilMs = row.retainUntilMs := by
  rcases h with rfl | ⟨-, -, error, rfl⟩ <;> rfl

theorem PurgeKeeps.over (h : PurgeKeeps nowMs row row') (hterminal : row'.status.isTerminal = true)
    (helapsed : row'.retainUntilMs ≤ nowMs) : Over row nowMs := by
  refine ⟨h.retain_eq ▸ helapsed, ?_⟩
  rcases h with rfl | ⟨-, hdeadline, -⟩
  · exact Or.inl hterminal
  · exact Or.inr hdeadline

theorem RowEdit.purgeKeeps {guardAcquired : Bool} {row₀ : OperationRow}
    (h : RowEdit C t nowMs (.purge guardAcquired) row row') (hkeeps : PurgeKeeps nowMs row₀ row) :
    PurgeKeeps nowMs row₀ row' := by
  cases h with
  | deadline error active elapsed =>
    rcases hkeeps with rfl | ⟨-, -, error', rfl⟩
    · exact Or.inr ⟨active, elapsed, error, rfl⟩
    · -- What has failed is not failed again.
      cases active
  | lease _ _ _ presents | renew _ _ presents | release _ presents | progress _ _ _ presents
  | finish _ _ presents | decide _ presents | lost _ _ presents => cases presents
  | cancel cancels => cases cancels
  | withdraw withdraws => cases withdraws
  | publish _ _ _ publishes => cases publishes

variable (C) in
/-- Where an operation is in the course of a call that has found it with a row. -/
def InCall (nowMs : Int) (call : Call C) (id : String) (row : OperationRow) (t : Tables) : Prop :=
  (∃ row', t.operations[id]? = some row' ∧ SameInput row row' ∧
    ∀ guardAcquired, call = .purge guardAcquired → PurgeKeeps nowMs row row') ∨
  (call = .purge true ∧ t.operations[id]? = none ∧ Over row nowMs ∧ Reserved C id row nowMs t)

theorem Edit.inCall (h : Edit C nowMs call t t') (hin : InCall C nowMs call id row t) :
    InCall C nowMs call id row t' := by
  rcases hin with ⟨row', hrow', hsame, hpurge⟩ | ⟨hcall, hnone, hover, hreserved⟩
  · cases h with
    | rewrite key row₁ row₂ handoff' rewrites valid edit =>
      by_cases hkey : id = key
      · subst hkey
        obtain rfl := Option.some.inj (hrow'.symm.trans rewrites.operation_eq)
        refine Or.inl ⟨row₂, by rw [rewrites.operations, if_pos rfl],
          hsame.trans edit.sameInput, fun guardAcquired hcall => ?_⟩
        have hkeeps := hpurge guardAcquired hcall
        subst hcall
        exact edit.purgeKeeps hkeeps
      · exact Or.inl ⟨row', by rw [rewrites.operations, if_neg hkey, hrow'], hsame, hpurge⟩
    | submit request randomBytes key json completed total retainUntilMs handoff called free =>
      have hkey : id ≠ key := fun hkey => by cases (hkey ▸ free.operation).symm.trans hrow'
      exact Or.inl ⟨row', Tables.operations_setOperation.trans ((if_neg hkey).trans hrow'), hsame,
        hpurge⟩
    | remove key row₁ called found terminal elapsed removes =>
      by_cases hkey : id = key
      · subst hkey
        obtain rfl := Option.some.inj (hrow'.symm.trans found)
        have hkeeps := hpurge true called
        have hretain := hkeeps.retain_eq
        refine Or.inr ⟨called, by rw [removes.operations, if_pos rfl],
          hkeeps.over terminal elapsed, ?_⟩
        rcases removes.tombstones with ⟨hover, -⟩ | ⟨tombstone, hburies, -, -, heq⟩
        · exact Or.inl (hretain ▸ hover)
        · exact Or.inr ⟨tombstone, by rw [heq, Table.getElem?_insert, if_pos rfl],
            hburies.of_sameInput hsame hretain⟩
      · exact Or.inl ⟨row', by rw [removes.operations, if_neg hkey, hrow'], hsame, hpurge⟩
    | dropTombstone => exact Or.inl ⟨row', hrow', hsame, hpurge⟩
  · refine Or.inr ⟨hcall, ?_, hover, h.reserved hreserved⟩
    subst hcall
    cases h with
    | rewrite key row₁ row₂ handoff' rewrites valid edit =>
      have hkey : id ≠ key := fun hkey => by cases (hkey ▸ hnone).symm.trans rewrites.operation_eq
      rw [rewrites.operations, if_neg hkey, hnone]
    | submit request randomBytes key json completed total retainUntilMs handoff called =>
      cases called
    | remove key row₁ called found terminal elapsed removes =>
      rw [removes.operations, hnone, ite_self]
    | dropTombstone => exact hnone

/-- An operation that a purge removes has ended before the call, or the purge fails it at its deadline
first. -/
def EndedFor (row removed : OperationRow) : Prop :=
  (row.status.isTerminal = true ∧ removed = row) ∨
    (row.status.isTerminal = false ∧
      ∃ error, removed = failedRow error row.executionDeadlineMs row.retainUntilMs row)

theorem PurgeKeeps.endedFor (h : PurgeKeeps nowMs row row')
    (hterminal : row'.status.isTerminal = true) : EndedFor row row' := by
  rcases h with rfl | ⟨hactive, -, hfails⟩
  · exact Or.inl ⟨hterminal, rfl⟩
  · exact Or.inr ⟨hactive, hfails⟩

/-- **A purge removes an operation after it has ended**, before the call or in it. -/
theorem Edits.endedFor {guardAcquired : Bool} (hrow : t.operations[id]? = some row)
    (h : Edits C nowMs (.purge guardAcquired) t t') :
    (∃ row', t'.operations[id]? = some row' ∧ PurgeKeeps nowMs row row') ∨
      ∃ t₁ removed, Edits C nowMs (.purge guardAcquired) t t₁ ∧
        t₁.operations[id]? = some removed ∧ EndedFor row removed ∧
          Edits C nowMs (.purge guardAcquired) t₁ t' := by
  induction h with
  | refl => exact Or.inl ⟨row, hrow, Or.inl rfl⟩
  | @tail t₁ t₂ hedits hedit ih =>
    rcases ih with ⟨row', hrow', hkeeps⟩ | ⟨t₀, removed, hbefore, hremoved, hended, hafter⟩
    · cases hedit with
      | rewrite key row₁ row₂ handoff' rewrites valid edit =>
        by_cases hkey : id = key
        · subst hkey
          obtain rfl := Option.some.inj (hrow'.symm.trans rewrites.operation_eq)
          exact Or.inl ⟨row₂, by rw [rewrites.operations, if_pos rfl], edit.purgeKeeps hkeeps⟩
        · exact Or.inl ⟨row', by rw [rewrites.operations, if_neg hkey, hrow'], hkeeps⟩
      | submit request randomBytes key json completed total retainUntilMs handoff called => cases called
      | remove key row₁ called found terminal elapsed removes =>
        by_cases hkey : id = key
        · subst hkey
          obtain rfl := Option.some.inj (hrow'.symm.trans found)
          exact Or.inr ⟨t₁, row', hedits, hrow', hkeeps.endedFor terminal,
            .single (.remove id row' called found terminal elapsed removes)⟩
        · exact Or.inl ⟨row', by rw [removes.operations, if_neg hkey, hrow'], hkeeps⟩
      | dropTombstone => exact Or.inl ⟨row', hrow', hkeeps⟩
    · exact Or.inr ⟨t₀, removed, hbefore, hremoved, hended, hafter.tail hedit⟩

/-- The operation is still there after the run from `c₀` to `c`, with this row. -/
structure StillThere (C : Codec) (repositoryId : LogicalRepositoryId) (id : String)
    (c₀ c : Config Int Tables) (row : OperationRow) : Prop where
  run : Run (LiveSteps (C := C) repositoryId id) c₀ c
  found : c.state.operations[id]? = some row

/-- The operation has been removed between `c₀` and `c` by a purge that found it with this row,
after its retention had passed. -/
structure RemovedSince (C : Codec) (repositoryId : LogicalRepositoryId) (id : String)
    (c₀ c : Config Int Tables) (row : OperationRow) : Prop where
  removed : ∃ (c₁ c₂ : Config Int Tables) (event : Event C),
    StillThere C repositoryId id c₀ c₁ row ∧ c₁.now ≤ c₂.now ∧
    Steps repositoryId c₂.now event c₁.state c₂.state ∧ event.call = .purge true ∧
    c₂.state.operations[id]? = none ∧ Over row c₂.now ∧
    Run (Steps (C := C) repositoryId) c₂ c

/-- **An operation is there, or a purge has removed it and what it left still holds.** -/
theorem stillThere_or_removedSince {c₀ c : Config Int Tables} {row₀ : OperationRow}
    (hrow₀ : c₀.state.operations[id]? = some row₀)
    (hrun : Run (Steps (C := C) repositoryId) c₀ c) :
    (∃ row, StillThere C repositoryId id c₀ c row ∧ SameInput row₀ row) ∨
      ∃ row, RemovedSince C repositoryId id c₀ c row ∧ SameInput row₀ row ∧
        Reserved C id row c.now c.state := by
  induction hrun with
  | refl => exact Or.inl ⟨row₀, ⟨.refl, hrow₀⟩, .refl row₀⟩
  | @tail c₁ c₂ hrun hnext ih =>
    rcases ih with ⟨row, hthere, hsame⟩ | ⟨row, ⟨c₃, c₄, event, hthere, hnow, hsteps, hcall, hnone,
      hover, hrest⟩, hsame, hreserved⟩
    · obtain ⟨event, hsteps⟩ := hnext.takes
      have hin : InCall C c₂.now event.call id row c₂.state :=
        hsteps.edits.invariant
          (Or.inl ⟨row, hthere.found, .refl row, fun _ _ => Or.inl rfl⟩)
          fun _ _ => Edit.inCall
      rcases hin with ⟨row', hrow', hsame', -⟩ | ⟨hcall, hnone, hover, hreserved⟩
      · refine Or.inl ⟨row', ⟨hthere.run.tail ⟨hnext.now_le, event, hsteps, ?_, ?_⟩, hrow'⟩,
          hsame.trans hsame'⟩
        · rw [hthere.found]; exact Option.some_ne_none _
        · rw [hrow']; exact Option.some_ne_none _
      · exact Or.inr ⟨row, ⟨_, _, event, hthere, hnext.now_le, hsteps, hcall, hnone, hover, .refl⟩,
          hsame, hreserved⟩
    · exact Or.inr ⟨row, ⟨c₃, c₄, event, hthere, hnow, hsteps, hcall, hnone, hover,
        hrest.tail hnext⟩, hsame, hreserved.run (.single hnext)⟩

/-! ### A repeated submission -/

section Repeated

variable {J : Journal C} {root : RootSeal} {request request' : SubmitRequest C}
  {randomBytes : Option (Vector UInt8 16)}

/-- The kind determines the capabilities, so the requests of one scope have the same. -/
def SameRequest (request request' : SubmitRequest C) : Prop :=
  request'.normalizedInput = request.normalizedInput ∧
    request'.requiredCapabilities = request.requiredCapabilities

instance (request request' : SubmitRequest C) : Decidable (SameRequest request request') := by
  unfold SameRequest
  infer_instance

/-- The answer to a submission for a scope that is held. -/
def repeatedAnswer (request request' : SubmitRequest C) (retainUntilMs nowMs : Int) (t : Tables)
    (record : OperationRecord) : Except JournalError (Tables × SubmitOutcome) :=
  if SameRequest request request' then
    if nowMs < retainUntilMs then .ok (t, ⟨record, false⟩) else .error .expired
  else .error .idempotencyConflict

/-- A row was submitted with this request. -/
structure SubmittedBy (request : SubmitRequest C) (row : OperationRow) : Prop where
  scope : row.scope = request.scope
  inputJson : row.inputJson = request.normalizedInput.encoded
  inputDigest : row.inputDigest = request.inputDigest

theorem SubmittedBy.input_eq (h : SubmittedBy request row) :
    CanonicalInput.mk row.inputJson row.inputDigest = request.normalizedInput := by
  rw [h.inputJson, h.inputDigest, request.digest_eq]

theorem SubmittedBy.required_eq (h : SubmittedBy request row) :
    row.kind.requiredCapabilities C = request.requiredCapabilities := by
  rw [request.required_eq, show row.kind = request.kind from congrArg Scope.kind h.scope]

theorem SubmittedBy.of_sameInput (h : SubmittedBy request row) (hsame : SameInput row row') :
    SubmittedBy request row' :=
  ⟨hsame.scope.trans h.scope, hsame.inputJson.trans h.inputJson,
    hsame.inputDigest.trans h.inputDigest⟩

/-- The text of the capabilities of a kind that a valid row has. -/
theorem RowValid.capabilities_json (v : RowValid C id row) :
    ∃ json, (row.kind.requiredCapabilities C).canonicalJson C = .ok json := by
  have hcapabilities := v.capabilities
  simp only [CapabilitySet.fromDatabase, bind_eq_ok, check_eq_ok, exists_const, required_eq_ok,
    orElse_eq_ok, pure, Except.pure, Except.ok.injEq] at hcapabilities
  obtain ⟨-, _, -, json, hjson, -, hset⟩ := hcapabilities
  exact ⟨json, hset ▸ hjson⟩

/-- A submission with authority gets to the lookup of its scope. -/
theorem Journal.submit_eq (t : Tables) (randomBytes : Option (Vector UInt8 16))
    (hauthority : J.validateSubmitRequestAuthority request = .ok ())
    (hjson : ∃ json, request.requiredCapabilities.canonicalJson C = .ok json)
    (hnow : 0 ≤ nowMs) :
    ∃ json, J.submit t .intact request randomBytes nowMs =
      match t.selectOperationByScope request.scope with
      | some (id, raw) => do
        let record ← validatedRecord C t id raw
        validateRecordNotFromFuture record nowMs
        validateRepository record request.repositoryId
        check (record.inputDigest = request.inputDigest ∧
          record.normalizedInput = request.normalizedInput ∧
          record.requiredCapabilities = request.requiredCapabilities) .idempotencyConflict
        check (nowMs < record.retainUntilMs) .expired
        commitAuthorized .intact t ⟨record, false⟩
      | none => submitNew t .intact request json randomBytes nowMs := by
  obtain ⟨json, hjson⟩ := hjson
  refine ⟨json, ?_⟩
  unfold submit
  rw [hauthority, ok_bind, hjson, ok_bind]
  refine (bind_of_ok (check_of rfl _) _).trans ?_
  exact bind_of_ok (check_of hnow _) _

/-- A submission that succeeds had authority and an intact root. -/
theorem Journal.submit_authority {r : Tables × SubmitOutcome}
    (h : J.submit t root request randomBytes nowMs = .ok r) :
    J.validateSubmitRequestAuthority request = .ok () ∧ root = .intact := by
  simp only [submit, bind_eq_ok, exists_const, validateTransactionRoot_eq_ok] at h
  obtain ⟨_, hauthority, _, -, hbegin, _, -, _, -, h⟩ := h
  refine ⟨hauthority, ?_⟩
  have hcommit : root.atCommit = true := by
    split at h
    · simp only [bind_eq_ok, commitAuthorized_eq_ok] at h
      obtain ⟨_, -, _, -, _, -, _, -, _, -, hcommit, -⟩ := h
      exact hcommit
    · simp only [submitNew, bind_eq_ok, commitAuthorized_eq_ok] at h
      obtain ⟨_, -, _, -, _, -, _, -, _, -, _, -, _, -, _, -, _, -, _, -, _, -, hcommit, -⟩ := h
      exact hcommit
  cases root
  simp_all [RootSeal.intact]

/-- **While the operation is there**, a repeated submission returns it or says why not. -/
theorem Journal.submit_found {c : Config Int Tables}
    (randomBytes : Option (Vector UInt8 16)) (hreachable : Reachable C repositoryId c)
    (hrow : c.state.operations[id]? = some row) (hby : SubmittedBy request row)
    (hnow : c.now ≤ nowMs) (hscope : request'.scope = request.scope)
    (hauthority : J.validateSubmitRequestAuthority request' = .ok ()) :
    ∃ record, record.operationId.str = id ∧ decodeOperation C id row = .ok record ∧
      J.submit c.state .intact request' randomBytes nowMs =
        repeatedAnswer request request' row.retainUntilMs nowMs c.state record := by
  obtain ⟨handoff, hhandoff, m⟩ := hreachable.invariant.matched id row hrow
  have v := m.rowValid
  have hupdated : row.updatedAtMs ≤ nowMs := (hreachable.writtenBy id row hrow).trans hnow
  have hnonneg : 0 ≤ nowMs := v.created_nonneg.trans (v.created_le.trans hupdated)
  have hrow_scope : row.scope = request'.scope := hby.scope.trans hscope.symm
  have hkind : row.kind = request'.kind := congrArg Scope.kind hrow_scope
  obtain ⟨json, heq⟩ := submit_eq c.state randomBytes hauthority
    (by rw [request'.required_eq, ← hkind]; exact v.capabilities_json) hnonneg
  refine ⟨recordOf v, rfl, decodeOperation_eq_ok.2 ⟨v, rfl⟩, heq.trans ?_⟩
  rw [← hrow_scope, hreachable.scopesUnique.selectOperation hrow]
  refine (bind_of_ok (validatedRecord_eq_ok.2 ⟨handoff, hhandoff, m, rfl⟩) _).trans ?_
  refine (bind_of_ok (check_of ⟨hupdated, fun terminalAtMs h =>
    (v.terminal terminalAtMs h).2.2.1 ▸ hupdated⟩ _) _).trans ?_
  refine (bind_of_ok (check_of (LogicalRepositoryId.ext
    (congrArg Scope.repositoryId hrow_scope)) _) _).trans ?_
  have hsame : SameRequest request request' ↔
      (recordOf v).inputDigest = request'.inputDigest ∧
        (recordOf v).normalizedInput = request'.normalizedInput ∧
        (recordOf v).requiredCapabilities = request'.requiredCapabilities := by
    show _ ↔ row.inputDigest = _ ∧ CanonicalInput.mk row.inputJson row.inputDigest = _ ∧
      row.kind.requiredCapabilities C = _
    rw [hby.input_eq, hby.required_eq, hby.inputDigest, request'.digest_eq, request.digest_eq]
    exact ⟨fun ⟨hinput, hcapabilities⟩ => ⟨by rw [hinput], hinput.symm, hcapabilities.symm⟩,
      fun ⟨_, hinput, hcapabilities⟩ => ⟨hinput.symm, hcapabilities.symm⟩⟩
  unfold repeatedAnswer
  by_cases h : SameRequest request request'
  · rw [if_pos h]
    refine (bind_of_ok (check_of (hsame.1 h) _) _).trans ?_
    by_cases hretained : nowMs < row.retainUntilMs
    · rw [if_pos hretained]
      exact bind_of_ok (check_of hretained _) _
    · rw [if_neg hretained]
      exact congrArg (· >>= _) (check_of_not hretained JournalError.expired)
  · rw [if_neg h]
    exact congrArg (· >>= _) (check_of_not (mt hsame.2 h) JournalError.idempotencyConflict)

/-- **While the tombstone holds the scope**, a repeated submission fails. -/
theorem Journal.submit_reserved {c : Config Int Tables} (hreachable : Reachable C repositoryId c)
    {tombstone : TombstoneRow} (hfound : c.state.tombstones[id]? = some tombstone)
    (hburies : Buries C id row tombstone) (v : RowValid C id row) (hby : SubmittedBy request row)
    (hnow : nowMs < row.retainUntilMs + tombstoneRetentionMs) (hnonneg : 0 ≤ nowMs)
    (hscope : request'.scope = request.scope)
    (hauthority : J.validateSubmitRequestAuthority request' = .ok ()) :
    J.submit c.state .intact request' randomBytes nowMs = .error
      (if request'.inputDigest = request.inputDigest then .expired else .idempotencyConflict) := by
  have htombstone : tombstone.scope = request'.scope :=
    hburies.scope.trans (hby.scope.trans hscope.symm)
  have hkind : row.kind = request'.kind := congrArg Scope.kind (hby.scope.trans hscope.symm)
  obtain ⟨json, heq⟩ := submit_eq c.state randomBytes hauthority
    (by rw [request'.required_eq, ← hkind]; exact v.capabilities_json) hnonneg
  have hnone : c.state.selectOperationByScope request'.scope = none :=
    selectOperationByScope_eq_none.2 fun key row₁ hrow₁ =>
      htombstone ▸ (hreachable.invariant.tombstone_scope key row₁ id tombstone hrow₁ hfound).symm
  have hsame : (tombstone.inputDigest = request'.inputDigest ∧
      tombstone.requiredCapabilitiesDigest = request'.requiredCapabilities.digest) ↔
        request'.inputDigest = request.inputDigest := by
    rw [hburies.input, hburies.capabilities, hkind, ← request'.required_eq, hby.inputDigest,
      and_iff_left rfl, eq_comm]
  have hresolve : resolveTombstone c.state request' nowMs = .error
      (if request'.inputDigest = request.inputDigest then .expired
        else .idempotencyConflict) := by
    unfold resolveTombstone
    rw [← htombstone, hreachable.scopesUnique.selectTombstone hfound]
    refine (bind_of_ok hburies.valid _).trans ?_
    refine (bind_of_ok (check_of (congrArg Scope.idempotencyKeyDigest htombstone) _) _).trans ?_
    rw [if_pos (hburies.until_eq ▸ hnow)]
    by_cases h : request'.inputDigest = request.inputDigest
    · rw [if_pos h]
      exact bind_of_ok (check_of (hsame.2 h) _) _
    · rw [if_neg h]
      exact congrArg (· >>= _) (check_of_not (mt hsame.1 h) JournalError.idempotencyConflict)
  rw [heq, hnone]
  exact congrArg (· >>= _) hresolve

/-- A submission of the request creates the operation. -/
structure Creates (repositoryId : LogicalRepositoryId) (request : SubmitRequest C) (id : String)
    (c c₀ : Config Int Tables) : Prop where
  now_le : c.now ≤ c₀.now
  submits : ∃ (J : Journal C) (root : RootSeal) (randomBytes : Option (Vector UInt8 16))
    (outcome : SubmitOutcome), J.repositoryId = repositoryId ∧
    J.submit c.state root request randomBytes c₀.now = .ok (c₀.state, outcome) ∧
    outcome.created = true ∧ outcome.record.operationId.str = id

theorem Creates.next {c c₀ : Config Int Tables} (h : Creates repositoryId request id c c₀) :
    Next (Steps (C := C) repositoryId) c c₀ := by
  obtain ⟨J, root, randomBytes, outcome, hJ, hsubmit, -, -⟩ := h.submits
  have happly : J.apply root c₀.now c.state (.submit request randomBytes) = .ok c₀.state :=
    map_fst_eq_ok.2 ⟨outcome, hsubmit⟩
  exact ⟨h.now_le, ⟨J, root, .submit request randomBytes⟩, hJ,
    (Journal.step_of_apply happly).symm⟩

theorem Creates.found {c c₀ : Config Int Tables} (h : Creates repositoryId request id c c₀) :
    ∃ row, c₀.state.operations[id]? = some row ∧ SubmittedBy request row ∧ 0 ≤ c₀.now := by
  obtain ⟨J, root, randomBytes, outcome, hJ, hsubmit, hcreated, rfl⟩ := h.submits
  rcases Journal.submit_ok hsubmit with ⟨-, hfalse⟩ |
    ⟨t₁, _, json, completed, total, retainUntilMs, handoff, -, rfl, -, -, -, heq, m⟩
  · cases hfalse.symm.trans hcreated
  · refine ⟨_, by rw [heq]; exact Tables.operations_setOperation_self, ⟨rfl, rfl, rfl⟩, ?_⟩
    exact m.rowValid.created_nonneg

/-- A submission that succeeds where it gets the answer for a scope that is held. -/
theorem repeatedAnswer_eq_ok {retainUntilMs : Int} {record : OperationRecord}
    {t' : Tables} {outcome : SubmitOutcome}
    (h : repeatedAnswer request request' retainUntilMs nowMs t record = .ok (t', outcome)) :
    SameRequest request request' ∧ nowMs < retainUntilMs ∧ t' = t ∧
      outcome = ⟨record, false⟩ := by
  unfold repeatedAnswer at h
  split_ifs at h with hsame hretained
  obtain ⟨rfl, rfl⟩ := Prod.mk.inj (Except.ok.inj h)
  exact ⟨hsame, hretained, rfl, rfl⟩

variable (request request') in
/-- The answers to a repeated submission of a request that holds its scope with the operation `id`
until its retention has passed. -/
structure Answers (id : String) (retainUntilMs nowMs : Int) (t : Tables) : Prop where
  /-- A caller with authority learns what has become of the request. The tombstone compares only
  the digests of the inputs. -/
  answer : ∀ (J : Journal C) (randomBytes : Option (Vector UInt8 16)),
    J.validateSubmitRequestAuthority request' = .ok () →
    (request'.inputDigest = request.inputDigest →
      request'.normalizedInput = request.normalizedInput) →
    ∃ record, record.operationId.str = id ∧ J.submit t .intact request' randomBytes nowMs =
      repeatedAnswer request request' retainUntilMs nowMs t record
  /-- Success returns the operation, and creates none. -/
  success : ∀ (J : Journal C) (root : RootSeal) (randomBytes : Option (Vector UInt8 16))
    (t' : Tables) (outcome : SubmitOutcome),
    J.submit t root request' randomBytes nowMs = .ok (t', outcome) →
      SameRequest request request' ∧ nowMs < retainUntilMs ∧ t' = t ∧
        outcome.created = false ∧ outcome.record.operationId.str = id

theorem StillThere.answers {c₀ c : Config Int Tables}
    (h : StillThere C repositoryId id c₀ c row) (hreachable : Reachable C repositoryId c)
    (hby : SubmittedBy request row) (hnow : c.now ≤ nowMs)
    (hscope : request'.scope = request.scope) :
    Answers request request' id row.retainUntilMs nowMs c.state where
  answer J randomBytes hauthority _ := by
    obtain ⟨record, hid, -, heq⟩ :=
      Journal.submit_found randomBytes hreachable h.found hby hnow hscope hauthority
    exact ⟨record, hid, heq⟩
  success J root randomBytes t' outcome hok := by
    obtain ⟨hauthority, rfl⟩ := Journal.submit_authority hok
    obtain ⟨record, hid, -, heq⟩ :=
      Journal.submit_found randomBytes hreachable h.found hby hnow hscope hauthority
    obtain ⟨hsame, hretained, ht, rfl⟩ := repeatedAnswer_eq_ok (heq.symm.trans hok)
    exact ⟨hsame, hretained, ht, rfl, hid⟩

theorem RemovedSince.rowValid {c₀ c : Config Int Tables}
    (h : RemovedSince C repositoryId id c₀ c row) (hreachable : Reachable C repositoryId c₀) :
    RowValid C id row ∧ row.retainUntilMs ≤ c.now := by
  obtain ⟨c₁, c₂, event, hthere, -, -, -, -, hover, hrest⟩ := h.removed
  have hreachable₁ : Reachable C repositoryId c₁ := hreachable.imp fun _ hrun =>
    hrun.trans (hthere.run.mono fun _ _ _ _ h => h.steps)
  obtain ⟨handoff, -, m⟩ := hreachable₁.invariant.matched id row hthere.found
  exact ⟨m.rowValid, hover.elapsed.trans hrest.now_le⟩

theorem RemovedSince.answers {c₀ c : Config Int Tables}
    (h : RemovedSince C repositoryId id c₀ c row) (hreachable₀ : Reachable C repositoryId c₀)
    (hreachable : Reachable C repositoryId c) (hreserved : Reserved C id row c.now c.state)
    (hby : SubmittedBy request row) (hnow : c.now ≤ nowMs) (hnonneg : 0 ≤ nowMs)
    (hscope : request'.scope = request.scope)
    (hover : nowMs < row.retainUntilMs + tombstoneRetentionMs) :
    Answers request request' id row.retainUntilMs nowMs c.state := by
  obtain ⟨v, helapsed⟩ := h.rowValid hreachable₀
  have hpassed : ¬ nowMs < row.retainUntilMs := not_lt.2 (helapsed.trans hnow)
  obtain ⟨tombstone, hfound, hburies⟩ := hreserved.resolve_left
    fun hreserved => absurd (hreserved.trans hnow) (not_le.2 hover)
  have hcapabilities : request'.requiredCapabilities = request.requiredCapabilities := by
    rw [request'.required_eq, request.required_eq, show request'.kind = request.kind from
      congrArg Scope.kind hscope]
  constructor
  · intro J randomBytes hauthority hdigest
    refine ⟨recordOf v, rfl, (Journal.submit_reserved hreachable hfound hburies v hby hover hnonneg
      hscope hauthority).trans ?_⟩
    unfold repeatedAnswer
    by_cases h : request'.inputDigest = request.inputDigest
    · rw [if_pos h, if_pos ⟨hdigest h, hcapabilities⟩, if_neg hpassed]
    · rw [if_neg h, if_neg fun hsame => h ?_]
      rw [request'.digest_eq, request.digest_eq, hsame.1]
  · intro J root randomBytes t' outcome hok
    obtain ⟨hauthority, rfl⟩ := Journal.submit_authority hok
    cases (Journal.submit_reserved hreachable hfound hburies v hby hover hnonneg hscope
      hauthority).symm.trans hok

/-- **A scope is held from the submission that creates its operation.** As long as the operation is
there, and after its removal until the time of its tombstone is over, a submission for the scope
creates nothing: it returns the operation if the request is the same and the operation is
retained, and is refused otherwise. An operation is only removed by a purge, behind its retention,
and when it has ended or its deadline has passed; then the same purge fails it at its deadline
first. -/
theorem scope_held {c c₀ c' : Config Int Tables} (hreachable : Reachable C repositoryId c)
    (hcreates : Creates repositoryId request id c c₀)
    (hrun : Run (Steps (C := C) repositoryId) c₀ c') (hnow : c'.now ≤ nowMs)
    (hscope : request'.scope = request.scope) :
    (∃ row, (StillThere C repositoryId id c₀ c' row ∧
        Answers request request' id row.retainUntilMs nowMs c'.state) ∨
      (RemovedSince C repositoryId id c₀ c' row ∧
        (nowMs < row.retainUntilMs + tombstoneRetentionMs →
          Answers request request' id row.retainUntilMs nowMs c'.state))) ∧
    ∀ (event : Event C) (t : Tables) (key : String) (row : OperationRow),
      Steps repositoryId nowMs event c'.state t → c'.state.operations[key]? = some row →
        t.operations[key]? = none → event.call = .purge true ∧ Over row nowMs ∧
          ∃ t₁ removed, Edits C nowMs event.call c'.state t₁ ∧
            t₁.operations[key]? = some removed ∧ EndedFor row removed ∧
              Edits C nowMs event.call t₁ t := by
  obtain ⟨row₀, hrow₀, hby, hnonneg⟩ := hcreates.found
  have hreachable₀ : Reachable C repositoryId c₀ :=
    hreachable.imp fun _ hrun => hrun.tail hcreates.next
  have hreachable' : Reachable C repositoryId c' := hreachable₀.imp fun _ hrun₀ => hrun₀.trans hrun
  refine ⟨?_, fun event t key row hsteps hrow hnone => ?_⟩
  · rcases stillThere_or_removedSince hrow₀ hrun with ⟨row, hthere, hsame⟩ |
      ⟨row, hremoved, hsame, hreserved⟩
    · exact ⟨row, Or.inl ⟨hthere, hthere.answers hreachable' (hby.of_sameInput hsame) hnow hscope⟩⟩
    · exact ⟨row, Or.inr ⟨hremoved, hremoved.answers hreachable₀ hreachable' hreserved
        (hby.of_sameInput hsame) hnow (hnonneg.trans (hrun.now_le.trans hnow)) hscope⟩⟩
  · have hin : InCall C nowMs event.call key row t :=
      hsteps.edits.invariant (Or.inl ⟨row, hrow, .refl row, fun _ _ => Or.inl rfl⟩)
        fun _ _ => Edit.inCall
    rcases hin with ⟨row', hrow', -⟩ | ⟨hcall, -, hover, -⟩
    · cases hnone.symm.trans hrow'
    · have hedits := hsteps.edits
      rw [hcall] at hedits ⊢
      rcases hedits.endedFor hrow with ⟨row', hrow', -⟩ | hended
      · cases hnone.symm.trans hrow'
      · exact ⟨rfl, hover, hended⟩

end Repeated

end

/-! ### A purge at the end of the retention -/

namespace Sample

/-- The codec that also reads the error of an operation that has missed its deadline. -/
def reapingCodec : Codec where
  floatText := codec.floatText
  fromStr text :=
    if text = deadlineExceededErrorJson then
      some (.object [("code", .string "operation_execution_deadline_exceeded")])
    else codec.fromStr text
  sha256 := codec.sha256

def reapingJournal : Journal reapingCodec := ⟨repositoryId, capabilities, codec.sha256 [2]⟩

/-- The request of a submission for the codec that reads deadline errors. -/
def reapingRequest : SubmitRequest reapingCodec where
  repositoryId := repositoryId
  repositoryBindingDigest := codec.sha256 [2]
  kind := .resolveBuildSubmit
  requiredCapabilities := capabilities
  normalizedInput := request.normalizedInput
  inputDigest := request.inputDigest
  idempotencyKeyDigest := codec.sha256 [1]
  executionDeadlineMs := request.executionDeadlineMs
  initialProgress := request.initialProgress
  required_eq := request.required_eq
  digest_eq := request.digest_eq
  progress_zero := request.progress_zero
  unbounded_scan := request.unbounded_scan

/-- A queued operation before the purge at the end of its retention. -/
def unpurged : Config Int Tables :=
  reapingJournal.calls [(0, .submit reapingRequest (some (.replicate 16 0)))] ⟨0, Tables.empty⟩

/-- The journal after that purge. -/
def purged : Config Int Tables := reapingJournal.calls [(604801000, .purge true)] unpurged

theorem unpurged_creates : Creates repositoryId reapingRequest operationId.str ⟨0, Tables.empty⟩
    unpurged := by
  refine ⟨by decide, reapingJournal, .intact, some (.replicate 16 0), ?_⟩
  have houtcome : ((reapingJournal.submit Tables.empty .intact reapingRequest
      (some (.replicate 16 0)) 0).toOption.map
        fun r => (r.2.created, r.2.record.operationId.str)) = some (true, operationId.str) := by
    decide +kernel
  obtain ⟨⟨t, outcome⟩, hsubmit, houtcome⟩ := Option.map_eq_some_iff.1 houtcome
  have hok : reapingJournal.submit Tables.empty .intact reapingRequest (some (.replicate 16 0)) 0 =
      .ok (t, outcome) := by
    revert hsubmit
    cases reapingJournal.submit Tables.empty .intact reapingRequest (some (.replicate 16 0)) 0 with
    | error e => rintro ⟨⟩
    | ok r => exact fun h => congrArg Except.ok (Option.some.inj h)
  have happly : reapingJournal.apply .intact 0 Tables.empty
      (.submit reapingRequest (some (.replicate 16 0))) = .ok t :=
    map_fst_eq_ok.2 ⟨outcome, hok⟩
  have hstate : unpurged.state = t := Journal.step_of_apply happly
  obtain ⟨hcreated, hid⟩ := Prod.mk.inj houtcome
  exact ⟨outcome, rfl, hstate ▸ hok, hcreated, hid⟩

theorem unpurged_row : (unpurged.state.operations[operationId.str]?).map OperationRow.status =
    some .queued := by
  decide +kernel

theorem purged_none : purged.state.operations[operationId.str]? = none := by
  have hnone : (purged.state.operations[operationId.str]?).isNone = true := by decide +kernel
  exact Option.isNone_iff_eq_none.1 hnone

end Sample

open Sample in
/-- The scope of an operation is held after the purge that removes it, which fails it first. -/
theorem scope_held_submitted :
    (∃ row, (StillThere reapingCodec repositoryId operationId.str unpurged purged row ∧
        Answers reapingRequest reapingRequest operationId.str row.retainUntilMs 604801000
          purged.state) ∨
      (RemovedSince reapingCodec repositoryId operationId.str unpurged purged row ∧
        (604801000 < row.retainUntilMs + tombstoneRetentionMs →
          Answers reapingRequest reapingRequest operationId.str row.retainUntilMs 604801000
            purged.state))) ∧
    ∃ t row removed, unpurged.state.operations[operationId.str]? = some row ∧
      row.status = .queued ∧
      Edits reapingCodec 604801000 (.purge true) unpurged.state t ∧
      t.operations[operationId.str]? = some removed ∧ EndedFor row removed ∧
      Edits reapingCodec 604801000 (.purge true) t purged.state := by
  have hstart : Reachable reapingCodec repositoryId ⟨0, Tables.empty⟩ := ⟨0, .refl⟩
  have hnow : unpurged.now ≤ 604801000 := by decide
  have hscope : reapingRequest.scope = reapingRequest.scope := rfl
  obtain ⟨row, hrow, hqueued⟩ := Option.map_eq_some_iff.1 unpurged_row
  obtain ⟨-, -, t, removed, hedits, hremoved, hended, hrest⟩ :=
    (scope_held hstart unpurged_creates .refl hnow hscope).2 ⟨reapingJournal, .intact, .purge true⟩ purged.state operationId.str row
      ⟨rfl, rfl⟩ hrow purged_none
  exact ⟨(scope_held hstart unpurged_creates (reapingJournal.run_calls _ _) (by decide) hscope).1,
    t, row, removed, hrow, hqueued, hedits, hremoved, hended, hrest⟩

open Sample in
/-- A purge that comes late ends a queued operation and removes it in one call. -/
theorem purge_removes_queued :
    ¬ ∀ (c : Config Int Tables) (nowMs : Int) (event : Event reapingCodec) (t : Tables)
      (guardAcquired : Bool), Reachable reapingCodec repositoryId c → c.now ≤ nowMs →
        event.call = .purge guardAcquired → Steps repositoryId nowMs event c.state t →
          ∀ (id : String) (row : OperationRow), c.state.operations[id]? = some row →
            t.operations[id]? = none → row.status.isTerminal = true := by
  intro h
  obtain ⟨row, hrow, hqueued⟩ := Option.map_eq_some_iff.1 unpurged_row
  have hterminal := h unpurged 604801000 ⟨reapingJournal, .intact, .purge true⟩ purged.state true
    (reapingJournal.reachable_calls _) (by decide) rfl ⟨rfl, rfl⟩ operationId.str row hrow
    purged_none
  rw [hqueued] at hterminal
  cases hterminal

end Operation
