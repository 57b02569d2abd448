import Depgraph.Operation.History

/-!
# Pending completion decisions

Once `commit_completion_intent` has decided that an operation completes, the operation stays as it
is until `finish_completion_intent` carries the decision out, provided that no call disturbs it.

* `Disturbs` collects the calls that write an operation without a look at its intent: those of the
  owner of the lease, those of a new owner when the lease has expired, and the failure of project
  executions whose lease is lost.
* `SameAt` says that one operation, its handoff and its intent are as they were. Every call that
  does not disturb a pending operation is in this relation (`apply_sameAt`).
-/

namespace Operation

open Protocol Fallible TimedRun

section

variable {C : Codec} {repositoryId : LogicalRepositoryId} {t t' : Tables} {id : String}

/-- The operation, its handoff and its intent are as they were. -/
structure SameAt (id : String) (t t' : Tables) : Prop where
  operation : t'.operations[id]? = t.operations[id]?
  handoff : t'.handoffs[id]? = t.handoffs[id]?
  intent : t'.intents[id]? = t.intents[id]?

theorem SameAt.refl (id : String) (t : Tables) : SameAt id t t := ⟨rfl, rfl, rfl⟩

theorem SameAt.trans (id : String) (a b c : Tables) (h : SameAt id a b) (h' : SameAt id b c) :
    SameAt id a c :=
  ⟨h'.operation.trans h.operation, h'.handoff.trans h.handoff, h'.intent.trans h.intent⟩

/-- A running operation whose completion has been decided. -/
structure Pending (id : String) (row : OperationRow) (t : Tables) : Prop where
  operation_eq : t.operations[id]? = some row
  running : row.status = .running
  intent : t.intents[id]? ≠ none

theorem Pending.same {row : OperationRow} (p : Pending id row t) (h : SameAt id t t') :
    Pending id row t' :=
  ⟨h.operation.trans p.operation_eq, p.running, h.intent ▸ p.intent⟩

/-! ### Changes elsewhere -/

theorem Rewrites.sameAt {key : String} {row row' : OperationRow} {handoff' : HandoffRow}
    (r : Rewrites C t t' key row row' handoff') (hne : id ≠ key) : SameAt id t t' :=
  ⟨(r.operations id).trans (if_neg hne), (r.handoffs id).trans (if_neg hne), r.intents id hne⟩

theorem FailsAt.sameAt {key : String} {row : OperationRow} {handoff : HandoffRow} {nowMs : Int}
    (h : FailsAt C t t' key row handoff nowMs) (hne : id ≠ key) : SameAt id t t' := by
  obtain ⟨_, _, rfl, m⟩ := h.fails
  exact (Rewrites.both h.operation_eq m).sameAt hne

theorem purgeOperations_sameAt {row : OperationRow} {nowMs : Int} (ids : List String)
    {created : Nat} (p : Pending id row t)
    (h : purgeOperations C repositoryId nowMs ids t = .ok (t', created)) : SameAt id t t' := by
  induction ids generalizing t created with
  | nil =>
    obtain rfl := congrArg Prod.fst (Except.ok.inj h)
    exact .refl _ _
  | cons key rest ih =>
    simp only [purgeOperations, bind_eq_ok, pure, Except.pure, Except.ok.injEq] at h
    obtain ⟨⟨t₁, _⟩, hturn, ⟨t₂, _⟩, hrest, hr⟩ := h
    obtain rfl : t₂ = t' := congrArg Prod.fst hr
    obtain ⟨row₁, hrow₁, hterminal, -, hremoved⟩ := purgeOperation_ok hturn
    -- the operation that is purged has ended, and the pending one is running
    have hne : id ≠ key := by
      rintro rfl
      obtain rfl := Option.some.inj (p.operation_eq.symm.trans hrow₁)
      rw [p.running] at hterminal
      cases hterminal
    have hsame : SameAt id t (t.removeOperation key) :=
      ⟨Table.getElem?_erase.trans (if_neg hne), Table.getElem?_erase.trans (if_neg hne),
        Table.getElem?_erase.trans (if_neg hne)⟩
    have hsame₁ : SameAt id t t₁ := by
      rcases hremoved with ⟨-, rfl⟩ | ⟨tombstone, -, -, hinsert⟩
      · exact hsame
      · simp only [Tables.insertTombstone, bind_eq_ok, pure, Except.pure,
          Except.ok.injEq] at hinsert
        obtain ⟨_, -, _, -, _, -, rfl⟩ := hinsert
        exact hsame.trans _ _ _ _ ⟨rfl, rfl, rfl⟩
    exact hsame₁.trans _ _ _ _ (ih (p.same hsame₁) hrest)

theorem mem_deadlineExpiredIds {nowMs : Int} (h : id ∈ deadlineExpiredIds t nowMs) :
    t.intents[id]? = none := by
  obtain ⟨⟨key, row⟩, hmem, rfl⟩ := List.mem_map.1 h
  have hmem := (SortDedup.mem_sortByKey _).1 (List.mem_of_mem_take hmem)
  have hexpired := (List.mem_filter.1 hmem).2
  simp only [deadlineExpired, Bool.and_eq_true, Option.isNone_iff_eq_none] at hexpired
  exact hexpired.2

theorem purge_sameAt {J : Journal C} {root : RootSeal} {guardAcquired : Bool} {nowMs : Int}
    {report : PurgeReport} {row : OperationRow} (p : Pending id row t)
    (h : J.purge t root guardAcquired nowMs = .ok (t', report)) : SameAt id t t' := by
  simp only [Journal.purge, bind_eq_ok, validateTimestamp_eq_ok, exists_const] at h
  obtain ⟨-, h⟩ := h
  split_ifs at h
  · simp only [bind_eq_ok, validateTransactionRoot_eq_ok, exists_const,
      commitAuthorized_eq_ok] at h
    obtain ⟨error, -, -, t₁, hreap, ⟨t₂, _⟩, hpurge, t₃, htombstones, -, hr⟩ := h
    obtain rfl : t' = t₃ := congrArg Prod.fst hr
    obtain ⟨-, hsame₁⟩ := forEach_preserves (I := fun _ => True) (SameAt.refl id) (SameAt.trans id)
      _ (fun key hkey t t' _ h => by
        obtain ⟨row₁, handoff, -, hfails⟩ := reapOperation_ok h
        refine ⟨trivial, hfails.sameAt ?_⟩
        rintro rfl
        exact p.intent (mem_deadlineExpiredIds hkey)) trivial hreap
    have hsame₂ := purgeOperations_sameAt _ (p.same hsame₁) hpurge
    obtain ⟨-, hsame₃⟩ := forEach_preserves (I := fun _ => True) (SameAt.refl id) (SameAt.trans id)
      _ (fun key _ t t' _ h => by
        obtain ⟨_, -, -, rfl⟩ := purgeTombstone_ok h
        exact ⟨trivial, ⟨rfl, rfl, rfl⟩⟩) trivial htombstones
    exact (hsame₁.trans _ _ _ _ hsame₂).trans _ _ _ _ hsame₃
  · obtain rfl := congrArg Prod.fst (Except.ok.inj h)
    exact .refl _ _

/-! ### Calls that disturb a decision -/

variable {operationId : OperationId}

/-- The call writes the operation, although its completion may have been decided. -/
def Disturbs (t : Tables) (id : OperationId) (row : OperationRow) (nowMs : Int)
    (event : Event C) : Prop :=
  event.root.atBegin = true ∧ event.root.atCommit = true ∧
  match event.call with
  | .claimNextRunnerHandoff requested _ _ _ =>
    (EnabledOperationKinds.new C event.journal.enabledCapabilities).projectExec = true ∧
      id.str ∈ lostProjectExecIds t requested.str nowMs
  | .acquireLease _ called _ _ leaseExpiresAtMs => called = id ∧
      event.journal.enabledCapabilities.containsAll (row.kind.requiredCapabilities C) = true ∧
      nowMs < leaseExpiresAtMs ∧ leaseExpiresAtMs ≤ row.executionDeadlineMs ∧
      ∀ lease, leaseOf row = some lease → lease.expiresAtMs ≤ nowMs
  | .renewLease _ called leaseToken leaseExpiresAtMs => called = id ∧
      event.journal.enabledCapabilities.containsAll (row.kind.requiredCapabilities C) = true ∧
      nowMs < leaseExpiresAtMs ∧ leaseExpiresAtMs ≤ row.executionDeadlineMs ∧
      Journal.HoldsToken C row leaseToken nowMs
  | .releaseLease _ called leaseToken => called = id ∧
      event.journal.enabledCapabilities.containsAll (row.kind.requiredCapabilities C) = true ∧
      nowMs < row.executionDeadlineMs ∧
      ∃ lease, leaseOf row = some lease ∧ lease.tokenDigest = C.sha256 leaseToken
  | .updateProgress _ called leaseToken progress => called = id ∧
      event.journal.enabledCapabilities.containsAll (row.kind.requiredCapabilities C) = true ∧
      Journal.HoldsToken C row leaseToken nowMs ∧
      row.progressCompleted ≤ progress.completedUnits ∧
      ((progress.totalUnits : Int) = row.progressTotal ∨
        (row.kind = .scanSubmit ∧ row.progressTotal = 1 ∧ row.progressCompleted = 0 ∧
          progress.completedUnits = 0 ∧ 1 < progress.totalUnits))
  | .complete _ called leaseToken _ | .fail _ called leaseToken _ => called = id ∧
      event.journal.enabledCapabilities.containsAll (row.kind.requiredCapabilities C) = true ∧
      Journal.HoldsToken C row leaseToken nowMs
  | _ => False

/-- The call is the one that carries the decision out. -/
def Finishes (id : OperationId) (call : Call C) : Prop :=
  ∃ requested, call = .finishCompletionIntent requested id

theorem str_ne_of_ne {id key : OperationId} (h : key ≠ id) : id.str ≠ key.str := fun hstr =>
  h (OperationId.ext hstr.symm)

variable {J : Journal C} {root : RootSeal} {nowMs : Int} {row : OperationRow}

theorem finish_sameAt {requested : LogicalRepositoryId} {called : OperationId}
    {leaseToken : List UInt8} {payload : FinishPayload} {record : OperationRecord}
    (p : Pending operationId.str row t)
    (h : J.finish t root requested called leaseToken payload nowMs = .ok (t', record))
    (hfree : root.atBegin = true → root.atCommit = true → called = operationId →
      J.enabledCapabilities.containsAll (row.kind.requiredCapabilities C) = true →
      Journal.HoldsToken C row leaseToken nowMs →
      row.status.allowsTransitionTo payload.status = true → False) :
    SameAt operationId.str t t' := by
  obtain ⟨row₁, handoff, a, htoken, -, hallows, rfl, m⟩ := Journal.finish_ok h
  refine (Rewrites.both a.stored.operation_eq m).sameAt (str_ne_of_ne fun hcalled => ?_)
  subst hcalled
  obtain rfl := Option.some.inj (p.operation_eq.symm.trans a.stored.operation_eq)
  exact hfree a.begins a.commits rfl a.capabilities htoken hallows

theorem claim_sameAt {requested : LogicalRepositoryId} {owner : LeaseOwner}
    {leaseToken : List UInt8} {leaseExpiresAtMs : Int}
    {claimed : Option (OperationRecord × RunnerHandoff)} (p : Pending id row t)
    (h : J.claimNextRunnerHandoff t root requested owner leaseToken nowMs leaseExpiresAtMs =
      .ok (t', claimed))
    (hfree : root.atBegin = true → root.atCommit = true →
      (EnabledOperationKinds.new C J.enabledCapabilities).projectExec = true →
      id ∉ lostProjectExecIds t requested.str nowMs) : SameAt id t t' := by
  obtain ⟨hbegin, hcommit, t₁, hlost, hclaim⟩ := Journal.claimNextRunnerHandoff_ok h
  have hsame : SameAt id t t₁ := by
    rcases hlost with rfl | ⟨henabled, hlost⟩
    · exact .refl _ _
    · refine (forEach_preserves (I := fun _ => True) (SameAt.refl id) (SameAt.trans id) _
        (fun key hkey t t' _ h => ?_) trivial hlost).2
      obtain ⟨row₁, handoff, -, hfails⟩ := failLost_ok h
      refine ⟨trivial, hfails.sameAt ?_⟩
      rintro rfl
      exact hfree hbegin hcommit henabled hkey
  rcases hclaim with rfl | ⟨key, row₁, -, hcandidate, -⟩
  · exact hsame
  · -- nothing is a candidate while an intent is pending
    exfalso
    have hempty : t₁.intents.isEmpty = true := by
      simp only [isCandidate, Bool.and_eq_true] at hcandidate
      exact hcandidate.1.1.1.2
    apply (p.same hsame).intent
    rw [Std.ExtTreeMap.isEmpty_iff.1 hempty]
    exact Std.ExtTreeMap.getElem?_empty

/-- **A call that neither disturbs a decision nor carries it out leaves it alone.** -/
theorem apply_sameAt {call : Call C} (p : Pending operationId.str row t)
    (hfree : ¬ Disturbs t operationId row nowMs ⟨J, root, call⟩)
    (hfinish : ¬ Finishes operationId call) (h : J.apply root nowMs t call = .ok t') :
    SameAt operationId.str t t' := by
  cases call with
  | submit request randomBytes =>
    obtain ⟨outcome, h⟩ := map_fst_eq_ok.1 h
    rcases Journal.submit_ok h with ⟨rfl, -⟩ |
      ⟨t₁, key, _, _, _, _, handoff, -, -, ht₁, hkey, -, rfl, -⟩
    · exact .refl _ _
    · have hsame : SameAt operationId.str t t₁ := by
        rcases ht₁ with rfl | ⟨_, _, -, -, rfl⟩ <;> exact ⟨rfl, rfl, rfl⟩
      have hne : operationId.str ≠ key := by
        rintro rfl
        cases (p.same hsame).operation_eq.symm.trans hkey.operation
      exact hsame.trans _ _ _ _ ⟨Tables.operations_setOperation.trans (if_neg hne),
        Tables.handoffs_setHandoff.trans (if_neg hne), rfl⟩
  | cancel requested called capabilities shouldCommit =>
    obtain ⟨outcome, h⟩ := map_fst_eq_ok.1 h
    rcases Journal.cancel_ok h with rfl | ⟨row₁, handoff, ⟨s, -, hdeadline, -⟩, hnone, hstatus, rfl⟩
    · exact .refl _ _
    · refine (Rewrites.operation s.operation_eq s.handoff_eq
        (s.matched.cancelling hstatus s.updated_le hdeadline)).sameAt (str_ne_of_ne ?_)
      rintro rfl
      exact p.intent hnone
  | cancelBeforeLaunch requested called capabilities =>
    obtain ⟨outcome, h⟩ := map_fst_eq_ok.1 h
    rcases Journal.cancelBeforeLaunch_ok h with rfl | ⟨row₁, handoff, ⟨s, -, hdeadline, -⟩, hnone, h⟩
    · exact .refl _ _
    · have hne : operationId.str ≠ called.str := str_ne_of_ne fun hcalled => by
        subst hcalled
        exact p.intent hnone
      rcases h with ⟨hrunning, rfl⟩ | ⟨-, rfl, m⟩
      · exact (Rewrites.operation s.operation_eq s.handoff_eq
          (s.matched.cancelling (Or.inr hrunning) s.updated_le hdeadline)).sameAt hne
      · exact (Rewrites.both s.operation_eq m).sameAt hne
  | acquireLease requested called owner leaseToken leaseExpiresAtMs =>
    obtain ⟨record, h⟩ := map_fst_eq_ok.1 h
    obtain ⟨row₁, handoff, a, hwindow, -, hlease, rfl, m⟩ := Journal.acquireLease_ok h
    refine (Rewrites.both a.stored.operation_eq m).sameAt (str_ne_of_ne ?_)
    rintro rfl
    obtain rfl := Option.some.inj (p.operation_eq.symm.trans a.stored.operation_eq)
    exact hfree ⟨a.begins, a.commits, rfl, a.capabilities, hwindow.1, hwindow.2, hlease⟩
  | claimNextRunnerHandoff requested owner leaseToken leaseExpiresAtMs =>
    obtain ⟨claimed, h⟩ := map_fst_eq_ok.1 h
    exact claim_sameAt p h fun hbegin hcommit henabled hlost =>
      hfree ⟨hbegin, hcommit, henabled, hlost⟩
  | renewLease requested called leaseToken leaseExpiresAtMs =>
    obtain ⟨record, h⟩ := map_fst_eq_ok.1 h
    obtain ⟨row₁, handoff, a, htoken, hwindow, rfl, m⟩ := Journal.renewLease_ok h
    refine (Rewrites.operation a.stored.operation_eq a.stored.handoff_eq m).sameAt (str_ne_of_ne ?_)
    rintro rfl
    obtain rfl := Option.some.inj (p.operation_eq.symm.trans a.stored.operation_eq)
    exact hfree ⟨a.begins, a.commits, rfl, a.capabilities, hwindow.1, hwindow.2, htoken⟩
  | releaseLease requested called leaseToken =>
    obtain ⟨record, h⟩ := map_fst_eq_ok.1 h
    obtain ⟨row₁, handoff, a, htoken, -, rfl, m⟩ := Journal.releaseLease_ok h
    refine (Rewrites.operation a.stored.operation_eq a.stored.handoff_eq m).sameAt (str_ne_of_ne ?_)
    rintro rfl
    obtain rfl := Option.some.inj (p.operation_eq.symm.trans a.stored.operation_eq)
    exact hfree ⟨a.begins, a.commits, rfl, a.capabilities, a.before_deadline, htoken⟩
  | updateProgress requested called leaseToken progress =>
    obtain ⟨record, h⟩ := map_fst_eq_ok.1 h
    obtain ⟨row₁, handoff, a, htoken, -, hcompleted, htotal, rfl, m⟩ := Journal.updateProgress_ok h
    refine (Rewrites.operation a.stored.operation_eq a.stored.handoff_eq m).sameAt (str_ne_of_ne ?_)
    rintro rfl
    obtain rfl := Option.some.inj (p.operation_eq.symm.trans a.stored.operation_eq)
    exact hfree ⟨a.begins, a.commits, rfl, a.capabilities, htoken, hcompleted, htotal⟩
  | complete requested called leaseToken result =>
    obtain ⟨record, h⟩ := map_fst_eq_ok.1 h
    exact finish_sameAt p h fun hbegin hcommit hcalled hcaps htoken _ =>
      hfree ⟨hbegin, hcommit, hcalled, hcaps, htoken⟩
  | fail requested called leaseToken error =>
    obtain ⟨record, h⟩ := map_fst_eq_ok.1 h
    exact finish_sameAt p h fun hbegin hcommit hcalled hcaps htoken _ =>
      hfree ⟨hbegin, hcommit, hcalled, hcaps, htoken⟩
  | markCancelled requested called leaseToken =>
    -- a running operation is not cancelled without a request
    obtain ⟨record, h⟩ := map_fst_eq_ok.1 h
    refine finish_sameAt p h fun _ _ _ _ _ hallows => ?_
    rw [p.running] at hallows
    cases hallows
  | commitCompletionIntent requested called leaseToken result =>
    obtain ⟨decision, h⟩ := map_fst_eq_ok.1 h
    obtain ⟨row₁, handoff, a, -, ⟨-, rfl⟩ | ⟨-, hrunning, hnone, rfl⟩⟩ :=
      Journal.commitCompletionIntent_ok h
    · exact .refl _ _
    · have hactive : row₁.status.isTerminal = false := by rw [hrunning]; rfl
      have m := a.stored.matched.decided hactive a.stored.updated_le a.before_deadline
      refine (Rewrites.decided a.stored.operation_eq a.stored.handoff_eq m).sameAt
        (str_ne_of_ne ?_)
      rintro rfl
      exact p.intent hnone
  | finishCompletionIntent requested called =>
    obtain ⟨record, h⟩ := map_fst_eq_ok.1 h
    obtain ⟨row₁, handoff, intent, s, -, -, rfl, m⟩ := Journal.finishCompletionIntent_ok h
    refine (Rewrites.published s.operation_eq m).sameAt (str_ne_of_ne ?_)
    rintro rfl
    exact hfinish ⟨requested, rfl⟩
  | failDeadline requested called runnerCleanupCompleted =>
    obtain ⟨record, h⟩ := map_fst_eq_ok.1 h
    obtain ⟨hnone, row₁, handoff, -, hfails⟩ := Journal.failDeadline_ok h
    refine hfails.sameAt (str_ne_of_ne ?_)
    rintro rfl
    exact p.intent hnone
  | purge guardAcquired =>
    obtain ⟨report, h⟩ := map_fst_eq_ok.1 h
    exact purge_sameAt p h

/-! ### Undisturbed runs -/

/-- The event neither disturbs the decision on an operation nor carries it out. -/
structure UndisturbedSteps (repositoryId : LogicalRepositoryId) (id : OperationId) (nowMs : Int)
    (event : Event C) (t t' : Tables) : Prop where
  steps : Steps repositoryId nowMs event t t'
  undisturbed : ∀ row, t.operations[id.str]? = some row → ¬ Disturbs t id row nowMs event
  unfinished : ¬ Finishes id event.call

/-- **An undisturbed run leaves a pending decision alone.** -/
theorem run_sameAt {c c' : Config Int Tables}
    (h : Run (UndisturbedSteps (C := C) repositoryId operationId) c c')
    (p : Pending operationId.str row c.state) : SameAt operationId.str c.state c'.state := by
  refine (Run.invariant (I := fun t => Pending operationId.str row t ∧
    SameAt operationId.str c.state t) h ⟨p, .refl _ _⟩ ?_).2
  rintro now event t t' hstep ⟨p, hsame⟩
  have hsame' : SameAt operationId.str t t' := by
    rcases hstep.steps.eq_or_apply with rfl | happly
    · exact .refl _ _
    · exact apply_sameAt p (hstep.undisturbed row p.operation_eq) hstep.unfinished happly
  exact ⟨p.same hsame', hsame.trans _ _ _ _ hsame'⟩

/-- The decision is there and acceptable at a time: the intent is read with its result, and
validates against the record. -/
def Acceptable (C : Codec) (t : Tables) (repositoryId : LogicalRepositoryId) (id : OperationId)
    (result : CanonicalJson) (nowMs : Int) : Prop :=
  ∃ record intent, loadCompletionIntentRecord C t repositoryId id nowMs = .ok record ∧
    selectCompletionIntent C t id = .ok (some intent) ∧ intent.result = result ∧
    validateCompletionIntent record intent nowMs = .ok ()

/-- **A committed decision stands until it is carried out, and is carried out with its result.**
In every state of an undisturbed run after the commitment, the operation is running, its row and
its intent are as the commitment left them, the intent is acceptable, and
`finish_completion_intent` completes the operation with exactly the committed result. -/
theorem committed_until_finished {t₁ : Tables} {leaseToken : List UInt8} {result : CanonicalJson}
    (hcommit : J.commitCompletionIntent t root repositoryId operationId leaseToken result nowMs =
      .ok (t₁, .committed)) (hreads : PayloadReads C result.encoded) {c : Config Int Tables}
    (hrun : Run (UndisturbedSteps (C := C) repositoryId operationId) ⟨nowMs, t₁⟩ c) :
    ∃ row, t₁.operations[operationId.str]? = some row ∧ row.status = .running ∧
      c.state.operations[operationId.str]? = some row ∧
      SameAt operationId.str t₁ c.state ∧
      (∀ laterMs, c.now ≤ laterMs →
        Acceptable C c.state repositoryId operationId result laterMs) ∧
      ∀ (J' : Journal C) (laterMs : Int), J'.repositoryId = repositoryId → c.now ≤ laterMs →
        laterMs + terminalRetentionMs ≤ i64Max →
        (row.executionDeadlineMs = unboundedScanDeadlineMs →
          laterMs ≠ row.executionDeadlineMs) →
        ∃ t₂ record, J'.finishCompletionIntent c.state .intact repositoryId operationId laterMs =
            .ok (t₂, record) ∧ record.status = .completed ∧ record.result = some result := by
  obtain ⟨row₀, handoff, a, ⟨lease, hlease, -, hexpires⟩, ⟨hdecision, -⟩ | ⟨-, hrunning, -, rfl⟩⟩ :=
    Journal.commitCompletionIntent_ok hcommit
  · cases hdecision
  have s := a.stored
  have hactive : row₀.status.isTerminal = false := by rw [hrunning]; rfl
  have m := s.matched.decided hactive s.updated_le a.before_deadline
  have hintent : (Journal.decidedTables t operationId.str
      ⟨result.encoded, C.digest result.encoded, nowMs⟩ row₀).intents[operationId.str]? =
        some ⟨result.encoded, C.digest result.encoded, nowMs⟩ :=
    Table.getElem?_insert.trans (if_pos rfl)
  have hsame := run_sameAt hrun
    ⟨Tables.operations_setOperation_self, hrunning, by simp [hintent]⟩
  have hstored : ∀ laterMs, c.now ≤ laterMs →
      Stored C c.state repositoryId operationId laterMs (decidedRow nowMs row₀) handoff := by
    intro laterMs hle
    refine ⟨hsame.operation.trans Tables.operations_setOperation_self,
      hsame.handoff.trans s.handoff_eq, m, s.repository, hrun.now_le.trans hle, ?_⟩
    intro terminalAtMs h
    cases (s.matched.rowValid.active hactive).1.symm.trans h
  have hdecided : ∀ laterMs, c.now ≤ laterMs → Journal.Decided C (decidedRow nowMs row₀)
      ⟨result.encoded, C.digest result.encoded, nowMs⟩ laterMs := fun laterMs hle =>
    ⟨rfl, hreads, hrunning, rfl, a.before_deadline, hrun.now_le.trans hle, lease, hlease, hexpires⟩
  refine ⟨decidedRow nowMs row₀, Tables.operations_setOperation_self, hrunning,
    (hstored c.now le_rfl).operation_eq, hsame, fun laterMs hle => ?_,
    fun J' laterMs hrepository hle hretention hunbounded => ?_⟩
  · have s' := hstored laterMs hle
    exact ⟨s'.record, _, loadCompletionIntentRecord_eq_ok.2 ⟨_, _, s', rfl⟩,
      (Journal.selectCompletionIntent_eq_ok s' (hsame.intent.trans hintent)).2
        ⟨rfl, hreads, rfl⟩, rfl,
      (Journal.validateCompletionIntent_eq_ok s' rfl hreads).2 (hdecided laterMs hle)⟩
  · obtain ⟨record, hfinish, hcompleted, hresult⟩ :=
      Journal.finishCompletionIntent_of_decided (J := J') (hstored laterMs hle)
        (hsame.intent.trans hintent) (hdecided laterMs hle) hrepository.symm hretention hunbounded
    exact ⟨_, record, hfinish, hcompleted, hresult⟩

end

/-! ### A decision that stands, and one that is lost -/

namespace Sample

def token : List UInt8 := [2]

def result : CanonicalJson := ⟨"null"⟩

/-- An operation that runs under a lease until 500. -/
def running : Config Int Tables :=
  journal.calls [(0, submit), (1, .acquireLease repositoryId operationId owner token 500)]
    ⟨0, Tables.empty⟩

/-- Its completion is decided. -/
def commit : Call codec := .commitCompletionIntent repositoryId operationId token result

def decided : Tables := journal.step .intact 2 commit running.state

theorem commit_decided :
    journal.commitCompletionIntent running.state .intact repositoryId operationId token result 2 =
      .ok (decided, .committed) := by
  have h : (journal.commitCompletionIntent running.state .intact repositoryId operationId token
      result 2).toOption.map Prod.snd = some .committed := by
    decide +kernel
  cases hcommit : journal.commitCompletionIntent running.state .intact repositoryId operationId
      token result 2 with
  | error e => simp [hcommit, Except.toOption] at h
  | ok r =>
    obtain ⟨t, decision⟩ := r
    simp only [hcommit, Except.toOption, Option.map_some, Option.some.injEq] at h
    obtain rfl := h
    have happly : journal.apply .intact 2 running.state commit = .ok t :=
      map_fst_eq_ok.2 ⟨_, hcommit⟩
    rw [decided, Journal.step_of_apply happly]

/-- The owner of the lease reports progress. -/
def progress : Call codec :=
  .updateProgress repositoryId operationId token noProgress

/-- Somebody asks for a cancellation. -/
def cancel : Call codec := .cancel repositoryId operationId capabilities true

end Sample

open Sample in
/-- A request for cancellation comes too late for a decided operation. -/
theorem committed_until_finished_cancel :
    ∃ t record, journal.finishCompletionIntent (journal.step .intact 3 Sample.cancel decided)
        .intact repositoryId operationId 4 = .ok (t, record) ∧
      record.status = .completed ∧ record.result = some result := by
  have hreads : PayloadReads codec result.encoded := ⟨by decide, by decide +kernel⟩
  have hrun : TimedRun.Run (UndisturbedSteps (C := codec) repositoryId operationId) ⟨2, decided⟩
      ⟨3, journal.step .intact 3 Sample.cancel decided⟩ := by
    refine .single ⟨by decide, ⟨journal, .intact, Sample.cancel⟩, ⟨rfl, rfl⟩, ?_, ?_⟩
    · exact fun row _ h => h.2.2
    · rintro ⟨_, h⟩
      cases h
  obtain ⟨row, hrow, -, -, -, -, hfinish⟩ :=
    committed_until_finished commit_decided hreads hrun
  refine hfinish journal 4 rfl (by decide) (by decide) fun hunbounded => ?_
  have hdeadline : (decided.operations[operationId.str]?).map OperationRow.executionDeadlineMs =
      some 1000 := by
    decide +kernel
  rw [hrow, Option.map_some, Option.some.injEq] at hdeadline
  exact absurd (hdeadline.symm.trans hunbounded) (by decide)

open Sample in
/-- Progress that is reported after the decision makes it unacceptable: it can no longer be
carried out. -/
theorem progress_loses_decision :
    ¬ ∀ (c : Config Int Tables) (nowMs : Int) (t₁ : Tables) (c' : Config Int Tables),
      Reachable codec repositoryId c → c.now ≤ nowMs →
      journal.commitCompletionIntent c.state .intact repositoryId operationId token result nowMs =
        .ok (t₁, .committed) →
      TimedRun.Run (fun now (event : Event codec) t t' => Steps repositoryId now event t t' ∧
        ¬ Finishes operationId event.call) ⟨nowMs, t₁⟩ c' →
      (∀ row, t₁.operations[operationId.str]? = some row →
        c'.state.operations[operationId.str]? = some row) ∧
      ∃ t₂ record, journal.finishCompletionIntent c'.state .intact repositoryId operationId
        (c'.now + 1) = .ok (t₂, record) := by
  intro h
  have hlost : errorOf (journal.finishCompletionIntent (journal.step .intact 3 progress decided)
      .intact repositoryId operationId 4) = some .integrityFailure := by
    decide +kernel
  obtain ⟨-, t₂, record, hfinish⟩ := h running 2 decided ⟨3, journal.step .intact 3 progress decided⟩
    (journal.reachable_calls [(0, submit), (1, .acquireLease repositoryId operationId owner token
      500)]) (by decide) commit_decided
    (.single ⟨by decide, ⟨journal, .intact, progress⟩, ⟨rfl, rfl⟩, fun ⟨_, h⟩ => by cases h⟩)
  rw [show (3 : Int) + 1 = 4 from rfl] at hfinish
  simp [hfinish, errorOf] at hlost

end Operation
