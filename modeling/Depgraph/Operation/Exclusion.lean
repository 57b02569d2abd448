import Depgraph.Operation.Edit

/-!
# Leases exclude each other

Runners claim operations, renew and release their leases, report progress and end operations, in
any order and next to submissions and cancellations. While a token holds the unexpired lease of an
operation, only calls that present it change the work of the operation; and at most one writer of
the graph store and one project execution of a repository are leased at a time.

* `RunnerSteps` are the steps that take part: all calls but `acquire_lease`, which does not look at
  other operations, and `finish_completion_intent`, which ends an operation without a token.
* `SameWork` and `Edit.sameWork`: what a call without the token leaves alone.
* `Exclusive` and `Edit.exclusive`: the exclusion of kinds.
-/

namespace Operation

open Protocol Fallible TimedRun

section

variable {C : Codec} {repositoryId : LogicalRepositoryId} {t t' : Tables} {id : String}
  {nowMs : Int} {call : Call C} {row row' : OperationRow}

/-! ### The steps of the runners -/

/-- An event that takes part: it is not one of the two calls without the guards of the others. -/
structure RunnerSteps (repositoryId : LogicalRepositoryId) (nowMs : Int) (event : Event C)
    (t t' : Tables) : Prop where
  steps : Steps repositoryId nowMs event t t'
  acquires : event.call.acquires = false
  publishes : event.call.publishes = false

/-- A state that the runners reach from the empty journal. -/
def RunnerReachable (C : Codec) (repositoryId : LogicalRepositoryId) (c : Config Int Tables) :
    Prop :=
  ∃ start, Run (RunnerSteps (C := C) repositoryId) ⟨start, Tables.empty⟩ c

variable (C) in
/-- Every row decodes. -/
def AllValid (t : Tables) : Prop :=
  ∀ (id : String) (row : OperationRow), t.operations[id]? = some row → RowValid C id row

theorem Edit.allValid (h : Edit C nowMs call t t') (hvalid : AllValid C t) : AllValid C t' :=
  h.forall_operations hvalid (fun _ _ _ _ _ v => v) fun _ _ _ _ _ _ v => v

/-! ### The work of a leased operation -/

/-- The operation is leased, and the lease has not expired. -/
def Leased (row : OperationRow) (nowMs : Int) : Prop :=
  ∃ lease, leaseOf row = some lease ∧ nowMs < lease.expiresAtMs

/-- Progress, lease and outcome are the same. A cancellation may have been requested. -/
structure SameWork (row row' : OperationRow) : Prop where
  completed : row'.progressCompleted = row.progressCompleted
  total : row'.progressTotal = row.progressTotal
  owner : row'.leaseOwner = row.leaseOwner
  tokenDigest : row'.leaseTokenDigest = row.leaseTokenDigest
  expires : row'.leaseExpiresAtMs = row.leaseExpiresAtMs
  result : row'.resultJson = row.resultJson
  error : row'.errorJson = row.errorJson
  terminalAt : row'.terminalAtMs = row.terminalAtMs
  status : row'.status = row.status ∨ row'.status = .cancelling

theorem SameWork.refl (row : OperationRow) : SameWork row row :=
  ⟨rfl, rfl, rfl, rfl, rfl, rfl, rfl, rfl, Or.inl rfl⟩

theorem SameWork.trans {a b c : OperationRow} (h : SameWork a b) (h' : SameWork b c) :
    SameWork a c where
  completed := h'.completed.trans h.completed
  total := h'.total.trans h.total
  owner := h'.owner.trans h.owner
  tokenDigest := h'.tokenDigest.trans h.tokenDigest
  expires := h'.expires.trans h.expires
  result := h'.result.trans h.result
  error := h'.error.trans h.error
  terminalAt := h'.terminalAt.trans h.terminalAt
  status := by
    rcases h'.status with hstatus | hstatus
    · exact hstatus ▸ h.status
    · exact Or.inr hstatus

theorem SameWork.leaseOf_eq (h : SameWork row row') : leaseOf row' = leaseOf row := by
  unfold leaseOf
  rw [h.owner, h.tokenDigest, h.expires]

/-- The call presents no token with this digest. -/
def Foreign (digest : Digest) (call : Call C) : Prop :=
  ∀ leaseToken, call.leaseToken = some leaseToken → C.sha256 leaseToken ≠ digest

/-- **A call without the token of a live lease leaves the work of the operation alone.** -/
theorem RowEdit.sameWork {lease : OperationLease} (h : RowEdit C t nowMs call row row')
    (hpublishes : call.publishes = false) (v : RowValid C id row)
    (hlease : leaseOf row = some lease) (hlive : nowMs < lease.expiresAtMs)
    (hforeign : Foreign lease.tokenDigest call) : SameWork row row' := by
  have hheld {leaseToken : List UInt8} (hpresents : call.leaseToken = some leaseToken)
      (hholds : Journal.HoldsToken C row leaseToken nowMs) : SameWork row row' := by
    obtain ⟨lease', hlease', hdigest, -⟩ := hholds
    obtain rfl := Option.some.inj (hlease.symm.trans hlease')
    exact absurd hdigest.symm (hforeign leaseToken hpresents)
  obtain ⟨-, hbound⟩ := v.lease_bound hlease
  cases h with
  | lease owner leaseToken expiresAtMs presents active free unrivalled window =>
    exact absurd (free lease hlease) (not_le.2 hlive)
  | renew leaseToken expiresAtMs presents holds => exact hheld presents holds
  | progress leaseToken completed total presents holds => exact hheld presents holds
  | finish leaseToken payload presents holds => exact hheld presents holds
  | decide leaseToken presents holds => exact hheld presents holds
  | release leaseToken presents owns =>
    obtain ⟨lease', hlease', hdigest⟩ := owns
    obtain rfl := Option.some.inj (hlease.symm.trans hlease')
    exact absurd hdigest.symm (hforeign leaseToken presents)
  | cancel cancels startable => exact ⟨rfl, rfl, rfl, rfl, rfl, rfl, rfl, rfl, Or.inr rfl⟩
  | withdraw withdraws queued => cases (v.queued_lease queued).symm.trans hlease
  | publish result anchor retainUntilMs publishes => cases hpublishes.symm.trans publishes
  | deadline error active elapsed => exact absurd (hbound.trans elapsed) (not_le.2 hlive)
  | lost error leaseToken presents lost => exact absurd (lost.lease lease hlease) (not_le.2 hlive)

/-- The operation is there, and its work is as the row says. -/
def KeepsWork (id : String) (row : OperationRow) (t : Tables) : Prop :=
  ∃ row', t.operations[id]? = some row' ∧ SameWork row row'

theorem Edit.keepsWork {lease : OperationLease} (h : Edit C nowMs call t t')
    (hpublishes : call.publishes = false) (hvalid : AllValid C t)
    (hlease : leaseOf row = some lease) (hlive : nowMs < lease.expiresAtMs)
    (hforeign : Foreign lease.tokenDigest call) (hkeeps : KeepsWork id row t) :
    KeepsWork id row t' := by
  obtain ⟨row', hrow', hsame⟩ := hkeeps
  have hlease' : leaseOf row' = some lease := hsame.leaseOf_eq.trans hlease
  cases h with
  | rewrite key row₁ row₂ handoff' rewrites valid edit =>
    by_cases hkey : id = key
    · subst hkey
      obtain rfl := Option.some.inj (hrow'.symm.trans rewrites.operation_eq)
      exact ⟨row₂, by rw [rewrites.operations, if_pos rfl],
        hsame.trans (edit.sameWork hpublishes valid hlease' hlive hforeign)⟩
    · exact ⟨row', by rw [rewrites.operations, if_neg hkey, hrow'], hsame⟩
  | submit request randomBytes key json completed total retainUntilMs handoff called free =>
    have hkey : id ≠ key := fun hkey => by cases (hkey ▸ free.operation).symm.trans hrow'
    exact ⟨row', Tables.operations_setOperation.trans ((if_neg hkey).trans hrow'), hsame⟩
  | remove key row₁ called found terminal elapsed removes =>
    by_cases hkey : id = key
    · subst hkey
      obtain rfl := Option.some.inj (hrow'.symm.trans found)
      have hactive := ((hvalid id row' hrow').lease_bound hlease').1
      cases hactive.symm.trans terminal
    · exact ⟨row', by rw [removes.operations, if_neg hkey, hrow'], hsame⟩
  | dropTombstone => exact ⟨row', hrow', hsame⟩

/-- The steps whose calls present no token with this digest. -/
structure ForeignSteps (repositoryId : LogicalRepositoryId) (digest : Digest) (nowMs : Int)
    (event : Event C) (t t' : Tables) : Prop where
  steps : RunnerSteps repositoryId nowMs event t t'
  foreign : Foreign digest event.call

/-! ### Kinds that exclude each other -/

/-- The kinds of which one operation is leased at a time. -/
inductive Exclusively : (OperationKind → Bool) → Prop
  | writer : Exclusively isWriter
  | projectExec : Exclusively (· == .resolveBuildSubmit)

/-- At most one operation of these kinds in a repository is leased. -/
def Exclusive (kinds : OperationKind → Bool) (nowMs : Int) (t : Tables) : Prop :=
  ∀ (id key : String) (row other : OperationRow), t.operations[id]? = some row →
    t.operations[key]? = some other → row.repositoryId = other.repositoryId →
      kinds row.kind = true → kinds other.kind = true → Leased row nowMs → Leased other nowMs →
        id = key

theorem Leased.mono {nowMs' : Int} (h : Leased row nowMs') (hnow : nowMs ≤ nowMs') :
    Leased row nowMs := by
  obtain ⟨lease, hlease, hlive⟩ := h
  exact ⟨lease, hlease, hnow.trans_lt hlive⟩

/-- As time passes leases only expire. -/
theorem Exclusive.mono {kinds : OperationKind → Bool} {nowMs' : Int} (h : Exclusive kinds nowMs t)
    (hnow : nowMs ≤ nowMs') : Exclusive kinds nowMs' t :=
  fun id key row other hrow hother hrepository hkind hkind' hleased hleased' =>
    h id key row other hrow hother hrepository hkind hkind' (hleased.mono hnow)
      (hleased'.mono hnow)

/-- What is leased is running or to be cancelled, and counts as active. -/
theorem Leased.holdsLease (h : Leased row nowMs) (v : RowValid C id row) :
    holdsLease nowMs row = true := by
  obtain ⟨lease, hlease, hlive⟩ := h
  have hactive := (v.lease_bound hlease).1
  have hqueued : row.status ≠ .queued := fun hqueued => by
    cases (v.queued_lease hqueued).symm.trans hlease
  simp only [Operation.holdsLease, leaseOf_expires hlease, Option.any_some, hlive,
    decide_true, Bool.and_true]
  cases hstatus : row.status <;> simp_all [OperationStatus.isTerminal]

/-- A row that a call leases had no rival; otherwise it was leased before. -/
theorem RowEdit.leased (h : RowEdit C t nowMs call row row') (hacquires : call.acquires = false)
    (hleased : Leased row' nowMs) : Leased row nowMs ∨ Unrivalled t nowMs row := by
  have hunleased (hnone : leaseOf row' = none) : False := by
    obtain ⟨lease, hlease, -⟩ := hleased
    cases hnone.symm.trans hlease
  cases h with
  | lease owner leaseToken expiresAtMs presents active free unrivalled window =>
    exact Or.inr (unrivalled hacquires)
  | renew leaseToken expiresAtMs presents holds =>
    obtain ⟨lease, hlease, -, hlive⟩ := holds
    exact Or.inl ⟨lease, hlease, hlive⟩
  | progress | decide | cancel | withdraw => exact Or.inl hleased
  | release | finish | publish | deadline | lost => exact (hunleased rfl).elim

theorem Unrivalled.noneActive {kinds : OperationKind → Bool} (h : Unrivalled t nowMs row)
    (hkinds : Exclusively kinds) (hkind : kinds row.kind = true) :
    noneActive t row.repositoryId nowMs kinds = true := by
  cases hkinds with
  | writer => exact h.writer hkind
  | projectExec => exact h.projectExec (beq_iff_eq.1 hkind)

/-- A row that is leased after its rewriting is the only one. -/
theorem Exclusive.rewritten {kinds : OperationKind → Bool} {key : String} {other : OperationRow}
    (ex : Exclusive kinds nowMs t) (hkinds : Exclusively kinds) (hvalid : AllValid C t)
    (hacquires : call.acquires = false) (edit : RowEdit C t nowMs call row row')
    (hrow : t.operations[id]? = some row) (hother : t.operations[key]? = some other)
    (hrepository : row'.repositoryId = other.repositoryId) (hkind : kinds row'.kind = true)
    (hkind' : kinds other.kind = true) (hleased : Leased row' nowMs)
    (hleased' : Leased other nowMs) : id = key := by
  have hscope := edit.sameInput.scope
  rw [show row'.repositoryId = row.repositoryId from congrArg Scope.repositoryId hscope]
    at hrepository
  rw [show row'.kind = row.kind from congrArg Scope.kind hscope] at hkind
  rcases edit.leased hacquires hleased with hbefore | hunrivalled
  · exact ex id key row other hrow hother hrepository hkind hkind' hbefore hleased'
  · have hnone := List.all_eq_true.1 (hunrivalled.noneActive hkinds hkind) (key, other)
      (Table.mem_toList.2 hother)
    simp [hrepository, hkind', hleased'.holdsLease (hvalid key other hother)] at hnone

theorem Edit.exclusive {kinds : OperationKind → Bool} (h : Edit C nowMs call t t')
    (hkinds : Exclusively kinds) (hacquires : call.acquires = false) (hvalid : AllValid C t)
    (ex : Exclusive kinds nowMs t) : Exclusive kinds nowMs t' := by
  intro key key' row₁ row₂ h₁ h₂ hrepository hkind hkind' hleased hleased'
  cases h with
  | rewrite id row row' handoff' rewrites valid edit =>
    have hrow := rewrites.operation_eq
    rw [rewrites.operations] at h₁ h₂
    split_ifs at h₁ h₂ with hkey hkey' hkey'
    · rw [hkey, hkey']
    · obtain rfl := Option.some.inj h₁
      rw [hkey]
      exact ex.rewritten hkinds hvalid hacquires edit hrow h₂ hrepository hkind hkind' hleased
        hleased'
    · obtain rfl := Option.some.inj h₂
      rw [hkey']
      exact (ex.rewritten hkinds hvalid hacquires edit hrow h₁ hrepository.symm hkind' hkind
        hleased' hleased).symm
    · exact ex key key' row₁ row₂ h₁ h₂ hrepository hkind hkind' hleased hleased'
  | submit request randomBytes id json completed total retainUntilMs handoff called free matched =>
    have hqueued {row : OperationRow} (hleased : Leased row nowMs)
        (heq : submittedRow request json completed total retainUntilMs nowMs = row) : False := by
      subst heq
      obtain ⟨lease, hlease, -⟩ := hleased
      cases hlease
    rw [Tables.operations_setHandoff, Tables.operations_setOperation] at h₁ h₂
    split_ifs at h₁ h₂ with hkey hkey' hkey'
    · rw [hkey, hkey']
    · exact (hqueued hleased (Option.some.inj h₁)).elim
    · exact (hqueued hleased' (Option.some.inj h₂)).elim
    · exact ex key key' row₁ row₂ h₁ h₂ hrepository hkind hkind' hleased hleased'
  | remove id row called found terminal elapsed removes =>
    rw [removes.operations] at h₁ h₂
    split_ifs at h₁ h₂
    exact ex key key' row₁ row₂ h₁ h₂ hrepository hkind hkind' hleased hleased'
  | dropTombstone => exact ex key key' row₁ row₂ h₁ h₂ hrepository hkind hkind' hleased hleased'

/-! ### Runs of the runners -/

variable (C) in
/-- The rows decode, and the kinds exclude each other. -/
structure Excludes (nowMs : Int) (t : Tables) : Prop where
  valid : AllValid C t
  exclusive : ∀ kinds, Exclusively kinds → Exclusive kinds nowMs t

theorem Excludes.empty : Excludes C nowMs Tables.empty where
  valid _ _ h := by simp [Tables.empty] at h
  exclusive _ _ _ _ _ _ h := by simp [Tables.empty] at h

theorem Excludes.mono {nowMs' : Int} (h : Excludes C nowMs t) (hnow : nowMs ≤ nowMs') :
    Excludes C nowMs' t :=
  ⟨h.valid, fun kinds hkinds => (h.exclusive kinds hkinds).mono hnow⟩

theorem Edit.excludes (edit : Edit C nowMs call t t') (hacquires : call.acquires = false)
    (h : Excludes C nowMs t) : Excludes C nowMs t' :=
  ⟨edit.allValid h.valid, fun kinds hkinds =>
    edit.exclusive hkinds hacquires h.valid (h.exclusive kinds hkinds)⟩

theorem RunnerReachable.excludes {c : Config Int Tables} (h : RunnerReachable C repositoryId c) :
    Excludes C c.now c.state := by
  obtain ⟨start, hrun⟩ := h
  exact hrun.invariant_at (I := Excludes C) .empty fun _ _ _ _ _ hnow hstep hexcludes =>
    hstep.steps.edits.invariant (hexcludes.mono hnow) fun _ _ edit =>
      edit.excludes hstep.acquires

/-- **While a lease lives, calls without its token leave the work of the operation alone.** -/
theorem keepsWork_of_run {c c' : Config Int Tables} {lease : OperationLease}
    (hvalid : AllValid C c.state) (hrow : c.state.operations[id]? = some row)
    (hlease : leaseOf row = some lease)
    (hrun : Run (ForeignSteps (C := C) repositoryId lease.tokenDigest) c c')
    (hlive : c'.now < lease.expiresAtMs) :
    AllValid C c'.state ∧ KeepsWork id row c'.state := by
  induction hrun with
  | refl => exact ⟨hvalid, row, hrow, .refl row⟩
  | @tail c₁ c₂ hrun hnext ih =>
    obtain ⟨event, hsteps⟩ := hnext.takes
    exact hsteps.steps.steps.edits.invariant
      (I := fun t => AllValid C t ∧ KeepsWork id row t)
      (ih (hnext.now_le.trans_lt hlive)) fun _ _ edit h =>
        ⟨edit.allValid h.1, edit.keepsWork hsteps.steps.publishes h.1 hlease hlive
          hsteps.foreign h.2⟩

/-- **Runners exclude each other.** In every state that they reach, at most one token holds the
unexpired lease of an operation; until the lease expires, calls without that token change neither
the progress of the operation nor its lease nor its outcome; and at every instant from then on at
most one writer of the graph store and one project execution of a repository are leased. -/
theorem runners_exclude {c : Config Int Tables} (h : RunnerReachable C repositoryId c) :
    (∀ (id : String) (row : OperationRow) (nowMs : Int) (leaseToken leaseToken' : List UInt8),
      c.state.operations[id]? = some row → Journal.HoldsToken C row leaseToken nowMs →
        Journal.HoldsToken C row leaseToken' nowMs →
          C.sha256 leaseToken = C.sha256 leaseToken') ∧
    (∀ (id : String) (row : OperationRow) (lease : OperationLease) (c' : Config Int Tables),
      c.state.operations[id]? = some row → leaseOf row = some lease →
        Run (ForeignSteps (C := C) repositoryId lease.tokenDigest) c c' →
          c'.now < lease.expiresAtMs →
            ∃ row', c'.state.operations[id]? = some row' ∧ SameWork row row') ∧
    ∀ (kinds : OperationKind → Bool) (nowMs : Int), Exclusively kinds → c.now ≤ nowMs →
      Exclusive kinds nowMs c.state := by
  obtain ⟨hvalid, hexclusive⟩ := h.excludes
  refine ⟨fun id row nowMs leaseToken leaseToken' hrow hholds hholds' => ?_,
    fun id row lease c' hrow hlease hrun hlive => ?_, fun kinds nowMs hkinds hnow => ?_⟩
  · obtain ⟨lease, hlease, hdigest, -⟩ := hholds
    obtain ⟨lease', hlease', hdigest', -⟩ := hholds'
    obtain rfl := Option.some.inj (hlease.symm.trans hlease')
    exact hdigest.symm.trans hdigest'
  · exact (keepsWork_of_run hvalid hrow hlease hrun hlive).2
  · exact (hexclusive kinds hkinds).mono hnow

end

/-! ### A claimed project execution -/

namespace Sample

/-- The submitted execution with a lease until 500. -/
def claimed : Config Int Tables :=
  journal.calls [(1, .claimNextRunnerHandoff repositoryId owner [1] 500)] submitted

theorem claimed_reachable : RunnerReachable codec repositoryId claimed := by
  have hsubmit : Next (RunnerSteps repositoryId) ⟨0, Tables.empty⟩ submitted :=
    ⟨by decide, ⟨journal, .intact, submit⟩, ⟨rfl, rfl⟩, rfl, rfl⟩
  have hclaim : Next (RunnerSteps repositoryId) submitted claimed :=
    ⟨by decide, ⟨journal, .intact, .claimNextRunnerHandoff repositoryId owner [1] 500⟩,
      ⟨rfl, rfl⟩, rfl, rfl⟩
  exact ⟨0, (Relation.ReflTransGen.single hsubmit).tail hclaim⟩

end Sample

open Sample in
/-- The token of a claim holds the lease, and excludes other project executions. -/
theorem runners_exclude_claimed :
    (∃ row, claimed.state.operations[operationId.str]? = some row ∧
      row.leaseTokenDigest = some (codec.sha256 [1])) ∧
      Exclusive (· == .resolveBuildSubmit) 2 claimed.state := by
  have hdigest : (claimed.state.operations[operationId.str]?).map OperationRow.leaseTokenDigest =
      some (some (codec.sha256 [1])) := by
    decide +kernel
  exact ⟨Option.map_eq_some_iff.1 hdigest,
    (runners_exclude claimed_reachable).2.2 _ 2 .projectExec (by decide)⟩

end Operation
