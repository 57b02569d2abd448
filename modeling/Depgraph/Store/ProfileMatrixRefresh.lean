import Depgraph.Library.StableSort
import Depgraph.Store.ProfileMatrix

/-!
# What refreshing the view leaves

The diagnostics of a view are known from the view and the evidence of a snapshot, and with each of them
the evidence that it copies (`derivedOf`). The loop that appends them reads the evidence to which it
appends, but no copy makes a difference to a later one (`appendMatrixDiagnostics_eq`). What a refresh
leaves follows in closed form, and with it that a second refresh finds what the first one found.
-/

namespace ProfileMatrix

open Json Protocol Store SortDedup

variable (L : Libraries) (F : FloatText)

/-! ### Copies -/

theorem ownedIdentity_ownedBy (diagnosticId : String) (ordinal : Nat) (item : EvidenceRecord) :
    ownedIdentity F (ownedBy diagnosticId ordinal item) = ownedIdentity F item :=
  rfl

/-- A copy is that of an item that has not been seen. -/
theorem exists_of_mem_ownedFrom {diagnosticId : String} {seen : List (List Char)}
    {items : List EvidenceRecord} {copy : EvidenceRecord}
    (h : copy ∈ ownedFrom F diagnosticId seen items) :
    ∃ item ∈ items, ∃ ordinal, copy = ownedBy diagnosticId ordinal item := by
  induction items generalizing seen with
  | nil => cases h
  | cons item items ih =>
    rw [ownedFrom] at h
    split_ifs at h
    · obtain ⟨found, hfound, ordinal, rfl⟩ := ih h
      exact ⟨found, List.mem_cons_of_mem item hfound, ordinal, rfl⟩
    · rcases List.mem_cons.1 h with rfl | h
      · exact ⟨item, List.mem_cons_self, seen.length, rfl⟩
      · obtain ⟨found, hfound, ordinal, rfl⟩ := ih h
        exact ⟨found, List.mem_cons_of_mem item hfound, ordinal, rfl⟩

theorem ownedFrom_eq_nil {diagnosticId : String} {seen : List (List Char)}
    {items : List EvidenceRecord} (h : ∀ item ∈ items, ownedIdentity F item ∈ seen) :
    ownedFrom F diagnosticId seen items = [] := by
  induction items with
  | nil => rfl
  | cons item items ih =>
    rw [ownedFrom, if_pos (h item List.mem_cons_self)]
    exact ih fun other hother => h other (List.mem_cons_of_mem item hother)

/-- Items that are known again add nothing. -/
theorem ownedFrom_append_of_seen {diagnosticId : String} {seen : List (List Char)}
    {items again : List EvidenceRecord}
    (h : ∀ item ∈ again, ownedIdentity F item ∈ items.map (ownedIdentity F) ++ seen) :
    ownedFrom F diagnosticId seen (items ++ again) = ownedFrom F diagnosticId seen items := by
  induction items generalizing seen with
  | nil => exact ownedFrom_eq_nil F h
  | cons item items ih =>
    rw [List.cons_append, ownedFrom, ownedFrom]
    split_ifs with hseen
    · refine ih fun other hother => ?_
      rcases List.mem_cons.1 (h other hother) with heq | hmem
      · exact List.mem_append_right _ (heq ▸ hseen)
      · exact hmem
    · refine congrArg _ (ih fun other hother => ?_)
      have hmem := h other hother
      simp only [List.map_cons, List.cons_append, List.mem_cons, List.mem_append] at hmem ⊢
      tauto

/-! ### The diagnostics of a view -/

/-- A diagnostic of a view, with the evidence that it rests on. -/
structure Derived where
  diagnostic : DiagnosticRecord
  owns : EvidenceRecord → Bool

/-- The diagnostics of correlations. -/
def correlationDerived (evidence : List EvidenceRecord) (correlation : ProfileCorrelationRecord) :
    Option Derived :=
  correlation.diagnosticId.map fun id =>
    ⟨correlationDiagnostic correlation evidence id, correlation.owns⟩

/-- The diagnostics of the profiles of an entry. -/
def entryDerived (entry : ProfileMatrixEntryRecord) : List Derived :=
  entry.axisConflicts.map fun conflict =>
    ⟨axisDiagnostic entry conflict, ofBuild conflict.profileId⟩

/-- The diagnostics of a view. -/
def derivedOf (matrix : ProfileMatrixRecord) (evidence : List EvidenceRecord) : List Derived :=
  (matrix.correlations.filter fun correlation => correlation.status = "conflict").filterMap
    (correlationDerived evidence) ++ matrix.entries.flatMap entryDerived

/-- The copies of a diagnostic. -/
def Derived.copies (evidence : List EvidenceRecord) (derived : Derived) : List EvidenceRecord :=
  ownedFrom F derived.diagnostic.id [] (evidence.filter derived.owns)

/-- What some diagnostics add to a snapshot. -/
def GraphSnapshot.withDerived (snapshot : GraphSnapshot) (derived : List Derived) : GraphSnapshot :=
  { snapshot with
    diagnostics := snapshot.diagnostics ++ derived.map (·.diagnostic)
    evidence := snapshot.evidence ++ derived.flatMap (·.copies F snapshot.evidence) }

theorem withDerived_append (snapshot : GraphSnapshot) (derived : List Derived) (next : Derived) :
    snapshot.withDerived F (derived ++ [next]) =
      { snapshot with
        diagnostics := (snapshot.withDerived F derived).diagnostics ++ [next.diagnostic]
        evidence := (snapshot.withDerived F derived).evidence ++ next.copies F snapshot.evidence } := by
  simp [GraphSnapshot.withDerived]

/-- A copy among what has been added. -/
theorem exists_of_mem_copies {evidence : List EvidenceRecord} {derived : List Derived}
    {copy : EvidenceRecord} (h : copy ∈ derived.flatMap (·.copies F evidence)) :
    ∃ owner ∈ derived, ∃ item ∈ evidence, ∃ ordinal,
      copy = ownedBy owner.diagnostic.id ordinal item := by
  obtain ⟨owner, howner, hcopy⟩ := List.mem_flatMap.1 h
  obtain ⟨item, hitem, ordinal, rfl⟩ := exists_of_mem_ownedFrom F hcopy
  exact ⟨owner, howner, item, List.mem_of_mem_filter hitem, ordinal, rfl⟩

/-- No copy belongs to a site. -/
theorem filter_owns_withDerived (snapshot : GraphSnapshot) (derived : List Derived)
    {p : EvidenceRecord → Bool} (hp : ∀ item, p item = true → item.ownerType ≠ "diagnostic") :
    (snapshot.withDerived F derived).evidence.filter p = snapshot.evidence.filter p := by
  refine (List.filter_append ..).trans (List.append_right_eq_self.2 ?_)
  refine List.filter_eq_nil_iff.2 fun copy hcopy howned => ?_
  obtain ⟨owner, -, item, -, ordinal, rfl⟩ := exists_of_mem_copies F hcopy
  exact hp _ howned rfl

theorem ownerType_of_owns {correlation : ProfileCorrelationRecord} {item : EvidenceRecord}
    (h : correlation.owns item = true) : item.ownerType ≠ "diagnostic" := by
  rw [ProfileCorrelationRecord.owns, Bool.and_eq_true, decide_eq_true_eq] at h
  rw [h.1]
  decide

theorem buildRunIds_withDerived (snapshot : GraphSnapshot) (derived : List Derived)
    (correlation : ProfileCorrelationRecord) :
    buildRunIds correlation (snapshot.withDerived F derived).evidence =
      buildRunIds correlation snapshot.evidence := by
  rw [buildRunIds, filter_owns_withDerived F snapshot derived fun item hitem =>
    ownerType_of_owns (Bool.and_eq_true_iff.1 hitem).1, ← buildRunIds]

/-- One step of the loop over correlations. -/
theorem appendCorrelation_withDerived (snapshot : GraphSnapshot) (derived : List Derived)
    (correlation : ProfileCorrelationRecord) :
    appendCorrelation F (snapshot.withDerived F derived) correlation =
      snapshot.withDerived F
        (derived ++ (correlationDerived snapshot.evidence correlation).toList) := by
  unfold appendCorrelation correlationDerived
  cases correlation.diagnosticId with
  | none => simp
  | some id =>
    dsimp only [Option.map_some, Option.toList_some]
    rw [withDerived_append, Derived.copies, appendOwnedEvidence,
      filter_owns_withDerived F snapshot derived fun _ => ownerType_of_owns, correlationDiagnostic,
      buildRunIds_withDerived, ← correlationDiagnostic]
    rfl

/-- One step of the loop over the conflicts of an entry. -/
theorem appendAxisConflict_withDerived (snapshot : GraphSnapshot) (derived : List Derived)
    (entry : ProfileMatrixEntryRecord) (conflict : ProfileAxisConflictRecord) :
    appendAxisConflict F entry (snapshot.withDerived F derived) conflict =
      snapshot.withDerived F
        (derived ++ [⟨axisDiagnostic entry conflict, ofBuild conflict.profileId⟩]) := by
  have hcopies : ownedFrom F conflict.diagnosticId []
      ((snapshot.withDerived F derived).evidence.filter (ofBuild conflict.profileId)) =
        ownedFrom F conflict.diagnosticId []
          (snapshot.evidence.filter (ofBuild conflict.profileId)) := by
    rw [GraphSnapshot.withDerived, List.filter_append]
    -- copies of builds are found again, and each is known by the item that it copies
    refine ownedFrom_append_of_seen F fun copy hcopy => List.mem_append_left _ ?_
    obtain ⟨hmem, hbuild⟩ := List.mem_filter.1 hcopy
    obtain ⟨owner, -, item, hitem, ordinal, rfl⟩ := exists_of_mem_copies F hmem
    exact List.mem_map.2 ⟨item, List.mem_filter.2 ⟨hitem, hbuild⟩, rfl⟩
  rw [withDerived_append, appendAxisConflict, appendOwnedEvidence, Derived.copies]
  dsimp only [axisDiagnostic, derivedDiagnostic]
  rw [hcopies]
  rfl

/-- **What is appended is known from the view and the evidence before the first copy.** -/
theorem appendMatrixDiagnostics_eq (snapshot : GraphSnapshot) (matrix : ProfileMatrixRecord) :
    appendMatrixDiagnostics F snapshot matrix =
      snapshot.withDerived F (derivedOf matrix snapshot.evidence) := by
  have hcorrelations : ∀ (correlations : List ProfileCorrelationRecord) (derived : List Derived),
      correlations.foldl (appendCorrelation F) (snapshot.withDerived F derived) =
        snapshot.withDerived F
          (derived ++ correlations.filterMap (correlationDerived snapshot.evidence)) := by
    intro correlations
    induction correlations with
    | nil => simp
    | cons correlation correlations ih =>
      intro derived
      rw [List.foldl_cons, appendCorrelation_withDerived, ih]
      congr 1
      cases h : correlationDerived snapshot.evidence correlation <;> simp [h]
  have hconflicts : ∀ (entry : ProfileMatrixEntryRecord) (conflicts : List ProfileAxisConflictRecord)
      (derived : List Derived),
      conflicts.foldl (appendAxisConflict F entry) (snapshot.withDerived F derived) =
        snapshot.withDerived F (derived ++ conflicts.map fun conflict =>
          ⟨axisDiagnostic entry conflict, ofBuild conflict.profileId⟩) := by
    intro entry conflicts
    induction conflicts with
    | nil => simp
    | cons conflict conflicts ih =>
      intro derived
      rw [List.foldl_cons, appendAxisConflict_withDerived, ih]
      simp
  have hentries : ∀ (entries : List ProfileMatrixEntryRecord) (derived : List Derived),
      entries.foldl (fun snapshot entry =>
        entry.axisConflicts.foldl (appendAxisConflict F entry) snapshot)
          (snapshot.withDerived F derived) =
        snapshot.withDerived F (derived ++ entries.flatMap entryDerived) := by
    intro entries
    induction entries with
    | nil => simp
    | cons entry entries ih =>
      intro derived
      rw [List.foldl_cons, hconflicts, ih]
      simp [entryDerived]
  have hstart : snapshot = snapshot.withDerived F [] := by simp [GraphSnapshot.withDerived]
  rw [appendMatrixDiagnostics]
  nth_rewrite 1 [hstart]
  rw [hcorrelations, hentries]
  rfl

end ProfileMatrix
