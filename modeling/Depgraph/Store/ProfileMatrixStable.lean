import Depgraph.Store.ProfileMatrixOrder
import Depgraph.Store.ProfileMatrixRefresh

/-!
# Refreshing the view is stable

* A second refresh finds the view and the diagnostics of the first. It finds the copies as well, when
  the evidence stood in order and no other diagnostic has the id of one of the view; once the view has
  been refreshed the evidence is in order.
* Records in another order lead to the same diagnostics, to the same view but for the languages of its
  entries, and to copies that differ in their ordinals at most.
* Without observed sites the profiles alone lead to all diagnostics of the view.
-/

namespace ProfileMatrix

open Json Protocol Store SortDedup

variable (L : Libraries)

/-! ### What a refresh leaves -/

/-- The view that a refresh builds. -/
def GraphSnapshot.view (includeGraph : Bool) (snapshot : GraphSnapshot) : ProfileMatrixRecord :=
  (snapshot.retain.matrixSource includeGraph).matrix L

/-- The diagnostics that a refresh adds. -/
def GraphSnapshot.derived (includeGraph : Bool) (snapshot : GraphSnapshot) : List Derived :=
  derivedOf (snapshot.view L includeGraph) snapshot.retain.evidence

/-- The diagnostics after a refresh of the view. -/
def GraphSnapshot.refreshedDiagnostics (snapshot : GraphSnapshot) : List DiagnosticRecord :=
  sortByKey (·.id) (snapshot.retain.diagnostics ++ (snapshot.derived L true).map (·.diagnostic))

/-- The evidence after a refresh, before it is sorted. -/
def GraphSnapshot.refreshedEvidence (snapshot : GraphSnapshot) : List EvidenceRecord :=
  snapshot.retain.evidence ++
    (snapshot.derived L true).flatMap (·.copies L.floatText snapshot.retain.evidence)

theorem refreshProfileMatrixView_eq (snapshot : GraphSnapshot) :
    refreshProfileMatrixView L snapshot =
      { snapshot with
        profileMatrix := snapshot.view L true
        diagnostics := numberedFrom 0 (snapshot.refreshedDiagnostics L)
        evidence := sortByKey evidenceKey (snapshot.refreshedEvidence L) } := by
  unfold refreshProfileMatrixView refreshProfileMatrix refreshProfileMatrixInner
  dsimp only
  rw [appendMatrixDiagnostics_eq, if_pos rfl]
  rfl

/-! ### Diagnostics of the view -/

theorem isProfileMatrixDiagnostic_derived {matrix : ProfileMatrixRecord}
    {evidence : List EvidenceRecord} {derived : Derived} (h : derived ∈ derivedOf matrix evidence) :
    isProfileMatrixDiagnostic derived.diagnostic = true := by
  rcases List.mem_append.1 h with h | h
  · obtain ⟨correlation, -, hcorrelation⟩ := List.mem_filterMap.1 h
    obtain ⟨id, -, rfl⟩ := Option.map_eq_some_iff.1 hcorrelation
    rfl
  · obtain ⟨entry, -, hentry⟩ := List.mem_flatMap.1 h
    obtain ⟨conflict, -, rfl⟩ := List.mem_map.1 hentry
    rfl

/-- A diagnostic without its ordinal. -/
def unplaced (diagnostic : DiagnosticRecord) : DiagnosticRecord := { diagnostic with ordinal := 0 }

theorem id_unplaced (diagnostic : DiagnosticRecord) : (unplaced diagnostic).id = diagnostic.id :=
  rfl

theorem map_unplaced_sortByKey (diagnostics : List DiagnosticRecord) :
    (sortByKey (·.id) diagnostics).map unplaced = sortByKey (·.id) (diagnostics.map unplaced) :=
  map_sortByKey unplaced id_unplaced diagnostics

theorem numberedFrom_unplaced (first : Int) (diagnostics : List DiagnosticRecord) :
    numberedFrom first (diagnostics.map unplaced) = numberedFrom first diagnostics := by
  refine List.ext_getElem? fun i => ?_
  unfold numberedFrom
  rw [List.getElem?_mapIdx, List.getElem?_mapIdx, List.getElem?_map, Option.map_map]
  rfl

theorem map_unplaced_numberedFrom (first : Int) (diagnostics : List DiagnosticRecord) :
    (numberedFrom first diagnostics).map unplaced = diagnostics.map unplaced := by
  refine List.ext_getElem? fun i => ?_
  unfold numberedFrom
  rw [List.getElem?_map, List.getElem?_map, List.getElem?_mapIdx, Option.map_map]
  rfl

/-- The diagnostics that the next refresh retains. -/
theorem retain_refreshed_diagnostics (snapshot : GraphSnapshot) :
    (refreshProfileMatrixView L snapshot).retain.diagnostics.map unplaced =
      sortByKey (·.id) (snapshot.retain.diagnostics.map unplaced) := by
  have hretained : (snapshot.retain.diagnostics ++ (snapshot.derived L true).map (·.diagnostic)).filter
      (fun diagnostic => !isProfileMatrixDiagnostic diagnostic) = snapshot.retain.diagnostics := by
    rw [List.filter_append]
    refine (congrArg₂ _ ?_ ?_).trans (List.append_nil _)
    · exact List.filter_eq_self.2 fun diagnostic h => (List.mem_filter.1 h).2
    · refine List.filter_eq_nil_iff.2 fun diagnostic h => ?_
      obtain ⟨derived, hderived, rfl⟩ := List.mem_map.1 h
      rw [isProfileMatrixDiagnostic_derived hderived]
      exact Bool.false_ne_true
  have hcomm : ∀ diagnostics : List DiagnosticRecord,
      (diagnostics.map unplaced).filter (fun diagnostic => !isProfileMatrixDiagnostic diagnostic) =
        (diagnostics.filter fun diagnostic => !isProfileMatrixDiagnostic diagnostic).map unplaced :=
    fun _ => List.filter_map
  calc (refreshProfileMatrixView L snapshot).retain.diagnostics.map unplaced
      = ((numberedFrom 0 (snapshot.refreshedDiagnostics L)).filter fun diagnostic =>
          !isProfileMatrixDiagnostic diagnostic).map unplaced := by
        rw [refreshProfileMatrixView_eq]
        rfl
    _ = ((numberedFrom 0 (snapshot.refreshedDiagnostics L)).map unplaced).filter fun diagnostic =>
          !isProfileMatrixDiagnostic diagnostic := (hcomm _).symm
    _ = ((snapshot.refreshedDiagnostics L).filter fun diagnostic =>
          !isProfileMatrixDiagnostic diagnostic).map unplaced := by
        rw [map_unplaced_numberedFrom, hcomm]
    _ = sortByKey (·.id) (snapshot.retain.diagnostics.map unplaced) := by
        rw [GraphSnapshot.refreshedDiagnostics, filter_sortByKey, hretained, map_unplaced_sortByKey]

/-- The ids of what the next refresh retains. -/
theorem retain_refreshed_ids (snapshot : GraphSnapshot) :
    ((refreshProfileMatrixView L snapshot).retain.diagnostics.map (·.id)).Perm
      (snapshot.retain.diagnostics.map (·.id)) := by
  have hids : ∀ diagnostics : List DiagnosticRecord,
      diagnostics.map (·.id) = (diagnostics.map unplaced).map (·.id) := by
    intro diagnostics
    rw [List.map_map]
    rfl
  rw [hids, retain_refreshed_diagnostics, hids snapshot.retain.diagnostics]
  exact (sortByKey_perm _ _).map _

/-! ### Evidence of the view -/

/-- Evidence stays unless a diagnostic of an earlier view owns it. -/
def GraphSnapshot.keeps (snapshot : GraphSnapshot) (evidence : EvidenceRecord) : Bool :=
  evidence.ownerType ≠ "diagnostic" ||
    (snapshot.retain.diagnostics.map (·.id)).contains evidence.ownerId

theorem keeps_refreshed (snapshot : GraphSnapshot) :
    (refreshProfileMatrixView L snapshot).keeps = snapshot.keeps := by
  funext evidence
  unfold GraphSnapshot.keeps
  rw [(retain_refreshed_ids L snapshot).contains_eq]

theorem retain_refreshed_evidence (snapshot : GraphSnapshot) :
    (refreshProfileMatrixView L snapshot).retain.evidence =
      sortByKey evidenceKey (snapshot.retain.evidence ++
        ((snapshot.derived L true).flatMap (·.copies L.floatText snapshot.retain.evidence)).filter
          snapshot.keeps) := by
  have hkept : snapshot.retain.evidence.filter snapshot.keeps = snapshot.retain.evidence :=
    List.filter_eq_self.2 fun evidence h => (List.mem_filter.1 h).2
  have hfilter : (refreshProfileMatrixView L snapshot).retain.evidence =
      (refreshProfileMatrixView L snapshot).evidence.filter
        (refreshProfileMatrixView L snapshot).keeps := rfl
  rw [hfilter, keeps_refreshed, refreshProfileMatrixView_eq]
  dsimp only
  rw [filter_sortByKey, GraphSnapshot.refreshedEvidence, List.filter_append, hkept]

/-- The evidence of sites and edges stays. -/
theorem retain_refreshed_ofGraph (snapshot : GraphSnapshot) :
    ((refreshProfileMatrixView L snapshot).retain.evidence.filter ofGraph).Perm
      (snapshot.retain.evidence.filter ofGraph) := by
  rw [retain_refreshed_evidence]
  refine ((sortByKey_perm _ _).filter _).trans ?_
  rw [List.filter_append]
  refine List.Perm.of_eq (List.append_right_eq_self.2 (List.filter_eq_nil_iff.2 fun copy h => ?_))
  obtain ⟨owner, -, item, -, ordinal, rfl⟩ :=
    exists_of_mem_copies L.floatText (List.mem_of_mem_filter h)
  exact Bool.false_ne_true

/-- The runs of builds are those of the evidence of sites. -/
theorem buildRunIds_congr {evidence evidence' : List EvidenceRecord}
    (h : (evidence.filter ofGraph).Perm (evidence'.filter ofGraph))
    (correlation : ProfileCorrelationRecord) :
    buildRunIds correlation evidence = buildRunIds correlation evidence' := by
  have hfactor := filter_ofGraph (p := fun item => correlation.owns item && item.kind = "build")
    fun item hitem => decide_eq_true (ownerType_of_owns (Bool.and_eq_true_iff.1 hitem).1)
  unfold buildRunIds
  rw [hfactor, hfactor evidence']
  exact exact_id_perm ((h.filter _).filterMap _)

/-- The diagnostics of a view are known from the evidence of sites and edges. -/
theorem derivedOf_congr {evidence evidence' : List EvidenceRecord}
    (h : (evidence.filter ofGraph).Perm (evidence'.filter ofGraph)) (matrix : ProfileMatrixRecord) :
    derivedOf matrix evidence = derivedOf matrix evidence' := by
  have hcorrelation : correlationDerived evidence = correlationDerived evidence' := by
    funext correlation
    unfold correlationDerived correlationDiagnostic
    rw [buildRunIds_congr h]
  unfold derivedOf
  rw [hcorrelation]

/-! ### A second refresh -/

/-- The diagnostics of a view do not tell languages. -/
theorem derivedOf_withoutLanguages (matrix : ProfileMatrixRecord) (evidence : List EvidenceRecord) :
    derivedOf matrix.withoutLanguages evidence = derivedOf matrix evidence := by
  unfold derivedOf ProfileMatrixRecord.withoutLanguages
  rw [List.flatMap_map]
  rfl

section Reordered

variable {L} {snapshot other : GraphSnapshot}
  (h : (snapshot.retain.matrixSource true).Reordered (other.retain.matrixSource true))
  (hids : (snapshot.retain.matrixSource true).UniqueIds)
  (hparts : (snapshot.retain.matrixSource true).SameParts L (other.retain.matrixSource true))

include h hids hparts

theorem MatrixSource.Reordered.view_eq :
    (snapshot.view L true).withoutLanguages = (other.view L true).withoutLanguages :=
  MatrixSource.matrix_congr h hids hparts

theorem MatrixSource.Reordered.view_eq_of_languages
    (hlanguages : (snapshot.retain.matrixSource true).SameLanguages L (other.retain.matrixSource true)) :
    snapshot.view L true = other.view L true :=
  MatrixSource.matrix_congr_of_languages h hids hparts hlanguages

theorem MatrixSource.Reordered.derived_eq : snapshot.derived L true = other.derived L true := by
  unfold GraphSnapshot.derived
  refine (derivedOf_congr h.evidence _).trans ?_
  rw [← derivedOf_withoutLanguages, h.view_eq hids hparts, derivedOf_withoutLanguages]
  rfl

end Reordered

theorem reordered_refreshed (snapshot : GraphSnapshot) :
    (snapshot.retain.matrixSource true).Reordered
      ((refreshProfileMatrixView L snapshot).retain.matrixSource true) := by
  have hevidence := (retain_refreshed_ofGraph L snapshot).symm
  rw [refreshProfileMatrixView_eq] at hevidence ⊢
  exact ⟨.refl _, .refl _, .refl _, hevidence⟩

section Again

variable {L} {snapshot : GraphSnapshot} (hids : (snapshot.retain.matrixSource true).UniqueIds)

include hids

/-- A second refresh builds the same view, and adds the same diagnostics. -/
theorem view_refreshed :
    (refreshProfileMatrixView L snapshot).view L true = snapshot.view L true ∧
      (refreshProfileMatrixView L snapshot).derived L true = snapshot.derived L true := by
  obtain ⟨hparts, hlanguages⟩ := MatrixSource.same_of_eq (L := L)
    (m := snapshot.retain.matrixSource true)
    (n := (refreshProfileMatrixView L snapshot).retain.matrixSource true)
    (by rw [refreshProfileMatrixView_eq]; rfl) (by rw [refreshProfileMatrixView_eq]; rfl)
  have hreordered := reordered_refreshed L snapshot
  exact ⟨(hreordered.view_eq_of_languages hids hparts hlanguages).symm,
    (hreordered.derived_eq hids hparts).symm⟩

/-- **A second refresh leaves the view and its diagnostics alone.** -/
theorem refreshProfileMatrixView_again :
    (refreshProfileMatrixView L (refreshProfileMatrixView L snapshot)).profileMatrix =
        (refreshProfileMatrixView L snapshot).profileMatrix ∧
      (refreshProfileMatrixView L (refreshProfileMatrixView L snapshot)).diagnostics =
        (refreshProfileMatrixView L snapshot).diagnostics := by
  obtain ⟨hview, hderived⟩ := view_refreshed (L := L) hids
  have hplaced : ((refreshProfileMatrixView L snapshot).refreshedDiagnostics L).map unplaced =
      (snapshot.refreshedDiagnostics L).map unplaced := by
    unfold GraphSnapshot.refreshedDiagnostics
    rw [hderived, map_unplaced_sortByKey, map_unplaced_sortByKey, List.map_append, List.map_append,
      retain_refreshed_diagnostics, sortByKey_sortByKey_append]
  have hsecond := refreshProfileMatrixView_eq L (refreshProfileMatrixView L snapshot)
  have hfirst := refreshProfileMatrixView_eq L snapshot
  refine ⟨?_, ?_⟩
  · rw [congrArg GraphSnapshot.profileMatrix hsecond, congrArg GraphSnapshot.profileMatrix hfirst]
    exact hview
  · rw [congrArg GraphSnapshot.diagnostics hsecond, congrArg GraphSnapshot.diagnostics hfirst]
    dsimp only
    rw [← numberedFrom_unplaced, hplaced, numberedFrom_unplaced]

omit hids in
/-- No other diagnostic has the id of one of the view. -/
def GraphSnapshot.Fresh (L : Libraries) (snapshot : GraphSnapshot) : Prop :=
  ∀ derived ∈ snapshot.derived L true,
    derived.diagnostic.id ∉ snapshot.retain.diagnostics.map (·.id)

omit hids in
/-- What the next refresh retains of the evidence, when no copy stays. -/
theorem retain_refreshed_evidence_of_fresh (hfresh : snapshot.Fresh L) :
    (refreshProfileMatrixView L snapshot).retain.evidence =
      sortByKey evidenceKey snapshot.retain.evidence := by
  rw [retain_refreshed_evidence]
  refine congrArg _ (List.append_right_eq_self.2 (List.filter_eq_nil_iff.2 fun copy hcopy hkept => ?_))
  obtain ⟨owner, howner, item, -, ordinal, rfl⟩ := exists_of_mem_copies L.floatText hcopy
  refine hfresh owner howner (List.contains_iff_mem.1 ?_)
  exact (Bool.or_eq_true_iff.1 hkept).resolve_left (by simp [ownedBy])

/-- **A second refresh changes nothing, when the evidence stands in order.** -/
theorem refreshProfileMatrixView_idem (hfresh : snapshot.Fresh L)
    (hsorted : snapshot.evidence.Pairwise fun a b => evidenceKey a ≤ evidenceKey b) :
    refreshProfileMatrixView L (refreshProfileMatrixView L snapshot) =
      refreshProfileMatrixView L snapshot := by
  obtain ⟨hmatrix, hdiagnostics⟩ := refreshProfileMatrixView_again (L := L) hids
  -- the copies are numbered in the order of the evidence, which has not changed
  have hretained : (refreshProfileMatrixView L snapshot).retain.evidence = snapshot.retain.evidence := by
    rw [retain_refreshed_evidence_of_fresh hfresh]
    exact sortByKey_eq_self evidenceKey (hsorted.filter _)
  have hevidence : (refreshProfileMatrixView L snapshot).refreshedEvidence L =
      snapshot.refreshedEvidence L := by
    unfold GraphSnapshot.refreshedEvidence
    rw [(view_refreshed hids).2, hretained]
  have hsecond := refreshProfileMatrixView_eq L (refreshProfileMatrixView L snapshot)
  have hfirst := refreshProfileMatrixView_eq L snapshot
  rw [congrArg GraphSnapshot.profileMatrix hsecond, congrArg GraphSnapshot.profileMatrix hfirst]
    at hmatrix
  rw [congrArg GraphSnapshot.diagnostics hsecond, congrArg GraphSnapshot.diagnostics hfirst]
    at hdiagnostics
  dsimp only at hmatrix hdiagnostics
  rw [hsecond, hmatrix, hdiagnostics, hevidence, hfirst]

omit hids in
theorem uniqueIds_refreshed (hids : (snapshot.retain.matrixSource true).UniqueIds) :
    ((refreshProfileMatrixView L snapshot).retain.matrixSource true).UniqueIds := by
  have hreordered := reordered_refreshed L snapshot
  exact ⟨(hreordered.profiles.map _).nodup_iff.1 hids.profiles,
    (hreordered.sites.map _).nodup_iff.1 hids.sites, (hreordered.edges.map _).nodup_iff.1 hids.edges,
    (hreordered.evidence.map _).nodup_iff.1 hids.evidence⟩

/-- **A third refresh changes nothing.** -/
theorem refreshProfileMatrixView_third (hfresh : snapshot.Fresh L) :
    refreshProfileMatrixView L (refreshProfileMatrixView L (refreshProfileMatrixView L snapshot)) =
      refreshProfileMatrixView L (refreshProfileMatrixView L snapshot) := by
  refine refreshProfileMatrixView_idem (uniqueIds_refreshed hids) (fun derived hderived hmem => ?_) ?_
  · rw [(view_refreshed hids).2] at hderived
    exact hfresh derived hderived ((retain_refreshed_ids L snapshot).mem_iff.1 hmem)
  · rw [congrArg (·.evidence) (refreshProfileMatrixView_eq L snapshot)]
    exact sortByKey_sorted evidenceKey _

end Again

/-! ### Copies in another order -/

section Copies

variable (F : FloatText)

theorem ownedBy_eq_of_identity {a b : EvidenceRecord} (h : ownedIdentity F a = ownedIdentity F b)
    (diagnosticId : String) (ordinal : Nat) :
    ownedBy diagnosticId ordinal a = ownedBy diagnosticId ordinal b := by
  have hvalue := text_injective F h
  obtain ⟨_, _, _, akind, aextractor, aversion, apath, aline, acolumn, aend, alast, adetail,
    aproperties⟩ := a
  obtain ⟨_, _, _, bkind, bextractor, bversion, bpath, bline, bcolumn, bend, blast, bdetail,
    bproperties⟩ := b
  simp only [Value.object.injEq, List.cons.injEq, Prod.mk.injEq, true_and, and_true,
    Value.string.injEq, Value.number.injEq, Number.int.injEq, Int.natCast_inj] at hvalue
  obtain ⟨hkind, hextractor, hversion, hpath, hline, hcolumn, hend, hlast, hdetail, hproperties⟩ :=
    hvalue
  have hdetails : adetail = bdetail := by
    cases adetail <;> cases bdetail <;> simp_all
  have hproper : aproperties = bproperties := by
    cases aproperties
    cases bproperties
    simp_all
  subst hkind hextractor hversion hpath hline hcolumn hend hlast hdetails hproper
  rfl

/-- Evidence without the ordinal that a diagnostic has given to it. -/
def unnumbered (evidence : EvidenceRecord) : EvidenceRecord :=
  if evidence.ownerType = "diagnostic" then { evidence with ordinal := 0 } else evidence

theorem unnumbered_ownedBy (diagnosticId : String) (ordinal : Nat) (item : EvidenceRecord) :
    unnumbered (ownedBy diagnosticId ordinal item) = ownedBy diagnosticId 0 item :=
  if_pos rfl

theorem mem_unnumbered_ownedFrom {diagnosticId : String} {seen : List (List Char)}
    {items : List EvidenceRecord} {copy : EvidenceRecord} :
    copy ∈ (ownedFrom F diagnosticId seen items).map unnumbered ↔
      ∃ item ∈ items, ownedIdentity F item ∉ seen ∧ copy = ownedBy diagnosticId 0 item := by
  induction items generalizing seen with
  | nil => simp [ownedFrom]
  | cons item items ih =>
    rw [ownedFrom]
    split_ifs with hseen
    · rw [ih, List.exists_mem_cons_iff]
      exact ⟨.inr, fun h => h.resolve_left fun h => h.1 hseen⟩
    · rw [List.map_cons, List.mem_cons, unnumbered_ownedBy, ih, List.exists_mem_cons_iff]
      constructor
      · rintro (rfl | ⟨other, hother, hnew, rfl⟩)
        · exact .inl ⟨hseen, rfl⟩
        · exact .inr ⟨other, hother, fun h => hnew (List.mem_cons_of_mem _ h), rfl⟩
      · rintro (⟨-, rfl⟩ | ⟨other, hother, hnew, rfl⟩)
        · exact .inl rfl
        -- of items with one identity the first is copied, and their copies are equal
        · by_cases hsame : ownedIdentity F other = ownedIdentity F item
          · exact .inl (ownedBy_eq_of_identity F hsame diagnosticId 0)
          · exact .inr ⟨other, hother, fun h => (List.mem_cons.1 h).elim hsame hnew, rfl⟩

theorem nodup_unnumbered_ownedFrom (diagnosticId : String) (seen : List (List Char))
    (items : List EvidenceRecord) :
    ((ownedFrom F diagnosticId seen items).map unnumbered).Nodup := by
  induction items generalizing seen with
  | nil => exact List.nodup_nil
  | cons item items ih =>
    rw [ownedFrom]
    split_ifs with hseen
    · exact ih seen
    · rw [List.map_cons, List.nodup_cons, mem_unnumbered_ownedFrom, unnumbered_ownedBy]
      refine ⟨?_, ih _⟩
      rintro ⟨other, -, hnew, heq⟩
      have hsame := congrArg (ownedIdentity F) heq
      rw [ownedIdentity_ownedBy, ownedIdentity_ownedBy] at hsame
      exact hnew (hsame ▸ List.mem_cons_self)

/-- **Evidence in another order leads to the same copies, but for their ordinals.** -/
theorem copies_perm {evidence evidence' : List EvidenceRecord} (h : evidence.Perm evidence')
    (derived : Derived) :
    ((derived.copies F evidence).map unnumbered).Perm
      ((derived.copies F evidence').map unnumbered) := by
  refine (List.perm_ext_iff_of_nodup (nodup_unnumbered_ownedFrom F _ _ _)
    (nodup_unnumbered_ownedFrom F _ _ _)).2 fun copy => ?_
  rw [mem_unnumbered_ownedFrom, mem_unnumbered_ownedFrom]
  simp only [(h.filter derived.owns).mem_iff]

end Copies

/-! ### Records in another order -/

variable {L}

/-- The ids of the records of a snapshot are unique; evidence is known by its owner and ordinal. -/
structure GraphSnapshot.UniqueIds (snapshot : GraphSnapshot) : Prop where
  profiles : (snapshot.profiles.map (·.id)).Nodup
  sites : (snapshot.sites.map (·.id)).Nodup
  edges : (snapshot.edges.map (·.id)).Nodup
  evidence : (snapshot.evidence.map evidenceKey).Nodup

/-- The same records, in another order. -/
structure GraphSnapshot.Reordered (snapshot other : GraphSnapshot) : Prop where
  profiles : snapshot.profiles.Perm other.profiles
  sites : snapshot.sites.Perm other.sites
  edges : snapshot.edges.Perm other.edges
  evidence : snapshot.evidence.Perm other.evidence
  diagnostics : snapshot.diagnostics = other.diagnostics

/-- Sites of one correlation have the parts in common from which its id is made. -/
def GraphSnapshot.CollisionFree (L : Libraries) (snapshot : GraphSnapshot) : Prop :=
  ∀ a ∈ snapshot.sites, ∀ b ∈ snapshot.sites,
    ((snapshot.matrixSource true).correlationOf L a).isSome →
      (snapshot.matrixSource true).correlationOf L a = (snapshot.matrixSource true).correlationOf L b →
        (snapshot.matrixSource true).parts L a = (snapshot.matrixSource true).parts L b

/-- The first profiles of every effective input have one language. -/
def GraphSnapshot.SameLanguages (L : Libraries) (snapshot other : GraphSnapshot) : Prop :=
  (snapshot.matrixSource true).SameLanguages L (other.matrixSource true)

theorem GraphSnapshot.UniqueIds.retain {snapshot : GraphSnapshot} (h : snapshot.UniqueIds) :
    (snapshot.retain.matrixSource true).UniqueIds :=
  ⟨h.profiles, h.sites, h.edges,
    h.evidence.sublist ((List.filter_sublist.trans List.filter_sublist).map evidenceKey)⟩

theorem GraphSnapshot.Reordered.retain {snapshot other : GraphSnapshot}
    (h : snapshot.Reordered other) :
    snapshot.retain.diagnostics = other.retain.diagnostics ∧
      snapshot.retain.evidence.Perm other.retain.evidence := by
  unfold GraphSnapshot.retain
  dsimp only
  rw [h.diagnostics]
  exact ⟨rfl, h.evidence.filter _⟩

/-- What is found in another order, as far as it is the same for all that could be found. -/
theorem find?_bind_perm {α β : Type} {l l' : List α} (h : l.Perm l') {p : α → Bool}
    {f : α → Option β} (hf : ∀ a ∈ l, ∀ b ∈ l, p a = true → p b = true → f a = f b) :
    (l.find? p).bind f = (l'.find? p).bind f := by
  cases ha : l.find? p with
  | none =>
    have hnone : l'.find? p = none :=
      List.find?_eq_none.2 fun b hb => List.find?_eq_none.1 ha b (h.mem_iff.2 hb)
    rw [hnone]
  | some a =>
    have hpa := List.find?_some ha
    have hmem := List.mem_of_find?_eq_some ha
    cases hb : l'.find? p with
    | none => exact absurd hpa (List.find?_eq_none.1 hb a (h.mem_iff.1 hmem))
    | some b =>
      exact hf a hmem b (h.mem_iff.2 (List.mem_of_find?_eq_some hb)) hpa (List.find?_some hb)

theorem sameParts_of_collisionFree {snapshot other : GraphSnapshot} (h : snapshot.Reordered other)
    (hids : snapshot.UniqueIds) (hfree : snapshot.CollisionFree L) :
    (snapshot.retain.matrixSource true).SameParts L (other.retain.matrixSource true) := by
  have hreordered : (snapshot.retain.matrixSource true).Reordered (other.retain.matrixSource true) :=
    ⟨h.profiles, h.sites, h.edges, h.retain.2.filter _⟩
  have hparts : (other.retain.matrixSource true).parts L =
      (snapshot.retain.matrixSource true).parts L := by
    funext site
    unfold MatrixSource.parts
    rw [MatrixSource.effective_congr hreordered hids.retain]
  intro key
  rw [← MatrixSource.correlationOf_congr hreordered hids.retain, hparts]
  refine find?_bind_perm h.sites fun a ha b hb hfirst hfound => ?_
  refine hfree a ha b hb ?_ ((of_decide_eq_true hfirst).trans (of_decide_eq_true hfound).symm)
  exact Option.isSome_iff_exists.2 ⟨key, of_decide_eq_true hfirst⟩

/-- **Records in another order lead to the same view**, but for the languages of its entries. -/
theorem refreshProfileMatrixView_reordered {snapshot other : GraphSnapshot}
    (h : snapshot.Reordered other) (hids : snapshot.UniqueIds) (hfree : snapshot.CollisionFree L) :
    (refreshProfileMatrixView L other).profileMatrix.withoutLanguages =
        (refreshProfileMatrixView L snapshot).profileMatrix.withoutLanguages ∧
      (snapshot.SameLanguages L other → (refreshProfileMatrixView L other).profileMatrix =
        (refreshProfileMatrixView L snapshot).profileMatrix) ∧
      (refreshProfileMatrixView L other).diagnostics =
        (refreshProfileMatrixView L snapshot).diagnostics ∧
      ((refreshProfileMatrixView L other).evidence.map unnumbered).Perm
        ((refreshProfileMatrixView L snapshot).evidence.map unnumbered) ∧
      (other.evidence = snapshot.evidence →
        (refreshProfileMatrixView L other).evidence =
          (refreshProfileMatrixView L snapshot).evidence) := by
  have hreordered : (snapshot.retain.matrixSource true).Reordered (other.retain.matrixSource true) :=
    ⟨h.profiles, h.sites, h.edges, h.retain.2.filter _⟩
  have hparts := sameParts_of_collisionFree h hids hfree
  have hderived := hreordered.derived_eq hids.retain hparts
  rw [refreshProfileMatrixView_eq, refreshProfileMatrixView_eq]
  dsimp only
  refine ⟨(hreordered.view_eq hids.retain hparts).symm, fun hlanguages =>
    (hreordered.view_eq_of_languages hids.retain hparts hlanguages).symm, ?_, ?_, fun hevidence => ?_⟩
  · rw [GraphSnapshot.refreshedDiagnostics, ← h.retain.1, ← hderived,
      ← GraphSnapshot.refreshedDiagnostics]
  · refine ((sortByKey_perm _ _).map _).trans (.trans ?_ ((sortByKey_perm _ _).map _).symm)
    unfold GraphSnapshot.refreshedEvidence
    rw [List.map_append, List.map_append, ← hderived, List.map_flatMap, List.map_flatMap]
    refine (h.retain.2.symm.map _).append (List.Perm.flatMap_left _ fun derived _ => ?_)
    exact copies_perm L.floatText h.retain.2.symm derived
  · have hretained : other.retain.evidence = snapshot.retain.evidence := by
      unfold GraphSnapshot.retain
      dsimp only
      rw [h.diagnostics, hevidence]
    unfold GraphSnapshot.refreshedEvidence
    rw [hretained, hderived]

/-! ### Without observed sites -/

theorem kind_of_evidenceKindPhase {kind : String} {phase : Phase}
    (h : evidenceKindPhase kind = phase) (hphase : phase = .build ∨ phase = .runtime) :
    ["build", "runtime"].contains kind = true := by
  unfold evidenceKindPhase canonicalPhase at h
  split_ifs at h with hsemantic hbuild hruntime
  · subst h
    rcases hphase with h | h <;> cases h
  · subst hbuild
    decide
  · subst hruntime
    decide
  · subst h
    rcases hphase with h | h <;> cases h

theorem mem_of_earlier {evidence : List EvidenceRecord} {start : Option EvidenceRecord}
    {found : EvidenceRecord} (h : evidence.foldl earlier start = some found) :
    found ∈ evidence ∨ start = some found := by
  induction evidence generalizing start with
  | nil => exact .inr h
  | cons item evidence ih =>
    rcases ih h with hmem | hstart
    · exact .inl (List.mem_cons_of_mem item hmem)
    · unfold earlier at hstart
      split_ifs at hstart with hless
      · cases hstart
        exact .inl List.mem_cons_self
      · exact .inr hstart

/-- A site in an observed phase has been seen. -/
theorem hasObserved_of_sitePhase {m : MatrixSource} {site : SiteRecord}
    (h : m.sitePhase site = .build ∨ m.sitePhase site = .runtime) :
    (m.evidence.any fun evidence =>
      evidence.ownerType = "site" && ["build", "runtime"].contains evidence.kind) = true := by
  unfold MatrixSource.sitePhase at h
  cases hfound : (m.evidence.filter (ofSite site.id)).foldl earlier none with
  | none =>
    rw [hfound] at h
    rcases h with h | h <;> cases h
  | some found =>
    rw [hfound] at h
    have hmem := (mem_of_earlier hfound).resolve_right (by simp)
    obtain ⟨hevidence, hsite⟩ := List.mem_filter.1 hmem
    refine List.any_eq_true.2 ⟨found, hevidence, Bool.and_eq_true_iff.2 ⟨?_, ?_⟩⟩
    · exact decide_eq_true (owner_of_ofSite hsite).1
    · exact kind_of_evidenceKindPhase rfl h

/-- A conflict is between a prediction and an observation. -/
theorem exists_of_status_conflict {builder : CorrelationBuilder} {conditions : ByPhase Value}
    (h : (builder.status conditions).1 = "conflict") :
    ∃ phase, (phase = .build ∨ phase = .runtime) ∧ (builder.targets phase).isSome = true := by
  cases hobserved : builder.observedPhases with
  | nil =>
    unfold CorrelationBuilder.status at h
    rw [hobserved] at h
    have hstatus : "unobserved" = "conflict" := by
      cases hpredicted : builder.predictedPhase with
      | none => rwa [hpredicted] at h
      | some predicted => rwa [hpredicted] at h
    exact absurd hstatus (by decide)
  | cons phase phases =>
    have hmem : phase ∈ builder.observedPhases := hobserved ▸ List.mem_cons_self
    obtain ⟨hphase, htargets⟩ := List.mem_filter.1 hmem
    exact ⟨phase, by simpa using hphase, htargets⟩

/-- Without observed sites no correlation is in conflict. -/
theorem no_conflict {m : MatrixSource}
    (h : (m.evidence.any fun evidence =>
      evidence.ownerType = "site" && ["build", "runtime"].contains evidence.kind) = false) :
    (m.correlations L).filter (fun correlation => correlation.status = "conflict") = [] := by
  refine List.filter_eq_nil_iff.2 fun correlation hmem hconflict => ?_
  obtain ⟨key, -, hkey⟩ := List.mem_filterMap.1 ((mem_sortByKey _).1 hmem)
  obtain ⟨first, -, rfl⟩ := Option.map_eq_some_iff.1 hkey
  -- a conflict has a site in an observed phase, and evidence has put the site there
  obtain ⟨phase, hphase, htargets⟩ := exists_of_status_conflict (of_decide_eq_true hconflict)
  obtain ⟨targets, htargets⟩ := Option.isSome_iff_exists.1 htargets
  obtain ⟨sites, hsites, -⟩ := Option.map_eq_some_iff.1 htargets
  obtain ⟨hlist, hne⟩ := OrderedMap.inhabitedList_eq_some.1 hsites
  obtain ⟨site, hsite⟩ := List.exists_mem_of_ne_nil _ hne
  have hof := (of_decide_eq_true (List.mem_filter.1 hsite).2).2
  have hobserved := hasObserved_of_sitePhase
    (show m.sitePhase site = .build ∨ m.sitePhase site = .runtime by rwa [hof])
  rw [h] at hobserved
  cases hobserved

/-- An entry without what sites and edges add to it. -/
def bare (entry : ProfileMatrixEntryRecord) : ProfileMatrixEntryRecord where
  id := entry.id
  effectiveInputId := entry.effectiveInputId
  language := ""
  profileIds := []
  parentProfileIds := []
  phases := []
  conditionUnion := .null
  phaseCoverage := fun _ => none
  selectionReasons := []
  axisConflicts := entry.axisConflicts

theorem id_bare (entry : ProfileMatrixEntryRecord) : (bare entry).id = entry.id :=
  rfl

theorem entryDerived_bare (entry : ProfileMatrixEntryRecord) :
    entryDerived (bare entry) = entryDerived entry :=
  rfl

/-- The profiles alone lead to the bare entries. -/
theorem bare_entries_congr {m n : MatrixSource} (h : m.profiles = n.profiles) :
    (m.entries L).map bare = (n.entries L).map bare := by
  have heffective : m.effective L = n.effective L := MatrixSource.effective_of_profiles h
  have hentry : bare ∘ m.entry L = bare ∘ n.entry L := by
    funext input
    unfold bare MatrixSource.entry MatrixSource.profilesOf
    dsimp only [Function.comp]
    rw [heffective, h]
  unfold MatrixSource.entries MatrixSource.effectiveInputs
  rw [map_sortByKey bare id_bare, map_sortByKey bare id_bare, List.map_map, List.map_map, hentry,
    heffective, h]

/-- **Without observed sites the profiles alone lead to all diagnostics of the view.** -/
theorem derived_of_unobserved {snapshot : GraphSnapshot} (h : hasObservedSites snapshot = false)
    (includeGraph : Bool) : snapshot.derived L includeGraph = snapshot.derived L true := by
  have hunobserved : ∀ graph : Bool,
      ((snapshot.retain.matrixSource graph).evidence.any fun evidence =>
        evidence.ownerType = "site" && ["build", "runtime"].contains evidence.kind) = false := by
    intro graph
    refine List.any_eq_false.2 fun evidence hmem => List.any_eq_false.1 h evidence ?_
    unfold GraphSnapshot.matrixSource at hmem
    cases graph with
    | true => exact List.mem_of_mem_filter hmem
    | false => cases hmem
  have hentries : ∀ graph : Bool, (snapshot.view L graph).entries.flatMap entryDerived =
      (((snapshot.retain.matrixSource graph).entries L).map bare).flatMap entryDerived := by
    intro graph
    rw [List.flatMap_map]
    exact List.flatMap_congr fun entry _ => (entryDerived_bare entry).symm
  unfold GraphSnapshot.derived derivedOf
  have hbare := bare_entries_congr (L := L) (m := snapshot.retain.matrixSource includeGraph)
    (n := snapshot.retain.matrixSource true) rfl
  rw [hentries, hentries, hbare]
  congr 2
  exact (no_conflict (hunobserved includeGraph)).trans (no_conflict (hunobserved true)).symm

/-- **The pass for the identity leaves what the full pass leaves**, but for the view. -/
theorem refreshProfileMatrixForIdentity_exact {snapshot : GraphSnapshot}
    (h : hasObservedSites snapshot = false) :
    (refreshProfileMatrixForIdentity L snapshot).diagnostics =
        (refreshProfileMatrix L false snapshot).diagnostics ∧
      (refreshProfileMatrixForIdentity L snapshot).evidence =
        (refreshProfileMatrix L false snapshot).evidence := by
  have hderived := derived_of_unobserved (L := L) h false
  unfold GraphSnapshot.derived GraphSnapshot.view at hderived
  unfold refreshProfileMatrixForIdentity refreshProfileMatrix refreshProfileMatrixInner
  dsimp only
  rw [h, appendMatrixDiagnostics_eq, appendMatrixDiagnostics_eq, hderived]
  exact ⟨rfl, rfl⟩

/-! ### The refresh as a whole -/

/-- What refreshing the view keeps. -/
structure GraphSnapshot.Stable (L : Libraries) (snapshot : GraphSnapshot) : Prop where
  /-- A second refresh leaves the view and its diagnostics alone. -/
  again : (refreshProfileMatrixView L (refreshProfileMatrixView L snapshot)).profileMatrix =
        (refreshProfileMatrixView L snapshot).profileMatrix ∧
      (refreshProfileMatrixView L (refreshProfileMatrixView L snapshot)).diagnostics =
        (refreshProfileMatrixView L snapshot).diagnostics
  /-- It changes nothing when the evidence stands in order. -/
  idem : snapshot.Fresh L → (snapshot.evidence.Pairwise fun a b => evidenceKey a ≤ evidenceKey b) →
    refreshProfileMatrixView L (refreshProfileMatrixView L snapshot) =
      refreshProfileMatrixView L snapshot
  /-- A third refresh changes nothing. -/
  third : snapshot.Fresh L →
    refreshProfileMatrixView L (refreshProfileMatrixView L (refreshProfileMatrixView L snapshot)) =
      refreshProfileMatrixView L (refreshProfileMatrixView L snapshot)
  /-- Records in another order lead to the same diagnostics, to the same view but for the languages of
  its entries, and to copies that differ in their ordinals at most. -/
  reordered : snapshot.CollisionFree L → ∀ other, snapshot.Reordered other →
    (refreshProfileMatrixView L other).profileMatrix.withoutLanguages =
        (refreshProfileMatrixView L snapshot).profileMatrix.withoutLanguages ∧
      (snapshot.SameLanguages L other → (refreshProfileMatrixView L other).profileMatrix =
        (refreshProfileMatrixView L snapshot).profileMatrix) ∧
      (refreshProfileMatrixView L other).diagnostics =
        (refreshProfileMatrixView L snapshot).diagnostics ∧
      ((refreshProfileMatrixView L other).evidence.map unnumbered).Perm
        ((refreshProfileMatrixView L snapshot).evidence.map unnumbered) ∧
      (other.evidence = snapshot.evidence →
        (refreshProfileMatrixView L other).evidence =
          (refreshProfileMatrixView L snapshot).evidence)
  /-- Without observed sites the pass for the identity leaves what the full pass leaves. -/
  identity : hasObservedSites snapshot = false →
    (refreshProfileMatrixForIdentity L snapshot).diagnostics =
        (refreshProfileMatrix L false snapshot).diagnostics ∧
      (refreshProfileMatrixForIdentity L snapshot).evidence =
        (refreshProfileMatrix L false snapshot).evidence

/-- **Refreshing the view is stable.** -/
theorem refreshProfileMatrixView_stable {snapshot : GraphSnapshot} (hids : snapshot.UniqueIds) :
    snapshot.Stable L where
  again := refreshProfileMatrixView_again hids.retain
  idem := refreshProfileMatrixView_idem hids.retain
  third := refreshProfileMatrixView_third hids.retain
  reordered hfree _ h := refreshProfileMatrixView_reordered h hids hfree
  identity h := refreshProfileMatrixForIdentity_exact h

/-! ### Where the order matters

A profile of another language than its declared parent, and an edge with two pieces of evidence of a
build of that profile. -/

namespace MatrixSample

def inputDigest : Digest :=
  ⟨[137, 213, 242, 213, 6, 171, 48, 213, 38, 95, 34, 106, 111, 79, 156, 17, 252, 84, 111, 33, 103, 72,
    20, 216, 146, 140, 70, 228, 223, 167, 141, 80], rfl⟩

def profileDigest : Digest :=
  ⟨[232, 240, 21, 28, 227, 89, 171, 158, 248, 190, 130, 23, 103, 211, 32, 51, 255, 12, 167, 13, 139,
    156, 77, 9, 155, 177, 166, 43, 119, 70, 66, 109], rfl⟩

def conflictDigest : Digest :=
  ⟨[187, 204, 180, 205, 134, 17, 107, 34, 213, 59, 227, 239, 12, 252, 69, 63, 43, 173, 202, 235, 20,
    198, 138, 168, 191, 48, 86, 94, 70, 242, 16, 60], rfl⟩

/-- SHA-256 on the three texts that are hashed here, which differ in their lengths. The conditions are
true by their texts, so that none is decoded. -/
def libraries : Libraries where
  floatText := .plain
  sha256 bytes :=
    if bytes.length = 61 then inputDigest else if bytes.length = 149 then profileDigest else conflictDigest
  decodeCondition _ := none

def empty : Proper := ⟨.object [], rfl⟩

def parent : ProfileRecord := ⟨"p1", "rust", none, none, none, [], empty, none, empty, none⟩

def child : ProfileRecord :=
  ⟨"p2", "python", none, none, none, [], empty, none,
    ⟨.object [("parent_profile_id", .string "p1")], rfl⟩, none⟩

def edge : EdgeRecord :=
  ⟨"e1", none, "a", "b", "import", "build", "any", "p2", "resolved", "exact",
    ⟨.object [("op", .string "all"), ("conditions", .array [])], rfl⟩, false⟩

/-- Evidence of a build. -/
def evidence (ordinal : Int) (detail : String) : EvidenceRecord :=
  ⟨"edge", "e1", ordinal, "build", "worker", "1", "a.py", 1, 1, 1, 1, some detail,
    ⟨.object [("profile_id", .string "p2")], rfl⟩⟩

def snapshot : GraphSnapshot where
  profiles := [parent, child]
  nodes := []
  sites := []
  edges := [edge]
  evidence := [evidence 0 "first", evidence 1 "second"]
  coverage := ⟨2, 0, 0, 0, 0, 0, 0, 0, 0, 0, false, [], []⟩
  diagnostics := []
  profileMatrix := ⟨[], [], fun _ => none, []⟩

/-- The profiles in the other order. -/
def childFirst : GraphSnapshot := { snapshot with profiles := [child, parent] }

/-- The evidence in the other order. -/
def secondFirst : GraphSnapshot :=
  { snapshot with evidence := [evidence 1 "second", evidence 0 "first"] }

/-- A diagnostic of an adapter with the id of the conflict of the profiles. -/
def claimed : GraphSnapshot :=
  { snapshot with
    diagnostics := [⟨0, "diagnostic:sha256:" ++ conflictDigest.toHex, "warning", "CUSTOM", "", none, none,
      none, none, none, none, .null⟩] }

/-- What is compared of evidence. -/
def shown (snapshot : GraphSnapshot) : List (String × Int × Option String) :=
  snapshot.evidence.map fun evidence => (evidence.ownerId, evidence.ordinal, evidence.detail)

def languages (snapshot : GraphSnapshot) : List String :=
  snapshot.profileMatrix.entries.map (·.language)

theorem childFirst_languages : languages (refreshProfileMatrixView libraries childFirst) ≠
    languages (refreshProfileMatrixView libraries snapshot) := by
  decide +kernel

theorem secondFirst_shown : shown (refreshProfileMatrixView libraries secondFirst) ≠
    shown (refreshProfileMatrixView libraries snapshot) := by
  decide +kernel

theorem secondFirst_again :
    shown (refreshProfileMatrixView libraries (refreshProfileMatrixView libraries secondFirst)) ≠
      shown (refreshProfileMatrixView libraries secondFirst) := by
  decide +kernel

theorem claimed_again :
    shown (refreshProfileMatrixView libraries (refreshProfileMatrixView libraries claimed)) ≠
      shown (refreshProfileMatrixView libraries claimed) := by
  decide +kernel

theorem uniqueIds : snapshot.UniqueIds := ⟨by decide, by decide, by decide, by decide⟩

theorem childFirst_reordered : snapshot.Reordered childFirst :=
  ⟨.swap child parent [], .refl _, .refl _, .refl _, rfl⟩

theorem secondFirst_reordered : snapshot.Reordered secondFirst :=
  ⟨.refl _, .refl _, .refl _, .swap (evidence 1 "second") (evidence 0 "first") [], rfl⟩

theorem secondFirst_uniqueIds : secondFirst.UniqueIds := ⟨by decide, by decide, by decide, by decide⟩

/-- **The order of profiles decides languages, the order of evidence decides ordinals, and a second
refresh numbers copies again**; it copies again what a diagnostic with the id of a conflict keeps. -/
theorem order_matters :
    ¬ (∀ s t : GraphSnapshot, s.UniqueIds → s.Reordered t →
      (refreshProfileMatrixView libraries t).profileMatrix =
        (refreshProfileMatrixView libraries s).profileMatrix) ∧
    ¬ (∀ s t : GraphSnapshot, s.UniqueIds → s.Reordered t →
      (refreshProfileMatrixView libraries t).evidence =
        (refreshProfileMatrixView libraries s).evidence) ∧
    ¬ (∀ s : GraphSnapshot, s.UniqueIds →
      refreshProfileMatrixView libraries (refreshProfileMatrixView libraries s) =
        refreshProfileMatrixView libraries s) ∧
    ¬ (∀ s : GraphSnapshot, s.UniqueIds →
      (s.evidence.Pairwise fun a b => evidenceKey a ≤ evidenceKey b) →
        refreshProfileMatrixView libraries (refreshProfileMatrixView libraries s) =
          refreshProfileMatrixView libraries s) := by
  refine ⟨fun h => childFirst_languages ?_, fun h => secondFirst_shown ?_,
    fun h => secondFirst_again ?_, fun h => claimed_again ?_⟩
  · unfold languages
    rw [h snapshot childFirst uniqueIds childFirst_reordered]
  · unfold shown
    rw [h snapshot secondFirst uniqueIds secondFirst_reordered]
  · rw [h secondFirst secondFirst_uniqueIds]
  · have hids : claimed.UniqueIds :=
      ⟨uniqueIds.profiles, uniqueIds.sites, uniqueIds.edges, uniqueIds.evidence⟩
    have hsorted : claimed.evidence.Pairwise fun a b => evidenceKey a ≤ evidenceKey b := by decide
    rw [h claimed hids hsorted]

theorem collisionFree : snapshot.CollisionFree libraries := fun _ ha => absurd ha List.not_mem_nil

/-- The snapshot with its evidence in order is refreshed once and for all. The order of its profiles
decides nothing but languages. -/
theorem refreshProfileMatrixView_stable_snapshot :
    refreshProfileMatrixView libraries (refreshProfileMatrixView libraries snapshot) =
        refreshProfileMatrixView libraries snapshot ∧
      (refreshProfileMatrixView libraries secondFirst).profileMatrix =
        (refreshProfileMatrixView libraries snapshot).profileMatrix ∧
      (refreshProfileMatrixView libraries childFirst).profileMatrix.withoutLanguages =
        (refreshProfileMatrixView libraries snapshot).profileMatrix.withoutLanguages ∧
      (refreshProfileMatrixView libraries childFirst).evidence =
        (refreshProfileMatrixView libraries snapshot).evidence ∧
      (refreshProfileMatrixForIdentity libraries snapshot).evidence =
        (refreshProfileMatrix libraries false snapshot).evidence := by
  have hstable : snapshot.Stable libraries := refreshProfileMatrixView_stable uniqueIds
  have hsorted : snapshot.evidence.Pairwise fun a b => evidenceKey a ≤ evidenceKey b := by decide
  obtain ⟨-, hsecond, -⟩ := hstable.reordered collisionFree secondFirst secondFirst_reordered
  obtain ⟨hfirst, -, -, -, hevidence⟩ :=
    hstable.reordered collisionFree childFirst childFirst_reordered
  exact ⟨hstable.idem (fun _ _ => List.not_mem_nil) hsorted, hsecond fun _ => rfl, hfirst,
    hevidence rfl, (hstable.identity (by decide)).2⟩

end MatrixSample

end ProfileMatrix
