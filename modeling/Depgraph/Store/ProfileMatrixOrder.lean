import Depgraph.Library.Blocks
import Depgraph.Library.StableSort
import Depgraph.Store.ProfileMatrix

/-!
# The view does not depend on the order of records

What the view keeps of many records is a set, a number, the least of them or a union of conditions. So
records in another order lead to the same view (`matrix_congr`), but for what it takes from the first
record of a group: the language of an entry, and the parts from which the id of a correlation has been
made. That those parts are the same is a hypothesis; with the same languages the views are equal
(`matrix_congr_of_languages`). Of the evidence only that of sites and edges is read.
-/

namespace ProfileMatrix

open Json Protocol Store SortDedup OrderedMap Blocks

open Health (declaredParentProfileId effectiveInputId effectiveProfileId canonicalLanguage profileById)

variable (L : Libraries)

/-- Sets of the same elements. -/
theorem exact_id_congr {l l' : List String} (h : ∀ a, a ∈ l ↔ a ∈ l') : exact id l = exact id l' :=
  exact_congr Function.injective_id h

theorem exact_id_perm {l l' : List String} (h : l.Perm l') : exact id l = exact id l' :=
  exact_id_congr fun _ => h.mem_iff

/-! ### Unions -/

/-- The operand decides the union. -/
def decides (value : Value) : Bool :=
  isTrueExpression value || ((canonicalOperand L value).any fun condition =>
    match condition with
    | .all [] => true
    | _ => false)

theorem operands_eq (values : List Value) :
    operands L values =
      if values.any (decides L) then none else some (values.filterMap (canonicalOperand L)) := by
  induction values with
  | nil => rfl
  | cons value values ih =>
    rw [operands, List.any_cons, List.filterMap_cons, decides]
    cases htrue : isTrueExpression value with
    | true => rfl
    | false =>
      rw [Bool.false_or, if_neg Bool.false_ne_true, ih]
      cases hoperand : canonicalOperand L value with
      | none => rfl
      | some condition =>
        rw [Option.any_some]
        cases values.any (decides L) <;> cases condition with
        | all conditions => cases conditions <;> rfl
        | _ => rfl

/-- **A union does not depend on the order of its operands.** -/
theorem union_perm {values values' : List Value} (h : values.Perm values') :
    union L values = union L values' := by
  have hany : values.any (decides L) = values'.any (decides L) := h.any_eq
  have hexact : exact (Condition.sortKey L.floatText) (values.filterMap (canonicalOperand L)) =
      exact (Condition.sortKey L.floatText) (values'.filterMap (canonicalOperand L)) :=
    exact_congr (Condition.sortKey_injective L.floatText) fun _ => (h.filterMap _).mem_iff
  unfold union
  rw [operands_eq, operands_eq, hany]
  cases values'.any (decides L) with
  | true => rfl
  | false =>
    rw [if_neg Bool.false_ne_true, if_neg Bool.false_ne_true]
    dsimp only
    rw [hexact]

/-! ### Coverage -/

theorem phaseCoverageOf_perm {profiles profiles' : List ProfileRecord} {sites sites' : List SiteRecord}
    {edges edges' : List EdgeRecord} {evidence evidence' : List (String × EvidenceRecord)}
    {levels levels' : List String} (hprofiles : profiles.Perm profiles') (hsites : sites.Perm sites')
    (hedges : edges.Perm edges') (hevidence : evidence.Perm evidence') (hlevels : levels.Perm levels') :
    phaseCoverageOf profiles sites edges evidence levels =
      phaseCoverageOf profiles' sites' edges' evidence' levels' := by
  have hids := ((((hprofiles.map (·.id)).append (hsites.map (·.profileId))).append
    (hedges.map (·.profileId))).append (hevidence.map Prod.fst))
  have hempty : (profiles = [] ∧ sites = [] ∧ edges = [] ∧ evidence = []) ↔
      (profiles' = [] ∧ sites' = [] ∧ edges' = [] ∧ evidence' = []) := by
    rw [← List.length_eq_zero_iff, hprofiles.length_eq, List.length_eq_zero_iff,
      ← List.length_eq_zero_iff (l := sites), hsites.length_eq, List.length_eq_zero_iff,
      ← List.length_eq_zero_iff (l := edges), hedges.length_eq, List.length_eq_zero_iff,
      ← List.length_eq_zero_iff (l := evidence), hevidence.length_eq, List.length_eq_zero_iff]
  unfold phaseCoverageOf
  simp only [hempty, exact_id_perm hids, exact_id_perm hlevels, hsites.length_eq, hedges.length_eq,
    hevidence.length_eq, hsites.countP_eq]

/-! ### Records in another order -/

/-- An entry without its language. -/
def ProfileMatrixEntryRecord.withoutLanguage (entry : ProfileMatrixEntryRecord) :
    ProfileMatrixEntryRecord := { entry with language := "" }

theorem ProfileMatrixEntryRecord.id_withoutLanguage (entry : ProfileMatrixEntryRecord) :
    entry.withoutLanguage.id = entry.id :=
  rfl

/-- A view without the languages of its entries. -/
def ProfileMatrixRecord.withoutLanguages (matrix : ProfileMatrixRecord) : ProfileMatrixRecord :=
  { matrix with entries := matrix.entries.map ProfileMatrixEntryRecord.withoutLanguage }

/-- Evidence of a site or an edge, and of whatever else is no diagnostic. -/
def ofGraph (evidence : EvidenceRecord) : Bool := evidence.ownerType ≠ "diagnostic"

/-- The same records, in another order. Evidence of diagnostics does not count. -/
structure MatrixSource.Reordered (m n : MatrixSource) : Prop where
  profiles : m.profiles.Perm n.profiles
  sites : m.sites.Perm n.sites
  edges : m.edges.Perm n.edges
  evidence : (m.evidence.filter ofGraph).Perm (n.evidence.filter ofGraph)

/-- The ids of the records are unique. -/
structure MatrixSource.UniqueIds (m : MatrixSource) : Prop where
  profiles : (m.profiles.map (·.id)).Nodup
  sites : (m.sites.map (·.id)).Nodup
  edges : (m.edges.map (·.id)).Nodup
  evidence : ((m.evidence.filter ofGraph).map evidenceKey).Nodup

/-- What chooses evidence of sites and edges chooses it among them. -/
theorem filter_ofGraph {p : EvidenceRecord → Bool} (hp : ∀ item, p item = true → ofGraph item = true)
    (evidence : List EvidenceRecord) : evidence.filter p = (evidence.filter ofGraph).filter p := by
  rw [List.filter_filter]
  refine List.filter_congr fun item _ => ?_
  cases hchosen : p item with
  | true => rw [hp item hchosen, Bool.and_true]
  | false => rfl

theorem owner_of_ofSite {siteId : String} {item : EvidenceRecord} (h : ofSite siteId item = true) :
    item.ownerType = "site" ∧ item.ownerId = siteId := by
  rwa [ofSite, Bool.and_eq_true, decide_eq_true_eq, decide_eq_true_eq] at h

theorem ofGraph_of_ofSite {siteId : String} {item : EvidenceRecord} (h : ofSite siteId item = true) :
    ofGraph item = true := by
  rw [ofGraph, (owner_of_ofSite h).1]
  decide

/-- The first of two pieces of evidence of one owner. -/
theorem earlier_comm {x y : EvidenceRecord} (h : x.ordinal = y.ordinal → x = y)
    (best : Option EvidenceRecord) : earlier (earlier best x) y = earlier (earlier best y) x := by
  by_cases heq : x.ordinal = y.ordinal
  · rw [h heq]
  · unfold earlier
    cases best with
    | none =>
      simp only [Option.all_none, if_true, Option.all_some, decide_eq_true_eq]
      split_ifs <;> first | rfl | omega
    | some best =>
      simp only [Option.all_some, decide_eq_true_eq]
      by_cases hx : x.ordinal < best.ordinal <;> by_cases hy : y.ordinal < best.ordinal <;>
        simp only [hx, hy, if_true, if_false, Option.all_some, decide_eq_true_eq]
      · split_ifs <;> first | rfl | omega
      · rw [if_neg (by omega)]
      · rw [if_neg (by omega)]

namespace MatrixSource

/-- The parts from which the id of the correlation of a site is made. -/
def parts (L : Libraries) (m : MatrixSource) (site : SiteRecord) :
    Option (String × String × String × String) :=
  (m.effective L site.profileId).map fun input =>
    (effectiveProfileId L.toStableIds input, site.source, site.kind, site.specifier.getD "")

variable {L} {m n : MatrixSource}

theorem effective_of_profiles (h : m.profiles = n.profiles) : m.effective L = n.effective L := by
  funext profileId
  unfold effective
  rw [h]

variable (h : m.Reordered n) (hids : m.UniqueIds)

include h hids

theorem sitePhase_congr : m.sitePhase = n.sitePhase := by
  funext site
  have hfactor := filter_ofGraph (p := ofSite site.id) fun _ => ofGraph_of_ofSite
  have hperm : (m.evidence.filter (ofSite site.id)).Perm (n.evidence.filter (ofSite site.id)) := by
    rw [hfactor, hfactor n.evidence]
    exact h.evidence.filter _
  unfold sitePhase
  rw [hperm.foldl_eq' fun x hx y hy best => ?_]
  -- evidence of one site with one ordinal is the same evidence
  refine earlier_comm (fun hordinal => ?_) best
  obtain ⟨hxmem, hxsite⟩ := List.mem_filter.1 hx
  obtain ⟨hymem, hysite⟩ := List.mem_filter.1 hy
  refine List.inj_on_of_nodup_map hids.evidence
    (List.mem_filter.2 ⟨hxmem, ofGraph_of_ofSite hxsite⟩)
    (List.mem_filter.2 ⟨hymem, ofGraph_of_ofSite hysite⟩) ?_
  rw [evidenceKey, evidenceKey, (owner_of_ofSite hxsite).1, (owner_of_ofSite hysite).1,
    (owner_of_ofSite hxsite).2, (owner_of_ofSite hysite).2, hordinal]

theorem profileById_congr : profileById m.profiles = profileById n.profiles := by
  funext profileId
  refine find?_reverse_perm hids.profiles h.profiles fun a b ha hb => ?_
  rw [of_decide_eq_true ha, of_decide_eq_true hb]

theorem effectiveInputId_congr :
    effectiveInputId L.toStableIds m.profiles = effectiveInputId L.toStableIds n.profiles := by
  funext profile
  unfold effectiveInputId
  rw [profileById_congr h hids]

theorem effective_congr : m.effective L = n.effective L := by
  funext profileId
  unfold effective
  rw [profileById_congr h hids, effectiveInputId_congr h hids]

theorem correlationOf_congr : m.correlationOf L = n.correlationOf L := by
  funext site
  unfold correlationOf
  rw [effective_congr h hids]

theorem edgeCorrelation_congr : m.edgeCorrelation L = n.edgeCorrelation L := by
  funext edge
  unfold edgeCorrelation
  rw [correlationOf_congr h hids]
  congr 1
  funext siteId
  have hnodup := hids.sites.sublist
    ((List.filter_sublist (p := fun site => (n.correlationOf L site).isSome)).map fun site => site.id)
  rw [find?_reverse_perm hnodup (h.sites.filter _) fun a b ha hb =>
    (of_decide_eq_true ha).trans (of_decide_eq_true hb).symm]

theorem ownerProfile_congr : m.ownerProfile = n.ownerProfile := by
  funext item
  unfold ownerProfile
  rw [find?_reverse_perm hids.sites h.sites fun a b ha hb =>
      (of_decide_eq_true ha).trans (of_decide_eq_true hb).symm,
    find?_reverse_perm hids.edges h.edges fun a b ha hb =>
      (of_decide_eq_true ha).trans (of_decide_eq_true hb).symm]

omit h hids in
/-- Diagnostics have no profile. -/
theorem ownerProfile_of_diagnostic {item : EvidenceRecord} (hitem : ofGraph item = false) :
    m.ownerProfile item = none := by
  rw [ofGraph, decide_eq_false_iff_not, not_not] at hitem
  unfold ownerProfile
  rw [hitem, if_neg (by decide), if_neg (by decide)]

theorem ownedEvidence_perm : m.ownedEvidence.Perm n.ownedEvidence := by
  unfold ownedEvidence
  rw [← filterMap_filter_of_none (p := ofGraph) fun item _ hitem => by
      rw [ownerProfile_of_diagnostic hitem, Option.map_none],
    ← filterMap_filter_of_none (l := n.evidence) (p := ofGraph) fun item _ hitem => by
      rw [ownerProfile_of_diagnostic hitem, Option.map_none], ownerProfile_congr h hids]
  exact h.evidence.filterMap _

/-- The coverage of a phase by the same records. -/
theorem coverage_congr {profiles profiles' : List ProfileRecord} {sites sites' : List SiteRecord}
    {edges edges' : List EdgeRecord} {evidence evidence' : List (String × EvidenceRecord)}
    (hprofiles : profiles.Perm profiles') (hsites : sites.Perm sites') (hedges : edges.Perm edges')
    (hevidence : evidence.Perm evidence') :
    m.coverage profiles sites edges evidence = n.coverage profiles' sites' edges' evidence' := by
  funext phase
  unfold coverage
  rw [sitePhase_congr h hids]
  exact phaseCoverageOf_perm (hprofiles.filter _) (hsites.filter _) (hedges.filter _)
    (hevidence.filter _) ((hprofiles.flatMap_right _).filter _)

theorem effectiveInputs_congr : m.effectiveInputs L = n.effectiveInputs L := by
  unfold effectiveInputs
  rw [effective_congr h hids]
  exact exact_id_perm (h.profiles.filterMap _)

/-! ### Correlations in another order -/

omit h hids in
theorem map_inhabitedList_perm {α β : Type} {f : List α → β} {l l' : List α} (hperm : l.Perm l')
    (hf : f l = f l') : (inhabitedList l).map f = (inhabitedList l').map f := by
  unfold inhabitedList
  by_cases hl : l = []
  · rw [if_pos hl, if_pos (hl ▸ hperm).symm.eq_nil]
  · rw [if_neg hl, if_neg fun hl' => hl (hl' ▸ hperm).eq_nil, Option.map_some, Option.map_some, hf]

omit h hids in
/-- Of the conditions of a phase, their union is read. -/
theorem finishCorrelation_congr {b c : CorrelationBuilder}
    (hconditions : ∀ phase, (b.conditions phase).map (union L) = (c.conditions phase).map (union L))
    (hrest : { b with conditions := c.conditions } = c) :
    finishCorrelation L b = finishCorrelation L c := by
  rw [← hrest]
  unfold finishCorrelation
  rw [funext hconditions]
  rfl

/-- The builders of a correlation of which the first sites have the same parts. -/
theorem finishCorrelation_builder_congr (key : String) {a b : SiteRecord}
    (hparts : m.parts L a = n.parts L b) (ha : (m.parts L a).isSome = true) :
    finishCorrelation L (m.correlationBuilder L key a) =
      finishCorrelation L (n.correlationBuilder L key b) := by
  have hsites (phase : Phase) := h.sites.filter fun site =>
    n.correlationOf L site = some key ∧ n.sitePhase site = phase
  have hedges (phase : Phase) := h.edges.filter fun edge =>
    n.edgeCorrelation L edge = some key ∧ canonicalPhase edge.phase = phase
  obtain ⟨_, hsome⟩ := Option.isSome_iff_exists.1 ha
  have hother := hparts.symm.trans hsome
  unfold parts at hsome hother
  obtain ⟨input, hinput, rfl⟩ := Option.map_eq_some_iff.1 hsome
  obtain ⟨input', hinput', heq⟩ := Option.map_eq_some_iff.1 hother
  simp only [Prod.mk.injEq] at heq
  refine finishCorrelation_congr (fun phase => ?_) ?_
  · unfold correlationBuilder
    dsimp only
    rw [Option.map_map, Option.map_map, correlationOf_congr h hids, sitePhase_congr h hids]
    exact map_inhabitedList_perm (hsites phase) (union_perm L ((hsites phase).map _))
  · unfold correlationBuilder
    rw [correlationOf_congr h hids, sitePhase_congr h hids, edgeCorrelation_congr h hids, hinput,
      hinput', Option.map_some, Option.map_some, heq.1, heq.2.1, heq.2.2.1, heq.2.2.2]
    congr 1
    · funext phase
      exact map_inhabitedList_perm (hsites phase) (exact_id_perm ((hsites phase).flatMap_right _))
    · funext phase
      exact map_inhabitedList_perm (hsites phase) (exact_id_perm ((hsites phase).map _))
    · funext phase
      exact map_inhabitedList_perm (hsites phase) (exact_id_perm ((hsites phase).map _))
    · funext phase
      exact map_inhabitedList_perm (hedges phase) (exact_id_perm ((hedges phase).map _))

/-- The first sites of every correlation have the same parts. -/
def SameParts (L : Libraries) (m n : MatrixSource) : Prop :=
  ∀ key, (m.sites.find? fun site => m.correlationOf L site = some key).bind (m.parts L) =
    (n.sites.find? fun site => n.correlationOf L site = some key).bind (n.parts L)

/-- The entries have the same languages. -/
def SameLanguages (L : Libraries) (m n : MatrixSource) : Prop :=
  ∀ input, m.languageOf L input = n.languageOf L input

omit h hids in
theorem isSome_parts {site : SiteRecord} {key : String} (hkey : m.correlationOf L site = some key) :
    (m.parts L site).isSome = true := by
  unfold correlationOf at hkey
  obtain ⟨input, hinput, -⟩ := Option.map_eq_some_iff.1 hkey
  rw [parts, hinput]
  rfl

theorem correlation_congr (hparts : m.SameParts L n) : m.correlation L = n.correlation L := by
  funext key
  have hkey := hparts key
  unfold correlation
  cases ha : m.sites.find? fun site => m.correlationOf L site = some key with
  | none =>
    cases hb : n.sites.find? fun site => n.correlationOf L site = some key with
    | none => rw [Option.map_none, Option.map_none]
    | some b =>
      have hfound := List.find?_some hb
      rw [ha, hb, Option.bind_none, Option.bind_some] at hkey
      have hsome := isSome_parts (of_decide_eq_true hfound)
      rw [← hkey] at hsome
      cases hsome
  | some a =>
    have hfirst := List.find?_some ha
    have hsome := isSome_parts (of_decide_eq_true hfirst)
    cases hb : n.sites.find? fun site => n.correlationOf L site = some key with
    | none =>
      rw [ha, hb, Option.bind_none, Option.bind_some] at hkey
      rw [hkey] at hsome
      cases hsome
    | some b =>
      rw [ha, hb, Option.bind_some, Option.bind_some] at hkey
      rw [Option.map_some, Option.map_some, finishCorrelation_builder_congr h hids key hkey hsome]

omit h hids in
/-- Views of the same profiles and sites take names and languages from the same records. -/
theorem same_of_eq (hprofiles : m.profiles = n.profiles) (hsites : m.sites = n.sites) :
    m.SameParts L n ∧ m.SameLanguages L n := by
  have heffective : m.effective L = n.effective L := effective_of_profiles hprofiles
  refine ⟨fun key => ?_, fun input => ?_⟩
  · unfold parts correlationOf
    rw [heffective, hsites]
  · unfold languageOf profilesOf
    rw [heffective, hprofiles]

theorem correlations_congr (hparts : m.SameParts L n) : m.correlations L = n.correlations L := by
  unfold correlations
  rw [correlation_congr h hids hparts, correlationOf_congr h hids,
    exact_id_perm (h.sites.filterMap (n.correlationOf L))]

/-! ### Entries in another order -/

theorem profilesOf_perm (input : String) : (m.profilesOf L input).Perm (n.profilesOf L input) := by
  unfold profilesOf
  rw [effective_congr h hids]
  exact h.profiles.filter _

theorem sitesOf_perm (input : String) : (m.sitesOf L input).Perm (n.sitesOf L input) := by
  unfold sitesOf
  rw [effective_congr h hids]
  exact h.sites.filter _

theorem edgesOf_perm (input : String) : (m.edgesOf L input).Perm (n.edgesOf L input) := by
  unfold edgesOf
  rw [effective_congr h hids]
  exact h.edges.filter _

theorem conditionsOf_perm (hparts : m.SameParts L n) (input : String) :
    (m.conditionsOf L input).Perm (n.conditionsOf L input) := by
  -- the conditions of correlations are in order; those of sites and edges are not
  unfold conditionsOf
  rw [correlations_congr h hids hparts]
  split
  · exact ((sitesOf_perm h hids input).map _).append ((edgesOf_perm h hids input).map _)
  · exact .refl _

omit h hids in
theorem profileId_of_axisConflict {S : StableIds} {profiles : List ProfileRecord}
    {profile : ProfileRecord} {conflict : ProfileAxisConflictRecord}
    (hconflict : axisConflict S profiles profile = some conflict) : conflict.profileId = profile.id := by
  obtain ⟨parentId, -, hparent⟩ := Option.bind_eq_some_iff.1 hconflict
  obtain ⟨parent, -, hfields⟩ := Option.bind_eq_some_iff.1 hparent
  dsimp only at hfields
  split_ifs at hfields
  cases hfields
  rfl

omit h hids in
theorem map_filterMap_sublist {α β κ : Type} {f : α → Option β} {k : α → κ} {k' : β → κ}
    (hf : ∀ a b, f a = some b → k' b = k a) (l : List α) :
    ((l.filterMap f).map k').Sublist (l.map k) := by
  induction l with
  | nil => exact .refl []
  | cons a l ih =>
    rw [List.filterMap_cons, List.map_cons]
    cases hfa : f a with
    | none => exact ih.cons _
    | some b =>
      rw [List.map_cons, hf a b hfa]
      exact ih.cons_cons _

/-- The conflicts of profiles, which have ids of their own. -/
theorem axisConflicts_congr (input : String) :
    sortByKey (·.profileId) ((m.profilesOf L input).filterMap (axisConflict L.toStableIds m.profiles)) =
      sortByKey (·.profileId)
        ((n.profilesOf L input).filterMap (axisConflict L.toStableIds n.profiles)) := by
  have hconflict : axisConflict L.toStableIds m.profiles = axisConflict L.toStableIds n.profiles := by
    funext profile
    unfold axisConflict
    rw [profileById_congr h hids]
  rw [hconflict]
  refine sortByKey_congr _ ?_ ((profilesOf_perm h hids input).filterMap _)
  have hkeys := map_filterMap_sublist (f := axisConflict L.toStableIds n.profiles)
    (k := fun profile : ProfileRecord => profile.id) (fun _ _ => profileId_of_axisConflict)
    (m.profilesOf L input)
  exact hids.profiles.sublist (hkeys.trans (List.filter_sublist.map _))

theorem entry_congr (hparts : m.SameParts L n) (input : String) :
    (m.entry L input).withoutLanguage = (n.entry L input).withoutLanguage := by
  have hprofiles := profilesOf_perm (L := L) h hids input
  have hsites := sitesOf_perm (L := L) h hids input
  have hedges := edgesOf_perm (L := L) h hids input
  have hphases : ∀ phase, (phase ∈ (m.profilesOf L input).flatMap profilePhases ++
      (m.sitesOf L input).map m.sitePhase ++
        (m.edgesOf L input).map fun edge => canonicalPhase edge.phase) ↔
      phase ∈ (n.profilesOf L input).flatMap profilePhases ++
        (n.sitesOf L input).map n.sitePhase ++
          (n.edgesOf L input).map fun edge => canonicalPhase edge.phase := by
    rw [sitePhase_congr h hids]
    exact fun phase => (((hprofiles.flatMap_right _).append (hsites.map _)).append
      (hedges.map _)).mem_iff
  unfold ProfileMatrixEntryRecord.withoutLanguage entry
  dsimp only
  rw [exact_id_perm (hprofiles.map _), exact_id_perm (hprofiles.filterMap _),
    union_perm L (conditionsOf_perm h hids hparts input), exact_id_perm (hprofiles.map selectionReason),
    axisConflicts_congr h hids input, effective_congr h hids,
    coverage_congr h hids hprofiles hsites hedges ((ownedEvidence_perm h hids).filter _)]
  simp only [hphases]

/-- **The view does not depend on the order of records**, but for the languages of its entries. -/
theorem matrix_congr (hparts : m.SameParts L n) :
    (m.matrix L).withoutLanguages = (n.matrix L).withoutLanguages := by
  have hentries : (m.entries L).map ProfileMatrixEntryRecord.withoutLanguage =
      (n.entries L).map ProfileMatrixEntryRecord.withoutLanguage := by
    unfold entries
    rw [map_sortByKey _ ProfileMatrixEntryRecord.id_withoutLanguage,
      map_sortByKey _ ProfileMatrixEntryRecord.id_withoutLanguage, List.map_map, List.map_map,
      effectiveInputs_congr h hids]
    exact congrArg _ (List.map_congr_left fun input _ => entry_congr h hids hparts input)
  unfold ProfileMatrixRecord.withoutLanguages matrix differenceCounts
  dsimp only
  rw [hentries, correlations_congr h hids hparts, effective_congr h hids,
    coverage_congr h hids h.profiles (h.sites.filter _) (h.edges.filter _) (ownedEvidence_perm h hids)]

/-- With the same languages the view does not depend on the order at all. -/
theorem matrix_congr_of_languages (hparts : m.SameParts L n) (hlanguages : m.SameLanguages L n) :
    m.matrix L = n.matrix L := by
  have hentry : m.entry L = n.entry L := by
    funext input
    have hlabelled := congrArg (fun entry : ProfileMatrixEntryRecord =>
      { entry with language := m.languageOf L input }) (entry_congr h hids hparts input)
    refine Eq.trans hlabelled ?_
    rw [hlanguages input]
    rfl
  unfold matrix entries differenceCounts
  rw [hentry, effectiveInputs_congr h hids, correlations_congr h hids hparts, effective_congr h hids,
    coverage_congr h hids h.profiles (h.sites.filter _) (h.edges.filter _) (ownedEvidence_perm h hids)]

end MatrixSource

end ProfileMatrix
