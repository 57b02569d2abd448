import Depgraph.Health.Ranged
import Depgraph.Library.Blocks

/-!
# What a range loads is what the analysis of its subjects reads

The global index of the ranges is that of the whole snapshot (`rangedIndex_eq`), and a subject of a
range has the same finding with what was loaded for the range as with everything
(`analyzeSubject_range`).
-/

namespace Health

open Protocol Store SortDedup Blocks Std

variable (L : Libraries) (snapshot : GraphSnapshot)

/-! ### The global index -/

/-- The source of the index that all ranges share. -/
abbrev rangedSource : GlobalSource := .fromHealthInput (loadHealthGlobalContext L.toStableIds snapshot)

variable {snapshot} (hplain : snapshot.Plain L.toStableIds)

include hplain

theorem rangedSource_matrixEntries :
    (rangedSource L snapshot).matrixEntries = (GlobalSource.fromSnapshot snapshot).matrixEntries :=
  hplain.matrixEntries_eq.symm

omit hplain in
theorem applicableProfiles_congr {source source' : GlobalSource}
    (hprofiles : source.profiles = source'.profiles)
    (hmatrix : source.matrixEntries = source'.matrixEntries) (family : String) :
    applicableProfiles L source family = applicableProfiles L source' family := by
  simp only [applicableProfiles, sourceGroups, goProfileIds, profileIdsByLanguage,
    matrixProfileIdsByLanguage, fixtureProfileIds, hprofiles, hmatrix]

omit hplain in
theorem sourceGroups_congr {source source' : GlobalSource}
    (hprofiles : source.profiles = source'.profiles)
    (hmatrix : source.matrixEntries = source'.matrixEntries) :
    sourceGroups L source = sourceGroups L source' := by
  simp only [sourceGroups, goProfileIds, profileIdsByLanguage, matrixProfileIdsByLanguage, hprofiles,
    hmatrix]

omit hplain in
theorem goModuleNodes_perm : (rangedSource L snapshot).goModuleNodes.Perm
    (GlobalSource.fromSnapshot snapshot).goModuleNodes :=
  sortByKey_perm _ _

omit hplain in
theorem goPackages_perm : (goPackages (rangedSource L snapshot)).Perm
    (goPackages (.fromSnapshot snapshot)) :=
  (goModuleNodes_perm L).filterMap _

omit hplain in
theorem goPackages_nodup {source : GlobalSource} (h : (source.goModuleNodes.map (·.id)).Nodup) :
    ((goPackages source).map Prod.fst).Nodup := by
  refine List.pairwise_map.2 (List.Pairwise.filterMap _ ?_ (List.pairwise_map.1 h))
  intro node other hne package hpackage package' hpackage'
  obtain ⟨identity, -, rfl⟩ := Option.map_eq_some_iff.1 hpackage
  obtain ⟨identity', -, rfl⟩ := Option.map_eq_some_iff.1 hpackage'
  exact hne

theorem goPackageIdentityById_eq : goPackageIdentityById (rangedSource L snapshot) =
    goPackageIdentityById (.fromSnapshot snapshot) := by
  funext nodeId
  have hids : ((rangedSource L snapshot).goModuleNodes.map (·.id)).Nodup :=
    ((goModuleNodes_perm L).map _).nodup_iff.2
      (hplain.nodes.sublist (List.filter_sublist.map _))
  rw [goPackageIdentityById, goPackageIdentityById,
    find?_reverse_perm (goPackages_nodup hids) (goPackages_perm L)]
  intro package other hpackage hother
  rw [of_decide_eq_true hpackage, of_decide_eq_true hother]

omit hplain in
theorem key_injective : Function.Injective GoPackageIdentity.key := by
  intro identity other h
  obtain ⟨packagePath, modulePath, manifestPath⟩ := identity
  obtain ⟨packagePath', modulePath', manifestPath'⟩ := other
  obtain ⟨hpackage, hrest⟩ := Prod.mk.inj (toLex.injective h)
  obtain ⟨hmodule, hmanifest⟩ := Prod.mk.inj (toLex.injective hrest)
  subst hpackage hmodule hmanifest
  rfl

omit hplain in
theorem goPackageScopes_eq :
    exact GoPackageIdentity.key ((goPackages (rangedSource L snapshot)).map Prod.snd) =
      exact GoPackageIdentity.key ((goPackages (.fromSnapshot snapshot)).map Prod.snd) :=
  exact_congr key_injective fun _ => ((goPackages_perm L).map Prod.snd).mem_iff

omit hplain in
theorem goMainPackageScopes_eq :
    exact GoPackageIdentity.key (mainPackages (rangedSource L snapshot)) =
      exact GoPackageIdentity.key (mainPackages (.fromSnapshot snapshot)) :=
  exact_congr key_injective fun _ =>
    (((goModuleNodes_perm L).filter _).filterMap goPackageIdentity).mem_iff

omit hplain in
/-- Only Go module nodes have packages. -/
theorem goPackageIdentityById_eq_none {nodeId : String}
    (h : ((sortByKey (·.id) (snapshot.nodes.filter isGoModule)).map (·.id)).contains nodeId = false) :
    goPackageIdentityById (.fromSnapshot snapshot) nodeId = none := by
  have hnot : ∀ node ∈ snapshot.nodes.filter isGoModule, node.id ≠ nodeId := by
    rintro node hnode rfl
    rw [Bool.eq_false_iff, ne_eq, List.contains_iff_mem] at h
    exact h (List.mem_map_of_mem ((mem_sortByKey _).2 hnode))
  refine Option.map_eq_none_iff.2 (List.find?_eq_none.2 fun package hpackage => ?_)
  obtain ⟨node, hnode, hidentity⟩ := List.mem_filterMap.1 (List.mem_reverse.1 hpackage)
  obtain ⟨identity, -, rfl⟩ := Option.map_eq_some_iff.1 hidentity
  simpa using hnot node hnode

theorem goPackageFacts_eq : (rangedIndex L snapshot).goPackageFacts =
    (GlobalIndex.build L (.fromSnapshot snapshot)).goPackageFacts := by
  have hedge : edgeFact L (rangedSource L snapshot) = edgeFact L (.fromSnapshot snapshot) := by
    funext edge
    rw [edgeFact, edgeFact, goPackageIdentityById_eq L hplain]
    rfl
  have hsite : siteFacts L (rangedSource L snapshot) = siteFacts L (.fromSnapshot snapshot) := by
    funext site
    rw [siteFacts, siteFacts, goPackageIdentityById_eq L hplain]
    rfl
  -- an edge that does not lead to a Go module node has no package to say something about
  have hedges : (rangedSource L snapshot).edges.filterMap (edgeFact L (.fromSnapshot snapshot)) =
      snapshot.edges.filterMap (edgeFact L (.fromSnapshot snapshot)) := by
    refine (congrArg _ (sortByKey_filter hplain.edges _)).trans
      (filterMap_filter_of_none fun edge _ hout => ?_)
    rw [edgeFact, goPackageIdentityById_eq_none hout]
    rfl
  have hsites : (rangedSource L snapshot).sites.flatMap (siteFacts L (.fromSnapshot snapshot)) =
      snapshot.sites.flatMap (siteFacts L (.fromSnapshot snapshot)) := by
    refine (congrArg _ (sortByKey_filter hplain.sites _)).trans
      (flatMap_filter_of_nil fun site _ hout => ?_)
    rw [siteFacts]
    split_ifs with hskip
    · rfl
    -- the site has candidates and is left out, so it lists no Go module node
    · have hcandidates : (site.resolutionStatus == "candidates") = true := by
        simpa using fun hne => hskip (.inl hne)
      rw [hcandidates, Bool.true_and, List.any_eq_false] at hout
      refine List.filterMap_eq_nil_iff.2 fun target htarget => ?_
      rw [goPackageIdentityById_eq_none (Bool.eq_false_iff.2 (hout target htarget))]
      rfl
  change (rangedSource L snapshot).edges.filterMap (edgeFact L (rangedSource L snapshot)) ++
    (rangedSource L snapshot).sites.flatMap (siteFacts L (rangedSource L snapshot)) = _
  rw [hedge, hsite, hedges, hsites]
  rfl

omit hplain in
theorem targetlessDynamic_eq : (rangedSource L snapshot).targetlessDynamic =
    (GlobalSource.fromSnapshot snapshot).targetlessDynamic := by
  refine Bool.eq_iff_iff.2 ?_
  simp only [GlobalSource.fromHealthInput, loadHealthGlobalContext, GlobalSource.fromSnapshot,
    dynamicSiteIds, Bool.or_eq_true, List.any_eq_true, List.contains_iff_mem, List.mem_map,
    List.mem_filter, Bool.and_eq_true, beq_iff_eq]
  grind

/-- **The index that all ranges share is that of the whole snapshot.** -/
theorem rangedIndex_eq : rangedIndex L snapshot = .build L (.fromSnapshot snapshot) := by
  have hprofiles : (rangedSource L snapshot).profiles =
      (GlobalSource.fromSnapshot snapshot).profiles := rfl
  have hmatrix := rangedSource_matrixEntries L hplain
  have hgroups := sourceGroups_congr L hprofiles hmatrix
  have happlicable := funext (applicableProfiles_congr L hprofiles hmatrix)
  unfold rangedIndex GlobalIndex.build
  rw [GlobalIndex.mk.injEq]
  refine ⟨hprofiles, hgroups, ?_, ?_, goPackageScopes_eq L, goMainPackageScopes_eq L,
    goPackageFacts_eq L hplain, rfl, rfl, targetlessDynamic_eq L, rfl, rfl⟩
  · rw [happlicable]
    rfl
  · rw [hgroups, hmatrix]
    rfl

/-! ### What leads to a subject -/

omit hplain in
theorem isRangeTarget_of_mem {range : HealthRange} {node : NodeRecord}
    (hnode : node ∈ rangeSubjects snapshot range) : isRangeTarget snapshot range node.id = true := by
  obtain ⟨hmem, hin⟩ := List.mem_filter.1 ((mem_sortByKey _).1 hnode)
  obtain ⟨hsubject, hholds⟩ := Bool.and_eq_true_iff.1 hin
  refine Bool.and_eq_true_iff.2 ⟨hholds, List.any_eq_true.2 ⟨node, hmem, ?_⟩⟩
  rw [hsubject, beq_self_eq_true, Bool.and_true]

omit hplain in
theorem mem_nodes_of_mem_rangeSubjects {range : HealthRange} {node : NodeRecord}
    (hnode : node ∈ rangeSubjects snapshot range) : node ∈ snapshot.nodes :=
  (List.mem_filter.1 ((mem_sortByKey _).1 hnode)).1

/-- What is loaded for the whole snapshot. -/
abbrev wholeIndex (snapshot : GraphSnapshot) : LocalIndex :=
  ⟨snapshot.nodes, snapshot.edges, snapshot.sites, dynamicSiteIds snapshot⟩

section Subject

variable {range : HealthRange} {node : NodeRecord} (hnode : node ∈ rangeSubjects snapshot range)

include hnode

/-- Every edge to a subject is loaded, whatever range its source lies in. -/
theorem incoming_range :
    (loadHealthRange snapshot range).incoming node.id = (wholeIndex snapshot).incoming node.id := by
  have hedges : (loadHealthRange snapshot range).edges =
      snapshot.edges.filter fun edge => isRangeTarget snapshot range edge.target :=
    sortByKey_filter hplain.edges _
  rw [LocalIndex.incoming, hedges, List.filter_filter]
  refine List.filter_congr fun edge _ => ?_
  by_cases htarget : edge.target = node.id
  · rw [htarget, isRangeTarget_of_mem hnode, Bool.and_true]
  · rw [decide_eq_false htarget, Bool.false_and]

omit hplain in
/-- A site that lists a subject is loaded. -/
theorem any_isRangeTarget {site : SiteRecord} (hlists : node.id ∈ site.targetIds) :
    site.targetIds.any (isRangeTarget snapshot range) = true :=
  List.any_eq_true.2 ⟨node.id, hlists, isRangeTarget_of_mem hnode⟩

theorem sitesByTarget_range : (loadHealthRange snapshot range).sitesByTarget node.id =
    (wholeIndex snapshot).sitesByTarget node.id := by
  have hsites : (loadHealthRange snapshot range).sites =
      snapshot.sites.filter fun site => site.targetIds.any (isRangeTarget snapshot range) :=
    sortByKey_filter hplain.sites _
  rw [LocalIndex.sitesByTarget, hsites]
  refine flatMap_filter_of_nil fun site _ hout => ?_
  have hnot : node.id ∉ site.targetIds := fun hlists =>
    Bool.false_ne_true (hout.symm.trans (any_isRangeTarget hnode hlists))
  rw [List.filter_eq_nil_iff.2 fun target htarget => ?_, List.map_nil]
  rintro heq
  exact hnot (of_decide_eq_true heq ▸ htarget)

/-- The sites of a subject load dynamically with what was loaded for its range if and only if they do
with everything. -/
theorem siteBlockers_range : ((loadHealthRange snapshot range).sitesByTarget node.id).flatMap
      (siteBlockers (loadHealthRange snapshot range).dynamicSiteIds) =
    ((wholeIndex snapshot).sitesByTarget node.id).flatMap
      (siteBlockers (wholeIndex snapshot).dynamicSiteIds) := by
  rw [sitesByTarget_range L hplain hnode]
  refine List.flatMap_congr fun site hsite => ?_
  have hdynamic : (loadHealthRange snapshot range).dynamicSiteIds.contains site.id =
      (wholeIndex snapshot).dynamicSiteIds.contains site.id := by
    obtain ⟨site', hsite', hmap⟩ := List.mem_flatMap.1 hsite
    obtain ⟨target, htarget, rfl⟩ := List.mem_map.1 hmap
    obtain ⟨hlists, heq⟩ := List.mem_filter.1 htarget
    have hlists : node.id ∈ site'.targetIds := of_decide_eq_true heq ▸ hlists
    have hinbound : site'.id ∈ (snapshot.sites.filter fun site =>
        site.targetIds.any (isRangeTarget snapshot range)).map (·.id) :=
      List.mem_map_of_mem (List.mem_filter.2 ⟨hsite', any_isRangeTarget hnode hlists⟩)
    -- the ranged ids are those of the inbound sites only, and this site is inbound
    refine Bool.eq_iff_iff.2 ?_
    simp only [loadHealthRange, dynamicSiteIds, List.contains_iff_mem,
      mem_exact Function.injective_id, List.mem_map, List.mem_filter, Bool.and_eq_true]
    constructor
    · rintro ⟨evidence, ⟨hmem, hevidence, -⟩, howner⟩
      exact ⟨evidence, ⟨hmem, hevidence⟩, howner⟩
    · rintro ⟨evidence, ⟨hmem, hevidence⟩, howner⟩
      refine ⟨evidence, ⟨hmem, hevidence, ?_⟩, howner⟩
      rw [howner]
      simpa using hinbound
  rw [siteBlockers, siteBlockers, hdynamic]

theorem goFileOf_range (index : GlobalIndex) :
    goFileOf L index (loadHealthRange snapshot range) node.id =
      goFileOf L index (wholeIndex snapshot) node.id := by
  have hids : ((rangeSubjects snapshot range).map (·.id)).Nodup :=
    ((sortByKey_perm _ _).map _).nodup_iff.2 (hplain.nodes.sublist (List.filter_sublist.map _))
  have hkey : ∀ other : NodeRecord, decide (other.id = node.id ∧ other.kind = "file" ∧
      languageOf other = some "go") = true → other.id = node.id :=
    fun other h => (of_decide_eq_true h).1
  rw [goFileOf, goFileOf, show (loadHealthRange snapshot range).subjects =
    rangeSubjects snapshot range from rfl, find?_of_key_nodup hids hnode hkey,
    find?_of_key_nodup hplain.nodes (mem_nodes_of_mem_rangeSubjects hnode) hkey]
  split_ifs
  · rw [Option.map_some, Option.map_some, goFile, goFile, incoming_range L hplain hnode]
  · rfl

/-- **A subject of a range has the same finding with what was loaded for the range as with
everything.** -/
theorem analyzeSubject_range (index : GlobalIndex) (kind : FindingKind) :
    analyzeSubject L index (loadHealthRange snapshot range) node kind =
      analyzeSubject L index (wholeIndex snapshot) node kind := by
  rw [analyzeSubject, analyzeSubject, incoming_range L hplain hnode,
    siteBlockers_range L hplain hnode, goFileOf_range L hplain hnode]

end Subject

/-! ### Ranges put together -/

/-- The finding of a subject, with everything. -/
def wholeFinding (snapshot : GraphSnapshot) (node : NodeRecord) : Option HealthFinding :=
  (subjectKind node).bind
    (analyzeSubject L (.build L (.fromSnapshot snapshot)) (wholeIndex snapshot) node)

omit hplain in
theorem subjectKind_eq_none {node : NodeRecord} (h : isSubject node = false) :
    subjectKind node = none := by
  rw [isSubject, Bool.eq_false_iff, ne_eq, List.contains_iff_mem] at h
  simp only [List.mem_cons, List.not_mem_nil, or_false, not_or] at h
  rw [subjectKind, if_neg h.1, if_neg h.2.1, if_neg h.2.2]

omit hplain in
theorem analyzeUnused_eq : analyzeUnused L snapshot =
    sortByKey (·.id) ((snapshot.nodes.filter isSubject).filterMap (wholeFinding L snapshot)) := by
  rw [filterMap_filter_of_none fun node _ hnot => ?_]
  · rfl
  · rw [wholeFinding, subjectKind_eq_none hnot]
    rfl

theorem rangeFindings_perm (range : HealthRange) : (rangeFindings L snapshot range).Perm
    ((rangeSubjects snapshot range).filterMap (wholeFinding L snapshot)) := by
  refine (sortByKey_perm _ _).trans (.of_eq ?_)
  rw [rangedIndex_eq L hplain, subjectFindings]
  refine List.filterMap_congr fun node hnode => ?_
  exact congrArg _ (funext (analyzeSubject_range L hplain hnode _))

/-- The findings of ranges are those of their subjects. -/
theorem flatMap_rangeFindings_perm (ranges : List HealthRange) :
    (ranges.flatMap (rangeFindings L snapshot)).Perm
      ((ranges.flatMap (rangeSubjects snapshot)).filterMap (wholeFinding L snapshot)) := by
  induction ranges with
  | nil => exact .nil
  | cons range ranges ih =>
    rw [List.flatMap_cons, List.flatMap_cons, List.filterMap_append]
    exact (rangeFindings_perm L hplain range).append ih

/-- The subjects in the order of their ids. -/
def subjectIds (snapshot : GraphSnapshot) : List String :=
  (sortByKey (·.id) (snapshot.nodes.filter isSubject)).map (·.id)

/-- **Ranges that have every subject once have, put together, the findings of the whole snapshot**, and
in the same order where the ids of the findings are distinct. -/
theorem ranges_exact {ranges : List HealthRange}
    (hcover : (ranges.flatMap (healthRangeSubjectIds snapshot)).Perm (subjectIds snapshot)) :
    (ranges.flatMap (rangeFindings L snapshot)).Perm (analyzeUnused L snapshot) ∧
      (((ranges.flatMap (rangeFindings L snapshot)).map (·.id)).Nodup →
        sortByKey (·.id) (ranges.flatMap (rangeFindings L snapshot)) = analyzeUnused L snapshot) := by
  have hids : ((snapshot.nodes.filter isSubject).map (·.id)).Nodup :=
    hplain.nodes.sublist (List.filter_sublist.map _)
  have hsubjects : (ranges.flatMap (rangeSubjects snapshot)).Perm
      (snapshot.nodes.filter isSubject) := by
    refine perm_of_map_perm hids (fun node hnode => ?_) ?_
    · obtain ⟨range, -, hin⟩ := List.mem_flatMap.1 hnode
      obtain ⟨hmem, hholds⟩ := List.mem_filter.1 ((mem_sortByKey _).1 hin)
      exact List.mem_filter.2 ⟨hmem, (Bool.and_eq_true_iff.1 hholds).1⟩
    · rw [List.map_flatMap]
      exact hcover.trans ((sortByKey_perm _ _).map _)
  have hperm : (ranges.flatMap (rangeFindings L snapshot)).Perm
      ((snapshot.nodes.filter isSubject).filterMap (wholeFinding L snapshot)) :=
    (flatMap_rangeFindings_perm L hplain ranges).trans (hsubjects.filterMap _)
  rw [analyzeUnused_eq]
  exact ⟨hperm.trans (sortByKey_perm _ _).symm, fun hnodup => sortByKey_congr _ hnodup hperm⟩

end Health
