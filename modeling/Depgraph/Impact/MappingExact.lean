import Depgraph.Impact.Exact
import Depgraph.Library.Costs
import Depgraph.Library.ListMap
import Mathlib.Algebra.Order.BigOperators.Group.List
import Mathlib.Data.List.Flatten

/-!
# Changes are mapped one by one

`map_changed_set` builds an index for the changed paths only. `mapChangedSet_exact` says that each
change is mapped as an index of all paths would map it, and as if it were the only change. The proof
counts the work of the mapping, since the mapping of one change must not take more work than the
mapping of all.
-/

namespace Impact

open Json Protocol Store OrderedMap Metered SortDedup Std

/-! ### The index of all paths -/

/-- The index with one more node under a path. -/
def addNode (index : PathIndex) (entry : String × String) : PathIndex :=
  index.alter entry.1 fun ids => some ((ids.getD ∅).insert entry.2)

section Full

variable (snapshot : GraphSnapshot)

/-- The nodes under the paths in their properties. -/
def nodeEntries : List (String × String) :=
  snapshot.nodes.flatMap fun node => (nodePaths node).map fun path => (path, node.id)

/-- What evidence about a site says: its owner, and its path. -/
def siteEntries (owner : String × String) : List (String × String) :=
  match (indexed SiteRecord.id snapshot.sites)[owner.1]? with
  | none => []
  | some site => [(owner.2, site.source)]

/-- What evidence about an edge says. -/
def edgeEntries (owner : String × String) : List (String × String) :=
  match (indexed EdgeRecord.id snapshot.edges)[owner.1]? with
  | none => []
  | some edge =>
    (owner.2, edge.source) :: if indexesTarget edge then [(owner.2, edge.target)] else []

/-- What evidence says about its path. -/
def evidenceEntries (evidence : EvidenceRecord) : List (String × String) :=
  if evidence.ownerType = "node" then [(evidence.path, evidence.ownerId)]
  else if evidence.ownerType = "site" then siteEntries snapshot (evidence.ownerId, evidence.path)
  else if evidence.ownerType = "edge" then edgeEntries snapshot (evidence.ownerId, evidence.path)
  else []

/-- The nodes of all paths. -/
def fullEntries : List (String × String) :=
  nodeEntries snapshot ++ snapshot.evidence.flatMap (evidenceEntries snapshot)

/-- `full_path_node_index`, the index without regard to changes. -/
def fullPathNodeIndex : PathIndex :=
  ((fullEntries snapshot).filter fun entry => isGitPath entry.1).foldl addNode ∅

end Full

/-- A node belongs to a path by its own properties, by evidence about it, or by evidence about a site
or an edge that it is an end of. Of records with one identity the later one counts. -/
inductive BelongsTo (snapshot : GraphSnapshot) (path : String) : String → Prop
  | property {node : NodeRecord} : node ∈ snapshot.nodes → path ∈ nodePaths node →
      BelongsTo snapshot path node.id
  | node {e : EvidenceRecord} : e ∈ snapshot.evidence → e.path = path → e.ownerType = "node" →
      BelongsTo snapshot path e.ownerId
  | site {e : EvidenceRecord} {site : SiteRecord} : e ∈ snapshot.evidence → e.path = path →
      e.ownerType = "site" → (indexed SiteRecord.id snapshot.sites)[e.ownerId]? = some site →
      BelongsTo snapshot path site.source
  | source {e : EvidenceRecord} {edge : EdgeRecord} : e ∈ snapshot.evidence → e.path = path →
      e.ownerType = "edge" → (indexed EdgeRecord.id snapshot.edges)[e.ownerId]? = some edge →
      BelongsTo snapshot path edge.source
  | target {e : EvidenceRecord} {edge : EdgeRecord} : e ∈ snapshot.evidence → e.path = path →
      e.ownerType = "edge" → (indexed EdgeRecord.id snapshot.edges)[e.ownerId]? = some edge →
      indexesTarget edge = true → BelongsTo snapshot path edge.target

/-- The nodes that an index has for a path. -/
def indexedNodeIds (index : PathIndex) (path : Option String) : List String :=
  (path.bind fun path => index[path]?).elim [] ExtTreeSet.toList

/-- The mapping of a change by an index. -/
def mappingOf (index : PathIndex) (change : GitChange) : ChangedNodeMapping where
  change := change
  oldNodeIds := indexedNodeIds index change.oldPath
  newNodeIds := indexedNodeIds index change.newPath
  correlatedNodeIds :=
    exact id (indexedNodeIds index change.oldPath ++ indexedNodeIds index change.newPath)

/-! ### Entries of an index -/

section Entries

variable {snapshot : GraphSnapshot} {index index' : PathIndex}

theorem mem_foldl_addNode {entries : List (String × String)} {path nodeId : String} :
    nodeId ∈ (entries.foldl addNode index)[path]?.getD ∅ ↔
      nodeId ∈ index[path]?.getD ∅ ∨ (path, nodeId) ∈ entries := by
  induction entries generalizing index with
  | nil => simp
  | cons entry entries ih =>
    obtain ⟨path', nodeId'⟩ := entry
    rw [List.foldl_cons, ih, addNode, OrderedMap.getElem?_alter, List.mem_cons, Prod.mk.injEq]
    by_cases hpath : path = path'
    · rw [if_pos hpath, Option.getD_some, OrderedMap.mem_insert, hpath]
      simp only [true_and]
      tauto
    · rw [if_neg hpath]
      simp only [hpath, false_and, false_or]

/-- The entries are the nodes that belong to the paths. -/
theorem mem_fullEntries {path nodeId : String} :
    (path, nodeId) ∈ fullEntries snapshot ↔ BelongsTo snapshot path nodeId := by
  rw [fullEntries, List.mem_append, nodeEntries, List.mem_flatMap, List.mem_flatMap]
  constructor
  · rintro (⟨node, hnode, hentry⟩ | ⟨e, he, hentry⟩)
    · obtain ⟨p, hp, hsame⟩ := List.mem_map.1 hentry
      obtain ⟨rfl, rfl⟩ := Prod.mk.inj hsame
      exact .property hnode hp
    · unfold evidenceEntries at hentry
      split_ifs at hentry with hnode hsite hedge
      · obtain ⟨rfl, rfl⟩ := Prod.mk.inj (List.mem_singleton.1 hentry)
        exact .node he rfl hnode
      · unfold siteEntries at hentry
        cases hfound : (indexed SiteRecord.id snapshot.sites)[e.ownerId]? with
        | none => simp [hfound] at hentry
        | some site =>
          simp only [hfound, List.mem_singleton, Prod.mk.injEq] at hentry
          obtain ⟨rfl, rfl⟩ := hentry
          exact .site he rfl hsite hfound
      · unfold edgeEntries at hentry
        cases hfound : (indexed EdgeRecord.id snapshot.edges)[e.ownerId]? with
        | none => simp [hfound] at hentry
        | some edge =>
          simp only [hfound, List.mem_cons, Prod.mk.injEq] at hentry
          rcases hentry with ⟨rfl, rfl⟩ | hentry
          · exact .source he rfl hedge hfound
          · split_ifs at hentry with htarget
            · obtain ⟨rfl, rfl⟩ := Prod.mk.inj (List.mem_singleton.1 hentry)
              exact .target he rfl hedge hfound htarget
            · cases hentry
      · cases hentry
  · intro h
    cases h with
    | property hnode hpath => exact Or.inl ⟨_, hnode, List.mem_map.2 ⟨path, hpath, rfl⟩⟩
    | node he hpath htype =>
      refine Or.inr ⟨_, he, ?_⟩
      rw [evidenceEntries, if_pos htype, hpath]
      exact List.mem_singleton_self _
    | site he hpath htype hfound =>
      refine Or.inr ⟨_, he, ?_⟩
      rw [evidenceEntries, htype, if_neg (by decide), if_pos rfl, siteEntries]
      simp only [hfound, hpath, List.mem_singleton]
    | source he hpath htype hfound =>
      refine Or.inr ⟨_, he, ?_⟩
      rw [evidenceEntries, htype, if_neg (by decide), if_neg (by decide), if_pos rfl, edgeEntries]
      simp only [hfound, hpath, List.mem_cons, true_or]
    | target he hpath htype hfound htarget =>
      refine Or.inr ⟨_, he, ?_⟩
      rw [evidenceEntries, htype, if_neg (by decide), if_neg (by decide), if_pos rfl, edgeEntries]
      simp only [hfound, hpath, htarget, if_true, List.mem_cons, or_true, true_or]

theorem mem_fullPathNodeIndex {path nodeId : String} :
    nodeId ∈ (fullPathNodeIndex snapshot)[path]?.getD ∅ ↔
      isGitPath path = true ∧ BelongsTo snapshot path nodeId := by
  rw [← mem_fullEntries, fullPathNodeIndex, mem_foldl_addNode, ExtTreeMap.getElem?_empty, Option.getD_none,
    or_iff_right ExtTreeSet.not_mem_empty, List.mem_filter, and_comm]

theorem mem_indexedNodeIds {path : Option String} {nodeId : String} :
    nodeId ∈ indexedNodeIds index path ↔ ∃ p ∈ path, nodeId ∈ index[p]?.getD ∅ := by
  unfold indexedNodeIds
  cases path with
  | none => simp
  | some path =>
    simp only [Option.bind_some, Option.mem_def, Option.some.injEq, exists_eq_left']
    cases index[path]? with
    | none => simp
    | some ids => exact ExtTreeSet.mem_toList

/-- The nodes of a path increase. -/
theorem indexedNodeIds_sorted {path : Option String} :
    (indexedNodeIds index path).Pairwise (· < ·) := by
  unfold indexedNodeIds
  cases path.bind fun path => index[path]? with
  | none => exact .nil
  | some ids => exact ExtTreeSet.ordered_toList.imp compare_lt_iff_lt.1

theorem eq_of_sorted {l l' : List String} (h : l.Pairwise (· < ·)) (h' : l'.Pairwise (· < ·))
    (hmem : ∀ nodeId, nodeId ∈ l ↔ nodeId ∈ l') : l = l' := by
  have : Std.Irrefl fun a b : String => a < b := ⟨fun a => String.lt_irrefl a⟩
  have : Std.Antisymm fun a b : String => a < b := ⟨fun a b hab hba => absurd hab hba.not_gt⟩
  exact h.eq_of_mem_iff h' hmem

/-- Indices that agree on the paths of a change map it alike. -/
theorem mappingOf_congr {change : GitChange}
    (h : ∀ path, path ∈ change.oldPath ∨ path ∈ change.newPath → ∀ nodeId,
      nodeId ∈ index[path]?.getD ∅ ↔ nodeId ∈ index'[path]?.getD ∅) :
    mappingOf index change = mappingOf index' change := by
  have hsame (path : Option String) (hpath : ∀ p ∈ path, p ∈ change.oldPath ∨ p ∈ change.newPath) :
      indexedNodeIds index path = indexedNodeIds index' path := by
    refine eq_of_sorted indexedNodeIds_sorted indexedNodeIds_sorted fun nodeId => ?_
    rw [mem_indexedNodeIds, mem_indexedNodeIds]
    exact exists_congr fun p => and_congr_right fun hp => h p (hpath p hp) nodeId
  unfold mappingOf
  rw [hsame _ fun p hp => Or.inl hp, hsame _ fun p hp => Or.inr hp]

end Entries

/-! ### The work of the index -/

section Index

variable {snapshot : GraphSnapshot} {maximum : Nat} {changed : ExtTreeSet String}

/-- Costs of a computation of this stage. -/
abbrev MappingCosts {α : Type} (maximum : Nat) (x : ChangedSetWork α) (n : Nat) (a : α) : Prop :=
  Costs maximum (.changedSetPreprocessingExhausted maximum) x n a

/-- The paths of a list of changes. -/
def pathsOf (changes : List GitChange) : List String :=
  changes.flatMap fun change => change.oldPath.toList ++ change.newPath.toList

/-- The paths that are indexed. -/
def changedPathsOf (changes : List GitChange) : ExtTreeSet String :=
  (pathsOf changes).foldl (fun paths path => if isGitPath path then paths.insert path else paths) ∅

theorem mem_changedPathsOf {changes : List GitChange} {path : String} :
    path ∈ changedPathsOf changes ↔ isGitPath path = true ∧ path ∈ pathsOf changes := by
  unfold changedPathsOf
  induction pathsOf changes using List.reverseRecOn with
  | nil => simp
  | append_singleton paths last ih =>
    rw [List.foldl_append, List.foldl_cons, List.foldl_nil, List.mem_append, List.mem_singleton]
    by_cases hlast : isGitPath last = true
    · rw [if_pos hlast, OrderedMap.mem_insert, ih]
      constructor
      · rintro (rfl | hpath)
        · exact ⟨hlast, Or.inr rfl⟩
        · exact ⟨hpath.1, Or.inl hpath.2⟩
      · rintro ⟨hgit, hpath | rfl⟩
        · exact Or.inr ⟨hgit, hpath⟩
        · exact Or.inl rfl
    · rw [if_neg hlast, ih]
      refine and_congr_right fun hgit => (or_iff_left ?_).symm
      rintro rfl
      exact hlast hgit

theorem insertChangedNodePath_costs {index : PathIndex} {path nodeId : String} :
    MappingCosts maximum (insertChangedNodePath maximum index path nodeId) 1
      (addNode index (path, nodeId)) :=
  Costs.step_pure _

/-- The entries of these paths. -/
def restrict (changed : ExtTreeSet String) (entries : List (String × String)) :
    List (String × String) :=
  entries.filter fun entry => changed.contains entry.1

theorem nodes_costs {index : PathIndex} :
    MappingCosts maximum (snapshot.nodes.foldlM (fun index node =>
        (nodePaths node).foldlM (indexChangedNodePath maximum changed node.id) index) index)
      (restrict changed (nodeEntries snapshot)).length
      ((restrict changed (nodeEntries snapshot)).foldl addNode index) := by
  have hnode (node : NodeRecord) (index : PathIndex) :
      MappingCosts maximum ((nodePaths node).foldlM (indexChangedNodePath maximum changed node.id) index)
        (restrict changed ((nodePaths node).map fun path => (path, node.id))).length
        ((restrict changed ((nodePaths node).map fun path => (path, node.id))).foldl addNode index) := by
    have hentries (paths : List String) : restrict changed (paths.map fun path => (path, node.id)) =
        paths.flatMap fun path => restrict changed [(path, node.id)] := by
      induction paths with
      | nil => rfl
      | cons path paths ih =>
        rw [List.flatMap_cons, ← ih, restrict, restrict, restrict, ← List.filter_append]
        rfl
    rw [hentries]
    refine Costs.foldlM_adds fun index path _ => ?_
    unfold indexChangedNodePath restrict
    by_cases hpath : path ∈ changed
    · have hkept : [(path, node.id)].filter (fun entry => changed.contains entry.1) =
        [(path, node.id)] := List.filter_cons_of_pos hpath
      rw [if_pos hpath, hkept]
      exact insertChangedNodePath_costs
    · have hleft : [(path, node.id)].filter (fun entry => changed.contains entry.1) = [] :=
        List.filter_cons_of_neg hpath
      rw [if_neg hpath, hleft]
      exact Costs.pure index
  have hall : restrict changed (nodeEntries snapshot) = snapshot.nodes.flatMap fun node =>
      restrict changed ((nodePaths node).map fun path => (path, node.id)) := by
    rw [restrict, nodeEntries, List.filter_flatMap]
    rfl
  rw [hall]
  exact Costs.foldlM_adds fun index node _ => hnode node index

/-- What evidence adds to the paths. -/
def addEvidence (changed : ExtTreeSet String) (paths : OwnerPaths) (evidence : EvidenceRecord) :
    OwnerPaths :=
  if evidence.path ∈ changed then
    if evidence.ownerType = "node" then
      { paths with index := addNode paths.index (evidence.path, evidence.ownerId) }
    else if evidence.ownerType = "site" then
      { paths with sitePaths := pushPath paths.sitePaths evidence.ownerId evidence.path }
    else if evidence.ownerType = "edge" then
      { paths with edgePaths := pushPath paths.edgePaths evidence.ownerId evidence.path }
    else paths
  else paths

/-- The steps that evidence takes. -/
def evidenceCost (changed : ExtTreeSet String) (evidence : EvidenceRecord) : Nat :=
  if evidence.path ∈ changed then
    if evidence.ownerType = "node" then 1
    else if evidence.ownerType = "site" then 1
    else if evidence.ownerType = "edge" then 1
    else 0
  else 0

theorem indexEvidence_costs {paths : OwnerPaths} {evidence : EvidenceRecord} :
    MappingCosts maximum (indexEvidence maximum changed paths evidence) (evidenceCost changed evidence)
      (addEvidence changed paths evidence) := by
  refine Costs.ite (Costs.ite ?_ (Costs.ite ?_ (Costs.ite ?_ (Costs.pure _)))) (Costs.pure _)
  · exact Costs.bind (n := 0) insertChangedNodePath_costs (Costs.pure _)
  · exact Costs.step_pure _
  · exact Costs.step_pure _

/-- The owners of the evidence of a type at these paths. -/
def ownersOf (changed : ExtTreeSet String) (ownerType : String) (evidence : List EvidenceRecord) :
    List (String × String) :=
  (evidence.filter fun evidence =>
    decide (evidence.path ∈ changed ∧ evidence.ownerType = ownerType)).map fun evidence =>
      (evidence.ownerId, evidence.path)

theorem ownersOf_cons (ownerType : String) (evidence : EvidenceRecord) (rest : List EvidenceRecord) :
    ownersOf changed ownerType (evidence :: rest) =
      (if evidence.path ∈ changed ∧ evidence.ownerType = ownerType then
        [(evidence.ownerId, evidence.path)] else []) ++ ownersOf changed ownerType rest := by
  unfold ownersOf
  rw [List.filter_cons]
  by_cases h : evidence.path ∈ changed ∧ evidence.ownerType = ownerType
  · rw [if_pos (decide_eq_true h), if_pos h]
    rfl
  · rw [if_neg (by simpa using h), if_neg h]
    rfl

/-- The three parts of what the evidence adds. -/
theorem foldl_addEvidence (evidence : List EvidenceRecord) (paths : OwnerPaths) :
    evidence.foldl (addEvidence changed) paths = {
      index := ((ownersOf changed "node" evidence).map Prod.swap).foldl addNode paths.index
      sitePaths := (ownersOf changed "site" evidence).foldl appendUnder paths.sitePaths
      edgePaths := (ownersOf changed "edge" evidence).foldl appendUnder paths.edgePaths } := by
  induction evidence generalizing paths with
  | nil => rfl
  | cons first rest ih =>
    rw [List.foldl_cons, ih, ownersOf_cons, ownersOf_cons, ownersOf_cons]
    unfold addEvidence
    by_cases hpath : first.path ∈ changed
    · by_cases hnode : first.ownerType = "node"
      · simp [hpath, hnode]
      · by_cases hsite : first.ownerType = "site"
        · simp [hpath, hsite, pushPath, appendUnder]
        · by_cases hedge : first.ownerType = "edge"
          · simp [hpath, hedge, pushPath, appendUnder]
          · simp [hnode, hsite, hedge]
    · simp [hpath]

/-- What is recorded for an owner. -/
theorem sites_costs {m : ExtTreeMap String (List String)} {index : PathIndex} :
    MappingCosts maximum (m.toList.foldlM (fun index entry =>
        match (indexed SiteRecord.id (snapshot.sites.filter fun site => m.contains site.id))[entry.1]?
          with
        | none => return index
        | some site => entry.2.foldlM (fun index path =>
          insertChangedNodePath maximum index path site.source) index) index)
      ((listEntries m).flatMap (siteEntries snapshot)).length
      (((listEntries m).flatMap (siteEntries snapshot)).foldl addNode index) := by
  rw [listEntries, List.flatMap_assoc]
  refine Costs.foldlM_adds fun index entry hentry => ?_
  have hkey : m.contains entry.1 = true := by
    rw [ExtTreeMap.contains_iff_mem, OrderedMap.mem_iff]
    exact ⟨entry.2, mem_toList.1 hentry⟩
  rw [getElem?_indexed_filter (p := m.contains) hkey, List.flatMap_map]
  cases hfound : (indexed SiteRecord.id snapshot.sites)[entry.1]? with
  | none =>
    have hnone (path : String) : siteEntries snapshot (entry.1, path) = [] := by
      simp only [siteEntries, hfound]
    rw [List.flatMap_eq_nil_iff.2 fun path _ => hnone path]
    exact Costs.pure index
  | some site =>
    have hsome (path : String) : siteEntries snapshot (entry.1, path) = [(path, site.source)] := by
      simp only [siteEntries, hfound]
    refine Costs.foldlM_adds fun index path _ => ?_
    rw [hsome]
    exact insertChangedNodePath_costs

theorem edges_costs {m : ExtTreeMap String (List String)} {index : PathIndex} :
    MappingCosts maximum (m.toList.foldlM (fun index entry =>
        match (indexed EdgeRecord.id (snapshot.edges.filter fun edge => m.contains edge.id))[entry.1]?
          with
        | none => return index
        | some edge => entry.2.foldlM (fun index path => do
          let index ← insertChangedNodePath maximum index path edge.source
          if indexesTarget edge then insertChangedNodePath maximum index path edge.target
          else return index) index) index)
      ((listEntries m).flatMap (edgeEntries snapshot)).length
      (((listEntries m).flatMap (edgeEntries snapshot)).foldl addNode index) := by
  rw [listEntries, List.flatMap_assoc]
  refine Costs.foldlM_adds fun index entry hentry => ?_
  have hkey : m.contains entry.1 = true := by
    rw [ExtTreeMap.contains_iff_mem, OrderedMap.mem_iff]
    exact ⟨entry.2, mem_toList.1 hentry⟩
  rw [getElem?_indexed_filter (p := m.contains) hkey, List.flatMap_map]
  cases hfound : (indexed EdgeRecord.id snapshot.edges)[entry.1]? with
  | none =>
    have hnone (path : String) : edgeEntries snapshot (entry.1, path) = [] := by
      simp only [edgeEntries, hfound]
    rw [List.flatMap_eq_nil_iff.2 fun path _ => hnone path]
    exact Costs.pure index
  | some edge =>
    have hsome (path : String) : edgeEntries snapshot (entry.1, path) =
        (path, edge.source) :: if indexesTarget edge then [(path, edge.target)] else [] := by
      simp only [edgeEntries, hfound]
    refine Costs.foldlM_adds fun index path _ => ?_
    rw [hsome]
    cases htarget : indexesTarget edge with
    | true =>
      exact Costs.bind (n := 1) insertChangedNodePath_costs insertChangedNodePath_costs
    | false => exact Costs.bind (n := 0) insertChangedNodePath_costs (Costs.pure _)

/-- The entries of the index of these paths. -/
def changedEntries (snapshot : GraphSnapshot) (changed : ExtTreeSet String) :
    List (String × String) :=
  restrict changed (nodeEntries snapshot) ++
    ((ownersOf changed "node" snapshot.evidence).map Prod.swap ++
    ((ownersOf changed "site" snapshot.evidence).flatMap (siteEntries snapshot) ++
    (ownersOf changed "edge" snapshot.evidence).flatMap (edgeEntries snapshot)))

/-- The steps of the index of these paths. -/
def indexCost (snapshot : GraphSnapshot) (changed : ExtTreeSet String) : Nat :=
  (restrict changed (nodeEntries snapshot)).length +
    ((snapshot.evidence.map (evidenceCost changed)).sum +
    (((ownersOf changed "site" snapshot.evidence).flatMap (siteEntries snapshot)).length +
    ((ownersOf changed "edge" snapshot.evidence).flatMap (edgeEntries snapshot)).length))

/-- **The index of the changed paths**, and the steps that it takes. -/
theorem pathNodeIndex_costs {changedSet : GitChangedSet} :
    ∃ index, MappingCosts maximum (pathNodeIndex maximum snapshot changedSet)
        ((pathsOf changedSet.changes).length +
          indexCost snapshot (changedPathsOf changedSet.changes)) index ∧
      ∀ path nodeId : String, nodeId ∈ index[path]?.getD ∅ ↔
        (path, nodeId) ∈ changedEntries snapshot (changedPathsOf changedSet.changes) := by
  have howners (ownerType : String) : (listEntries ((ownersOf (changedPathsOf changedSet.changes)
      ownerType snapshot.evidence).foldl appendUnder ∅)).Perm
        (ownersOf (changedPathsOf changedSet.changes) ownerType snapshot.evidence) := by
    have h := listEntries_appendAll
      (ownersOf (changedPathsOf changedSet.changes) ownerType snapshot.evidence) ∅
    rwa [listEntries_empty, List.nil_append] at h
  have hsites := (howners "site").flatMap_right (siteEntries snapshot)
  have hedges := (howners "edge").flatMap_right (edgeEntries snapshot)
  have hpaths : MappingCosts maximum ((pathsOf changedSet.changes).foldlM
      (fun (paths : ExtTreeSet String) path => do
        ChangedSetWork.step maximum
        return if isGitPath path then paths.insert path else paths) ∅)
      (pathsOf changedSet.changes).length (changedPathsOf changedSet.changes) := by
    have h : MappingCosts maximum ((pathsOf changedSet.changes).foldlM
        (fun (paths : ExtTreeSet String) path => do
          ChangedSetWork.step maximum
          return if isGitPath path then paths.insert path else paths) ∅)
        ((pathsOf changedSet.changes).map fun _ => 1).sum (changedPathsOf changedSet.changes) :=
      Costs.foldlM fun paths path _ => Costs.step_pure _
    have hsum : ((pathsOf changedSet.changes).map fun _ => 1).sum =
        (pathsOf changedSet.changes).length := by simp
    rwa [hsum] at h
  have hevidence (index : PathIndex) : MappingCosts maximum
      (snapshot.evidence.foldlM (indexEvidence maximum (changedPathsOf changedSet.changes))
        ⟨index, ∅, ∅⟩)
      (snapshot.evidence.map (evidenceCost (changedPathsOf changedSet.changes))).sum
      (snapshot.evidence.foldl (addEvidence (changedPathsOf changedSet.changes)) ⟨index, ∅, ∅⟩) :=
    Costs.foldlM fun _ _ _ => indexEvidence_costs
  simp only [foldl_addEvidence] at hevidence
  have hindex : MappingCosts maximum (pathNodeIndex maximum snapshot changedSet)
      ((pathsOf changedSet.changes).length +
        ((restrict (changedPathsOf changedSet.changes) (nodeEntries snapshot)).length +
        ((snapshot.evidence.map (evidenceCost (changedPathsOf changedSet.changes))).sum +
        (((listEntries ((ownersOf (changedPathsOf changedSet.changes) "site"
          snapshot.evidence).foldl appendUnder ∅)).flatMap (siteEntries snapshot)).length +
        ((listEntries ((ownersOf (changedPathsOf changedSet.changes) "edge"
          snapshot.evidence).foldl appendUnder ∅)).flatMap (edgeEntries snapshot)).length))))
      (((listEntries ((ownersOf (changedPathsOf changedSet.changes) "edge"
        snapshot.evidence).foldl appendUnder ∅)).flatMap (edgeEntries snapshot)).foldl addNode
      (((listEntries ((ownersOf (changedPathsOf changedSet.changes) "site"
        snapshot.evidence).foldl appendUnder ∅)).flatMap (siteEntries snapshot)).foldl addNode
      (((ownersOf (changedPathsOf changedSet.changes) "node" snapshot.evidence).map
        Prod.swap).foldl addNode
      ((restrict (changedPathsOf changedSet.changes) (nodeEntries snapshot)).foldl addNode ∅)))) :=
    Costs.bind hpaths (Costs.bind nodes_costs (Costs.bind (hevidence _)
      (Costs.bind sites_costs edges_costs)))
  rw [hsites.length_eq, hedges.length_eq] at hindex
  refine ⟨_, hindex, fun path nodeId => ?_⟩
  rw [mem_foldl_addNode, mem_foldl_addNode, mem_foldl_addNode, mem_foldl_addNode,
    hsites.mem_iff, hedges.mem_iff, ExtTreeMap.getElem?_empty, Option.getD_none,
    or_iff_right ExtTreeSet.not_mem_empty, changedEntries, List.mem_append, List.mem_append,
    List.mem_append, or_assoc, or_assoc]

theorem mem_ownersOf {ownerType : String} {evidence : List EvidenceRecord} {owner : String × String} :
    owner ∈ ownersOf changed ownerType evidence ↔ ∃ e ∈ evidence, e.path ∈ changed ∧
      e.ownerType = ownerType ∧ (e.ownerId, e.path) = owner := by
  unfold ownersOf
  simp only [List.mem_map, List.mem_filter, decide_eq_true_eq]
  constructor
  · rintro ⟨e, ⟨he, hpath, htype⟩, howner⟩
    exact ⟨e, he, hpath, htype, howner⟩
  · rintro ⟨e, he, hpath, htype, howner⟩
    exact ⟨e, ⟨he, hpath, htype⟩, howner⟩

theorem path_of_mem_siteEntries {owner entry : String × String}
    (h : entry ∈ siteEntries snapshot owner) : entry.1 = owner.2 := by
  unfold siteEntries at h
  cases hfound : (indexed SiteRecord.id snapshot.sites)[owner.1]? with
  | none =>
    rw [hfound] at h
    cases h
  | some site =>
    rw [hfound] at h
    rw [List.mem_singleton.1 h]

theorem path_of_mem_edgeEntries {owner entry : String × String}
    (h : entry ∈ edgeEntries snapshot owner) : entry.1 = owner.2 := by
  unfold edgeEntries at h
  cases hfound : (indexed EdgeRecord.id snapshot.edges)[owner.1]? with
  | none =>
    rw [hfound] at h
    cases h
  | some edge =>
    rw [hfound] at h
    rcases List.mem_cons.1 h with rfl | h
    · rfl
    · split_ifs at h
      · rw [List.mem_singleton.1 h]
      · cases h

theorem path_of_mem_evidenceEntries {evidence : EvidenceRecord} {entry : String × String}
    (h : entry ∈ evidenceEntries snapshot evidence) : entry.1 = evidence.path := by
  unfold evidenceEntries at h
  split_ifs at h
  · rw [List.mem_singleton.1 h]
  · exact path_of_mem_siteEntries h
  · exact path_of_mem_edgeEntries h
  · cases h

/-- **Restricting the index to paths neither loses a node of theirs nor adds one.** -/
theorem mem_changedEntries {path nodeId : String} :
    (path, nodeId) ∈ changedEntries snapshot changed ↔
      path ∈ changed ∧ (path, nodeId) ∈ fullEntries snapshot := by
  unfold changedEntries fullEntries restrict
  simp only [List.mem_append, List.mem_filter, ExtTreeSet.contains_iff_mem, List.mem_map,
    List.mem_flatMap, mem_ownersOf]
  constructor
  · rintro (⟨hentry, hpath⟩ | ⟨owner, ⟨e, he, hpath, htype, rfl⟩, hswap⟩ |
      ⟨owner, ⟨e, he, hpath, htype, rfl⟩, hentry⟩ | ⟨owner, ⟨e, he, hpath, htype, rfl⟩, hentry⟩)
    · exact ⟨hpath, Or.inl hentry⟩
    · obtain ⟨rfl, rfl⟩ := Prod.mk.inj hswap
      refine ⟨hpath, Or.inr ⟨e, he, ?_⟩⟩
      rw [evidenceEntries, if_pos htype]
      exact List.mem_singleton_self _
    · have hsame : path = e.path := path_of_mem_siteEntries hentry
      refine ⟨hsame ▸ hpath, Or.inr ⟨e, he, ?_⟩⟩
      rwa [evidenceEntries, htype, if_neg (by decide), if_pos rfl]
    · have hsame : path = e.path := path_of_mem_edgeEntries hentry
      refine ⟨hsame ▸ hpath, Or.inr ⟨e, he, ?_⟩⟩
      rwa [evidenceEntries, htype, if_neg (by decide), if_neg (by decide), if_pos rfl]
  · rintro ⟨hpath, hentry | ⟨e, he, hentry⟩⟩
    · exact Or.inl ⟨hentry, hpath⟩
    · have hsame : path = e.path := path_of_mem_evidenceEntries hentry
      rw [hsame] at hpath
      unfold evidenceEntries at hentry
      split_ifs at hentry with hnode hsite hedge
      · obtain ⟨rfl, rfl⟩ := Prod.mk.inj (List.mem_singleton.1 hentry)
        exact Or.inr (Or.inl ⟨_, ⟨e, he, hpath, hnode, rfl⟩, rfl⟩)
      · exact Or.inr (Or.inr (Or.inl ⟨_, ⟨e, he, hpath, hsite, rfl⟩, hentry⟩))
      · exact Or.inr (Or.inr (Or.inr ⟨_, ⟨e, he, hpath, hedge, rfl⟩, hentry⟩))
      · cases hentry

/-! ### Fewer paths take less work -/

theorem ownersOf_sublist {changed' : ExtTreeSet String} (h : ∀ path ∈ changed, path ∈ changed')
    (ownerType : String) (evidence : List EvidenceRecord) :
    (ownersOf changed ownerType evidence).Sublist (ownersOf changed' ownerType evidence) := by
  refine List.Sublist.map _ (List.monotone_filter_right evidence fun e he => ?_)
  rw [decide_eq_true_eq] at he ⊢
  exact ⟨h _ he.1, he.2⟩

theorem indexCost_mono {changed' : ExtTreeSet String} (h : ∀ path ∈ changed, path ∈ changed') :
    indexCost snapshot changed ≤ indexCost snapshot changed' := by
  refine Nat.add_le_add ?_ (Nat.add_le_add ?_ (Nat.add_le_add ?_ ?_))
  · refine (List.monotone_filter_right _ fun entry hentry => ?_).length_le
    rw [ExtTreeSet.contains_iff_mem] at hentry ⊢
    exact h _ hentry
  · refine List.sum_le_sum fun e _ => ?_
    unfold evidenceCost
    by_cases hpath : e.path ∈ changed
    · rw [if_pos hpath, if_pos (h _ hpath)]
    · rw [if_neg hpath]
      exact Nat.zero_le _
  · exact ((ownersOf_sublist h "site" snapshot.evidence).flatMap _).length_le
  · exact ((ownersOf_sublist h "edge" snapshot.evidence).flatMap _).length_le

end Index

/-! ### The work of the mapping -/

section Mapping

variable {snapshot : GraphSnapshot} {maximum : Nat} {index : PathIndex}

theorem sum_const (n : Nat) {α : Type} (l : List α) : (l.map fun _ => n).sum = n * l.length := by
  induction l with
  | nil => rfl
  | cons a l ih =>
    rw [List.map_cons, List.sum_cons, ih, List.length_cons, Nat.mul_succ, Nat.add_comm]

/-- A set with more nodes. -/
def insertIds (ids : ExtTreeSet String) (l : List String) : ExtTreeSet String :=
  l.foldl (fun ids nodeId => ids.insert nodeId) ids

theorem copyChangedNodeIds_costs {ids : Option (ExtTreeSet String)} {correlated : ExtTreeSet String} :
    MappingCosts maximum (copyChangedNodeIds maximum ids correlated)
      (2 * (ids.elim [] ExtTreeSet.toList).length)
      (ids.elim [] ExtTreeSet.toList,
        insertIds correlated (ids.elim [] ExtTreeSet.toList)) := by
  have hcopied (l copied : List String) (correlated : ExtTreeSet String) :
      l.foldl (fun state nodeId => (state.1 ++ [nodeId], state.2.insert nodeId))
        (copied, correlated) = (copied ++ l, insertIds correlated l) := by
    induction l generalizing copied correlated with
    | nil => rw [List.foldl_nil, List.append_nil, insertIds, List.foldl_nil]
    | cons nodeId l ih =>
      rw [List.foldl_cons, ih, List.append_assoc]
      rfl
  have h := hcopied (ids.elim [] ExtTreeSet.toList) [] correlated
  rw [List.nil_append] at h
  rw [← h, ← sum_const]
  exact Costs.foldlM fun state nodeId _ => (Costs.step_pure _).stepped

/-- A loop that copies a list takes a step for each item. -/
theorem copies_costs (l : List String) :
    MappingCosts maximum (l.mapM fun item => do
      ChangedSetWork.step maximum
      return item) l.length l := by
  have h : MappingCosts maximum (l.mapM fun item => do
      ChangedSetWork.step maximum
      return item) (l.map fun _ => 1).sum (l.map id) := Costs.mapM fun item _ => Costs.step_pure item
  rwa [sum_const, Nat.one_mul, List.map_id] at h

theorem mem_insertIds {l : List String} {ids : ExtTreeSet String} {nodeId : String} :
    nodeId ∈ insertIds ids l ↔ nodeId ∈ ids ∨ nodeId ∈ l := by
  induction l generalizing ids with
  | nil => simp [insertIds]
  | cons first l ih =>
    rw [insertIds, List.foldl_cons, ← insertIds, ih, OrderedMap.mem_insert, List.mem_cons]
    tauto

/-- The set that two lists have been added to, in order. -/
theorem toList_correlated (l l' : List String) :
    (insertIds (insertIds ∅ l) l').toList = exact id (l ++ l') := by
  refine eq_of_sorted (ExtTreeSet.ordered_toList.imp compare_lt_iff_lt.1) (exact_strict _)
    fun nodeId => ?_
  rw [ExtTreeSet.mem_toList, mem_insertIds, mem_insertIds,
    or_iff_right ExtTreeSet.not_mem_empty, mem_exact Function.injective_id, List.mem_append]

/-- The steps that the mapping of a change takes. -/
def mappingCost (mapping : ChangedNodeMapping) : Nat :=
  1 + (2 * mapping.oldNodeIds.length + (2 * mapping.newNodeIds.length +
    (mapping.correlatedNodeIds.length + mapping.change.sources.length)))

theorem mapChange_costs {change : GitChange} :
    MappingCosts maximum (mapChange maximum index change) (mappingCost (mappingOf index change))
      (mappingOf index change) := by
  have h : MappingCosts maximum (mapChange maximum index change)
      (1 + (2 * (indexedNodeIds index change.oldPath).length +
        (2 * (indexedNodeIds index change.newPath).length +
        ((insertIds (insertIds ∅ (indexedNodeIds index change.oldPath))
          (indexedNodeIds index change.newPath)).toList.length + (change.sources.length + 0)))))
      { change := change
        oldNodeIds := indexedNodeIds index change.oldPath
        newNodeIds := indexedNodeIds index change.newPath
        correlatedNodeIds := (insertIds (insertIds ∅ (indexedNodeIds index change.oldPath))
          (indexedNodeIds index change.newPath)).toList } :=
    Costs.bind Costs.step (Costs.bind copyChangedNodeIds_costs (Costs.bind copyChangedNodeIds_costs
      (Costs.bind (copies_costs _) (Costs.bind (copies_costs _) (Costs.pure _)))))
  rwa [toList_correlated] at h

/-- The steps of the whole mapping. -/
def changesCost (snapshot : GraphSnapshot) (changes : List GitChange) : Nat :=
  (pathsOf changes).length + indexCost snapshot (changedPathsOf changes) +
    (changes.map fun change => mappingCost (mappingOf (fullPathNodeIndex snapshot) change)).sum

/-- The index of the changed paths and the index of all paths have the same nodes for them. -/
theorem mem_index_iff {changes : List GitChange} (h : ∀ path nodeId : String,
      nodeId ∈ index[path]?.getD ∅ ↔ (path, nodeId) ∈ changedEntries snapshot (changedPathsOf changes))
    {change : GitChange} (hchange : change ∈ changes) {path : String}
    (hpath : path ∈ change.oldPath ∨ path ∈ change.newPath) (nodeId : String) :
    nodeId ∈ index[path]?.getD ∅ ↔ nodeId ∈ (fullPathNodeIndex snapshot)[path]?.getD ∅ := by
  have hlisted : path ∈ pathsOf changes := by
    refine List.mem_flatMap.2 ⟨change, hchange, List.mem_append.2 ?_⟩
    rwa [Option.mem_toList, Option.mem_toList]
  rw [h, mem_changedEntries, mem_fullPathNodeIndex, mem_changedPathsOf, and_iff_left hlisted,
    mem_fullEntries]

/-- **Each change is mapped by the index of all paths.** -/
theorem mapChanges_costs {changedSet : GitChangedSet} :
    MappingCosts maximum (do
        let index ← pathNodeIndex maximum snapshot changedSet
        changedSet.changes.mapM (mapChange maximum index))
      (changesCost snapshot changedSet.changes)
      (changedSet.changes.map (mappingOf (fullPathNodeIndex snapshot))) := by
  obtain ⟨index, hindex, hmem⟩ := @pathNodeIndex_costs snapshot maximum changedSet
  have hsame : ∀ change ∈ changedSet.changes,
      mappingOf (fullPathNodeIndex snapshot) change = mappingOf index change := fun change hchange =>
    mappingOf_congr fun path hpath nodeId => (mem_index_iff hmem hchange hpath nodeId).symm
  have hcosts : (changedSet.changes.map fun change =>
      mappingCost (mappingOf (fullPathNodeIndex snapshot) change)) =
        changedSet.changes.map fun change => mappingCost (mappingOf index change) :=
    List.map_congr_left fun change hchange => by rw [hsame change hchange]
  rw [changesCost, hcosts, List.map_congr_left hsame]
  exact hindex.bind (Costs.mapM fun change _ => mapChange_costs)

/-- One of the changes alone takes no more steps. -/
theorem changesCost_singleton_le {changes : List GitChange} {change : GitChange}
    (h : change ∈ changes) : changesCost snapshot [change] ≤ changesCost snapshot changes := by
  obtain ⟨before, behind, rfl⟩ := List.append_of_mem h
  refine Nat.add_le_add (Nat.add_le_add ?_ (indexCost_mono fun path hpath => ?_)) ?_
  · simp only [pathsOf, List.flatMap_append, List.flatMap_cons, List.flatMap_nil, List.append_nil,
      List.length_append]
    omega
  · rw [mem_changedPathsOf] at hpath ⊢
    refine ⟨hpath.1, ?_⟩
    have hlisted := hpath.2
    simp only [pathsOf, List.flatMap_append, List.flatMap_cons, List.flatMap_nil, List.append_nil,
      List.mem_append] at hlisted ⊢
    exact Or.inr (Or.inl hlisted)
  · simp only [List.map_append, List.map_cons, List.map_nil, List.sum_append, List.sum_cons,
      List.sum_nil]
    omega

end Mapping

/-! ### The mapping -/

/-- What a mapping says about its change. -/
structure MappingExact (snapshot : GraphSnapshot) (change : GitChange) (mapping : ChangedNodeMapping) :
    Prop where
  unchanged : mapping.change = change
  oldNodeIds : ∀ nodeId, nodeId ∈ mapping.oldNodeIds ↔
    ∃ path ∈ change.oldPath, isGitPath path = true ∧ BelongsTo snapshot path nodeId
  newNodeIds : ∀ nodeId, nodeId ∈ mapping.newNodeIds ↔
    ∃ path ∈ change.newPath, isGitPath path = true ∧ BelongsTo snapshot path nodeId
  correlatedNodeIds : ∀ nodeId, nodeId ∈ mapping.correlatedNodeIds ↔
    nodeId ∈ mapping.oldNodeIds ∨ nodeId ∈ mapping.newNodeIds
  sorted : mapping.oldNodeIds.Pairwise (· < ·) ∧ mapping.newNodeIds.Pairwise (· < ·) ∧
    mapping.correlatedNodeIds.Pairwise (· < ·)

theorem mappingOf_exact {snapshot : GraphSnapshot} {change : GitChange} :
    MappingExact snapshot change (mappingOf (fullPathNodeIndex snapshot) change) where
  unchanged := rfl
  oldNodeIds nodeId := by
    rw [mappingOf, mem_indexedNodeIds]
    simp only [mem_fullPathNodeIndex]
  newNodeIds nodeId := by
    rw [mappingOf, mem_indexedNodeIds]
    simp only [mem_fullPathNodeIndex]
  correlatedNodeIds nodeId := by
    rw [mappingOf, mem_exact Function.injective_id, List.mem_append]
  sorted := ⟨indexedNodeIds_sorted, indexedNodeIds_sorted, exact_strict _⟩

/-- **Each change is mapped as if it were the only one, and as the index of all paths maps it.** -/
theorem mapChangedSet_exact (snapshot : GraphSnapshot) (changedSet : GitChangedSet) (maximum : Nat)
    (mappings : List ChangedNodeMapping)
    (h : mapChangedSetWithLimit snapshot changedSet maximum = .ok mappings) :
    mappings = changedSet.changes.map (mappingOf (fullPathNodeIndex snapshot)) ∧
    ∀ (i : Nat) (change : GitChange), changedSet.changes[i]? = some change →
      ∃ mapping, mappings[i]? = some mapping ∧
        mapChangedSetWithLimit snapshot { changedSet with changes := [change] } maximum =
          .ok [mapping] ∧
        mapping.oldNodeIds = indexedNodeIds (fullPathNodeIndex snapshot) change.oldPath ∧
        mapping.newNodeIds = indexedNodeIds (fullPathNodeIndex snapshot) change.newPath ∧
        MappingExact snapshot change mapping := by
  have hall : mappings = changedSet.changes.map (mappingOf (fullPathNodeIndex snapshot)) :=
    (mapChanges_costs.run_ok mapChanges_costs le_rfl h).1
  refine ⟨hall, fun i change hchange => ⟨mappingOf (fullPathNodeIndex snapshot) change, ?_, ?_, rfl, rfl,
    mappingOf_exact⟩⟩
  · rw [hall, List.getElem?_map, hchange, Option.map_some]
  · have hcheaper := @changesCost_singleton_le snapshot _ _ (List.mem_of_getElem? hchange)
    exact ((@mapChanges_costs snapshot maximum { changedSet with changes := [change] }).run_ok
      mapChanges_costs hcheaper h).2

namespace MappingSample

/-- One of the three files has been renamed and another one modified. -/
def changedSet : GitChangedSet :=
  ⟨"main", "main", "0", "1", "", [⟨"renamed", none, some "b.rs", some "c.rs", []⟩,
    ⟨"modified", none, some "a.rs", some "a.rs", ["committed"]⟩]⟩

def mappings : Except ImpactError (List ChangedNodeMapping) :=
  mapChangedSetWithLimit Sample.snapshot changedSet 100

theorem mappings_ids : mappings.toOption.map (List.map fun mapping =>
    (mapping.oldNodeIds, mapping.newNodeIds, mapping.correlatedNodeIds)) =
      some [(["b"], ["c"], ["b", "c"]), (["a"], ["a"], ["a"])] := by
  decide +kernel

end MappingSample

open MappingSample in
theorem mapChangedSet_exact_renamed : ∃ found mapping, mappings = .ok found ∧
    found[0]? = some mapping ∧ mapChangedSetWithLimit Sample.snapshot
      { changedSet with changes := [⟨"renamed", none, some "b.rs", some "c.rs", []⟩] } 100 =
        .ok [mapping] := by
  have hids := mappings_ids
  cases h : mappings with
  | error e =>
    rw [h] at hids
    cases hids
  | ok found =>
    obtain ⟨mapping, hmapping, halone, -⟩ := (mapChangedSet_exact Sample.snapshot changedSet 100 found
      h).2 0 ⟨"renamed", none, some "b.rs", some "c.rs", []⟩ rfl
    exact ⟨found, mapping, rfl, hmapping, halone⟩

end Impact
