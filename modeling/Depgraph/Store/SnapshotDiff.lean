import Depgraph.Store.RenameMirror

/-!
# Differences of graph snapshots

`diff_graph_snapshots` of two snapshots whose records have distinct identities

* succeeds, and applying it to the first snapshot gives the second (`Lossless`);
* is the mirror image of the difference in the other direction (`MirrorOf`);
* does not depend on the order of the records (`diffGraphSnapshots_congr`).
-/

namespace Store

open Json Protocol Fallible SortDedup OrderedMap Std

structure GraphSnapshotDiff where
  schemaVersion : String
  fromSnapshotId : String
  toSnapshotId : String
  nodes : RecordDiff NodeRecord
  sites : RecordDiff SiteRecord
  edges : RecordDiff EdgeRecord
  evidence : RecordDiff EvidenceRecord
  profiles : RecordDiff ProfileRecord
  coverage : Option (ChangedRecord CoverageRecord)
  renames : List NodeRename
  renameCandidates : List NodeRename

def snapshotDiffSchemaVersion : String := "1.0"

/-- The change of the coverage. -/
def diffCoverage (before after : CoverageRecord) : Option (ChangedRecord CoverageRecord) :=
  if before == after then none
  else some ⟨"coverage", changedFields before after, before, after⟩

def diffGraphSnapshots (F : FloatText) (fromSnapshotId toSnapshotId : String)
    (from' to' : GraphSnapshot) : Except String GraphSnapshotDiff := do
  let nodes ← diffRecords NodeRecord.id from'.nodes to'.nodes
  let detected ← detectNodeRenames F nodes (nodeSourceEvidence from') (nodeSourceEvidence to')
    (sourceFileContentHashes from') (sourceFileContentHashes to')
  let sites ← diffRecords SiteRecord.id from'.sites to'.sites
  let edges ← diffRecords EdgeRecord.id from'.edges to'.edges
  let evidence ← diffRecords evidenceIdentity from'.evidence to'.evidence
  let profiles ← diffRecords ProfileRecord.id from'.profiles to'.profiles
  return {
    schemaVersion := snapshotDiffSchemaVersion
    fromSnapshotId
    toSnapshotId
    nodes := detected.nodes
    sites
    edges
    evidence
    profiles
    coverage := diffCoverage from'.coverage to'.coverage
    renames := detected.renames
    renameCandidates := detected.candidates }

/-- The records of a snapshot have distinct identities. -/
structure GraphSnapshot.DistinctIdentities (s : GraphSnapshot) : Prop where
  profiles : (s.profiles.map ProfileRecord.id).Nodup
  nodes : (s.nodes.map NodeRecord.id).Nodup
  sites : (s.sites.map SiteRecord.id).Nodup
  edges : (s.edges.map EdgeRecord.id).Nodup
  evidence : (s.evidence.map evidenceIdentity).Nodup

/-! ### Nodes -/

/-- What is left of a list of nodes and the nodes that were taken out make up the list. -/
theorem rest_append_taken {nodes : List NodeRecord} (hids : (nodes.map NodeRecord.id).Nodup)
    {renames : List NodeRename} {node : NodeRename → NodeRecord} {id : NodeRename → String}
    (hnode : ∀ r ∈ renames, node r ∈ nodes ∧ id r = (node r).id)
    (hnodup : (renames.map id).Nodup) :
    (nodes.filter (fun n => !(renames.map id).contains n.id) ++ renames.map node).Perm nodes := by
  have htaken : (renames.map node).Perm
      (nodes.filter fun n => !!(renames.map id).contains n.id) := by
    have hmap : (renames.map node).map NodeRecord.id = renames.map id := by
      rw [List.map_map]
      exact List.map_congr_left fun r hr => (hnode r hr).2.symm
    refine (List.perm_ext_iff_of_nodup (List.Nodup.of_map NodeRecord.id (hmap ▸ hnodup))
      (hids.of_map.filter _)).2 fun n => ?_
    rw [List.mem_map, List.mem_filter, Bool.not_not, List.contains_iff_mem, List.mem_map]
    constructor
    · rintro ⟨r, hr, rfl⟩
      exact ⟨(hnode r hr).1, r, hr, (hnode r hr).2⟩
    · rintro ⟨hn, r, hr, hid⟩
      exact ⟨r, hr, eq_of_identity hids (hnode r hr).1 hn ((hnode r hr).2.symm.trans hid)⟩
  exact (htaken.append_left _).trans (List.filter_append_perm _ nodes)

/-- The difference of the nodes with the renames undone. -/
def RecordDiff.withRenames (d : RecordDiff NodeRecord) (renames : List NodeRename) :
    RecordDiff NodeRecord where
  added := d.added ++ renames.map NodeRename.after
  removed := d.removed ++ renames.map NodeRename.before
  changed := d.changed

section Detect

variable {F : FloatText} {nodes : RecordDiff NodeRecord}
  {fromRecords toRecords : ExtTreeMap String (List EvidenceRecord)}
  {fromHashes toHashes : ExtTreeMap String String}

theorem renameSides_mirror :
    renameSides nodes.mirror toRecords fromRecords toHashes fromHashes =
      (renameSides nodes fromRecords toRecords fromHashes toHashes).swap :=
  rfl

theorem renameSides_distinct (hremoved : (nodes.removed.map NodeRecord.id).Nodup) :
    (renameSides nodes fromRecords toRecords fromHashes toHashes).removed.DistinctIds := by
  rw [RenameSide.DistinctIds, renameSides, List.map_map]
  exact hremoved

theorem renameSides_distinct_added (hadded : (nodes.added.map NodeRecord.id).Nodup) :
    (renameSides nodes fromRecords toRecords fromHashes toHashes).added.DistinctIds := by
  rw [RenameSide.DistinctIds, renameSides, List.map_map]
  exact hadded

/-- What `detect_node_renames` returns. -/
def detected (F : FloatText) (nodes : RecordDiff NodeRecord)
    (fromRecords toRecords : ExtTreeMap String (List EvidenceRecord))
    (fromHashes toHashes : ExtTreeMap String String) : DetectedRenames :=
  let records := records F (renameSides nodes fromRecords toRecords fromHashes toHashes)
  ⟨{ nodes with
      removed := nodes.removed.filter fun node =>
        !((promoted records).map NodeRename.oldId).contains node.id
      added := nodes.added.filter fun node =>
        !((promoted records).map NodeRename.newId).contains node.id },
    promoted records, unpromoted records⟩

theorem detectNodeRenames_eq :
    detectNodeRenames F nodes fromRecords toRecords fromHashes toHashes =
      .ok (detected F nodes fromRecords toRecords fromHashes toHashes) :=
  bind_of_ok renameRecords_eq _

/-- A rename takes its nodes from the two sides. -/
theorem mem_promoted {r : NodeRename}
    (h : r ∈ promoted (records F (renameSides nodes fromRecords toRecords fromHashes toHashes))) :
    (r.before ∈ nodes.removed ∧ r.oldId = r.before.id) ∧
      r.after ∈ nodes.added ∧ r.newId = r.after.id := by
  obtain ⟨record, hrecord, rfl⟩ := List.mem_map.1 h
  obtain ⟨pair, -, reasons, strength, ambiguous, rfl⟩ := mem_records (List.mem_filter.1 hrecord).1
  obtain ⟨before, hbefore, heq⟩ := List.mem_map.1 (List.get_mem (renameSides nodes fromRecords
    toRecords fromHashes toHashes).removed (ofLex pair).1)
  obtain ⟨after, hafter, heq'⟩ := List.mem_map.1 (List.get_mem (renameSides nodes fromRecords
    toRecords fromHashes toHashes).added (ofLex pair).2)
  refine ⟨⟨?_, rfl⟩, ?_, rfl⟩
  · simp only [renameRecord, ← heq, hbefore]
  · simp only [renameRecord, ← heq', hafter]

/-- **Undoing the renames gives the difference of the records.** -/
theorem detected_removed (hremoved : (nodes.removed.map NodeRecord.id).Nodup) :
    ((detected F nodes fromRecords toRecords fromHashes toHashes).nodes.withRenames
      (detected F nodes fromRecords toRecords fromHashes toHashes).renames).removed.Perm
        nodes.removed :=
  rest_append_taken hremoved (fun _ hr => (mem_promoted hr).1)
    (promoted_oldId_nodup (renameSides_distinct hremoved))

theorem detected_added (hadded : (nodes.added.map NodeRecord.id).Nodup) :
    ((detected F nodes fromRecords toRecords fromHashes toHashes).nodes.withRenames
      (detected F nodes fromRecords toRecords fromHashes toHashes).renames).added.Perm
        nodes.added :=
  rest_append_taken hadded (fun _ hr => (mem_promoted hr).2)
    (promoted_newId_nodup (renameSides_distinct_added hadded))

/-- **The renames of the other direction are the mirror images.** -/
theorem detected_renames_mirror :
    (detected F nodes.mirror toRecords fromRecords toHashes fromHashes).renames.Perm
      ((detected F nodes fromRecords toRecords fromHashes toHashes).renames.map
        NodeRename.mirror) := by
  simp only [detected, renameSides_mirror, ← promoted_mirror]
  exact (records_swap.filter _).map _

theorem detected_candidates_mirror :
    (detected F nodes.mirror toRecords fromRecords toHashes fromHashes).candidates.Perm
      ((detected F nodes fromRecords toRecords fromHashes toHashes).candidates.map
        NodeRename.mirror) := by
  simp only [detected, renameSides_mirror, ← unpromoted_mirror]
  exact (records_swap.filter _).map _

theorem detected_nodes_mirror :
    (detected F nodes.mirror toRecords fromRecords toHashes fromHashes).nodes =
      (detected F nodes fromRecords toRecords fromHashes toHashes).nodes.mirror := by
  have hrenames : (detected F nodes.mirror toRecords fromRecords toHashes fromHashes).renames.Perm
      ((detected F nodes fromRecords toRecords fromHashes toHashes).renames.map
        NodeRename.mirror) := detected_renames_mirror
  have hold := hrenames.map NodeRename.oldId
  have hnew := hrenames.map NodeRename.newId
  rw [List.map_map] at hold hnew
  refine RecordDiff.mk.injEq .. ▸ ⟨?_, ?_, rfl⟩
  · exact List.filter_congr fun node _ => congrArg (! ·) (hnew.contains_eq (a := node.id))
  · exact List.filter_congr fun node _ => congrArg (! ·) (hold.contains_eq (a := node.id))

end Detect

/-! ### Applying a difference -/

/-- A difference with the same removed, added and changed records compares the same lists. -/
theorem Compares.of_perm {T : Type} [SnapshotRecord T] {identity : T → String} {from' to' : List T}
    {d d' : RecordDiff T} (h : Compares identity from' to' d) (hremoved : d'.removed.Perm d.removed)
    (hadded : d'.added.Perm d.added) (hchanged : d'.changed = d.changed) :
    Compares identity from' to' d' where
  mem_removed r := hremoved.mem_iff.trans (h.mem_removed r)
  mem_added r := hadded.mem_iff.trans (h.mem_added r)
  mem_changed c := hchanged ▸ h.mem_changed c
  removed_nodup := (hremoved.map identity).nodup_iff.2 h.removed_nodup
  added_nodup := (hadded.map identity).nodup_iff.2 h.added_nodup
  changed_nodup := hchanged ▸ h.changed_nodup

/-- An identity is removed, added or changed, and only one of these. -/
theorem Compares.ids_nodup {T : Type} [SnapshotRecord T] {identity : T → String}
    {from' to' : List T} {d : RecordDiff T} (h : Compares identity from' to' d) :
    (d.removed.map identity ++ d.added.map identity ++ d.changed.map ChangedRecord.id).Nodup := by
  have hchanged {id : String} (hid : id ∈ d.changed.map ChangedRecord.id) :
      (∃ before ∈ from', identity before = id) ∧ ∃ after ∈ to', identity after = id := by
    obtain ⟨c, hc, rfl⟩ := List.mem_map.1 hid
    obtain ⟨before, hbefore, after, hafter, hsame, -, rfl⟩ := (h.mem_changed c).1 hc
    exact ⟨⟨before, hbefore, rfl⟩, after, hafter, hsame.symm⟩
  refine List.nodup_append.2 ⟨List.nodup_append.2 ⟨h.removed_nodup, h.added_nodup, ?_⟩,
    h.changed_nodup, ?_⟩
  · rintro _ hremoved _ hadded rfl
    obtain ⟨r, hr, rfl⟩ := List.mem_map.1 hremoved
    obtain ⟨s, hs, hid⟩ := List.mem_map.1 hadded
    exact ((h.mem_removed r).1 hr).2 s ((h.mem_added s).1 hs).1 hid
  · rintro _ hid _ hmem rfl
    obtain ⟨⟨before, hbefore, hsame⟩, after, hafter, hsame'⟩ := hchanged hmem
    rcases List.mem_append.1 hid with hid | hid
    · obtain ⟨r, hr, rfl⟩ := List.mem_map.1 hid
      exact ((h.mem_removed r).1 hr).2 after hafter hsame'
    · obtain ⟨s, hs, rfl⟩ := List.mem_map.1 hid
      exact ((h.mem_added s).1 hs).2 before hbefore hsame

/-! ### The order of the records -/

/-- The same snapshot with its records in another order. -/
structure GraphSnapshot.Reordered (s s' : GraphSnapshot) : Prop where
  profiles : s.profiles.Perm s'.profiles
  nodes : s.nodes.Perm s'.nodes
  sites : s.sites.Perm s'.sites
  edges : s.edges.Perm s'.edges
  evidence : s.evidence.Perm s'.evidence
  coverage : s.coverage = s'.coverage

section Reorder

variable {s s' : GraphSnapshot}

theorem insert_comm {K V : Type} [Ord K] [TransOrd K] [LawfulEqOrd K] [DecidableEq K]
    (m : ExtTreeMap K V) {k k' : K} (hne : k ≠ k') (v v' : V) :
    (m.insert k v).insert k' v' = (m.insert k' v').insert k v := by
  refine ExtTreeMap.ext_getElem? fun key => ?_
  simp only [getElem?_insert]
  split_ifs with h h'
  · exact absurd (h'.symm.trans h) hne
  all_goals rfl

theorem ownerTargets_congr (h : s.DistinctIdentities) (horder : s.Reordered s') :
    s.edges.foldl noteOwner ∅ = s'.edges.foldl noteOwner ∅ := by
  refine horder.edges.foldl_eq' (fun edge hedge edge' hedge' targets => ?_) ∅
  by_cases heq : edge = edge'
  · rw [heq]
  · have hne : toLex ("edge", edge.id) ≠ toLex ("edge", edge'.id) := fun hkey =>
      heq (eq_of_identity h.edges hedge hedge' (Prod.mk.inj (congrArg ofLex hkey)).2)
    unfold noteOwner
    split_ifs
    · exact insert_comm _ hne _ _
    all_goals rfl

/-- Sorting the groups makes them independent of the order. -/
theorem nodeSourceEvidence_congr (h : s.DistinctIdentities) (horder : s.Reordered s') :
    nodeSourceEvidence s = nodeSourceEvidence s' := by
  unfold nodeSourceEvidence
  rw [ownerTargets_congr h horder]
  refine ExtTreeMap.ext_getElem? fun k => ?_
  rw [ExtTreeMap.getElem?_map, ExtTreeMap.getElem?_map, getElem?_groupBy, getElem?_groupBy]
  have hgroup := horder.evidence.filter fun record =>
    (s'.edges.foldl noteOwner ∅)[toLex (record.ownerType, record.ownerId)]? = some k
  have hsorted := sortByKey_congr evidenceIdentity
    (h.evidence.sublist (List.filter_sublist.map evidenceIdentity)) hgroup
  unfold inhabitedList
  by_cases hnil : (s.evidence.filter fun record =>
    (s'.edges.foldl noteOwner ∅)[toLex (record.ownerType, record.ownerId)]? = some k) = []
  · rw [if_pos hnil, if_pos (List.nil_perm.1 (hnil ▸ hgroup))]
  · rw [if_neg hnil, if_neg (mt (fun hnil' => List.perm_nil.1 (hgroup.trans (.of_eq hnil'))) hnil),
      Option.map_some, hsorted, Option.map_some]

theorem mergeHash_comm (a b : String) (existing : Option (Option String)) :
    mergeHash b (mergeHash a existing) = mergeHash a (mergeHash b existing) := by
  rcases existing with _ | _ | c
  · by_cases hab : a = b
    · rw [hab]
    · simp [mergeHash, hab, Ne.symm hab]
  · rfl
  · by_cases ha : c = a <;> by_cases hb : c = b <;> simp [mergeHash, ha, hb]

theorem noteHash_comm (byPath : ExtTreeMap String (Option String)) (a b : String × String) :
    noteHash (noteHash byPath a) b = noteHash (noteHash byPath b) a := by
  refine ExtTreeMap.ext_getElem? fun path => ?_
  obtain ⟨p, hash⟩ := a
  obtain ⟨q, hash'⟩ := b
  simp only [noteHash, getElem?_alter]
  by_cases hpq : p = q
  · subst hpq
    by_cases hpath : path = p
    · simp only [hpath, if_true, mergeHash_comm hash hash']
    · simp only [hpath, if_false]
  · by_cases hp : path = p
    · simp only [hp, hpq, if_true, if_false]
    · simp only [hp, if_false]
      by_cases hq : path = q
      · simp only [hq, Ne.symm hpq, if_true, if_false]
      · simp only [hq, if_false]

theorem sourceFileContentHashes_congr (horder : s.Reordered s') :
    sourceFileContentHashes s = sourceFileContentHashes s' := by
  have : RightCommutative noteHash := ⟨noteHash_comm⟩
  unfold sourceFileContentHashes
  rw [((horder.nodes.filter _).filterMap fileHash).foldl_eq]

/-- **The order of the records does not matter.** -/
theorem diffGraphSnapshots_congr (F : FloatText) (fromSnapshotId toSnapshotId : String)
    {from' from'' to' to'' : GraphSnapshot} (hfrom : from'.DistinctIdentities)
    (hto : to'.DistinctIdentities) (hfromOrder : from'.Reordered from'')
    (htoOrder : to'.Reordered to'') :
    diffGraphSnapshots F fromSnapshotId toSnapshotId from'' to'' =
      diffGraphSnapshots F fromSnapshotId toSnapshotId from' to' := by
  unfold diffGraphSnapshots
  rw [diffRecords_congr hfrom.nodes hto.nodes hfromOrder.nodes htoOrder.nodes,
    diffRecords_congr hfrom.sites hto.sites hfromOrder.sites htoOrder.sites,
    diffRecords_congr hfrom.edges hto.edges hfromOrder.edges htoOrder.edges,
    diffRecords_congr hfrom.evidence hto.evidence hfromOrder.evidence htoOrder.evidence,
    diffRecords_congr hfrom.profiles hto.profiles hfromOrder.profiles htoOrder.profiles,
    nodeSourceEvidence_congr hfrom hfromOrder, nodeSourceEvidence_congr hto htoOrder,
    sourceFileContentHashes_congr hfromOrder, sourceFileContentHashes_congr htoOrder,
    hfromOrder.coverage, htoOrder.coverage]

end Reorder

/-! ### The difference of two snapshots -/

/-- Applying the difference to the first snapshot gives the records of the second; the nodes of the
renames count as removed and as added. -/
structure GraphSnapshotDiff.Lossless (d : GraphSnapshotDiff) (from' to' : GraphSnapshot) : Prop where
  nodes : SameRecords ((d.nodes.withRenames d.renames).apply NodeRecord.id from'.nodes) to'.nodes
  sites : SameRecords (d.sites.apply SiteRecord.id from'.sites) to'.sites
  edges : SameRecords (d.edges.apply EdgeRecord.id from'.edges) to'.edges
  evidence : SameRecords (d.evidence.apply evidenceIdentity from'.evidence) to'.evidence
  profiles : SameRecords (d.profiles.apply ProfileRecord.id from'.profiles) to'.profiles

/-- The identities of the removed, added and changed nodes and of both sides of the renames. -/
def GraphSnapshotDiff.nodeIds (d : GraphSnapshotDiff) : List String :=
  d.nodes.removed.map NodeRecord.id ++ d.nodes.added.map NodeRecord.id ++
    d.nodes.changed.map ChangedRecord.id ++ d.renames.map NodeRename.oldId ++
    d.renames.map NodeRename.newId

/-- The first difference is the mirror image of the second; renames are compared as sets. -/
structure GraphSnapshotDiff.MirrorOf (d' d : GraphSnapshotDiff) : Prop where
  schemaVersion : d'.schemaVersion = d.schemaVersion
  fromSnapshotId : d'.fromSnapshotId = d.toSnapshotId
  toSnapshotId : d'.toSnapshotId = d.fromSnapshotId
  nodes : d'.nodes = d.nodes.mirror
  sites : d'.sites = d.sites.mirror
  edges : d'.edges = d.edges.mirror
  evidence : d'.evidence = d.evidence.mirror
  profiles : d'.profiles = d.profiles.mirror
  coverage : d'.coverage = d.coverage.map ChangedRecord.mirror
  renames : d'.renames.Perm (d.renames.map NodeRename.mirror)
  renameCandidates : d'.renameCandidates.Perm (d.renameCandidates.map NodeRename.mirror)

theorem diffCoverage_mirror (before after : CoverageRecord) :
    diffCoverage after before = (diffCoverage before after).map ChangedRecord.mirror := by
  have hsame : (after == before) = (before == after) := CommBEq.comm after before
  unfold diffCoverage
  by_cases h : (before == after) = true
  · rw [if_pos h, if_pos (hsame.trans h), Option.map_none]
  · rw [if_neg h, if_neg (hsame ▸ h), Option.map_some, ChangedRecord.mirror,
      changedFields_comm after before]

/-- **A node is named once.** -/
theorem nodeIds_nodup {d : GraphSnapshotDiff} {from' to' : List NodeRecord}
    (h : Compares NodeRecord.id from' to' (d.nodes.withRenames d.renames))
    (hids : ∀ r ∈ d.renames, r.oldId = r.before.id ∧ r.newId = r.after.id) : d.nodeIds.Nodup := by
  have hold : d.renames.map NodeRename.oldId =
      (d.renames.map NodeRename.before).map NodeRecord.id := by
    rw [List.map_map]
    exact List.map_congr_left fun r hr => (hids r hr).1
  have hnew : d.renames.map NodeRename.newId =
      (d.renames.map NodeRename.after).map NodeRecord.id := by
    rw [List.map_map]
    exact List.map_congr_left fun r hr => (hids r hr).2
  have hnodup := h.ids_nodup
  simp only [RecordDiff.withRenames, List.map_append, ← hold, ← hnew] at hnodup
  refine (List.Perm.nodup_iff (List.perm_iff_count.2 fun id => ?_)).2 hnodup
  simp only [GraphSnapshotDiff.nodeIds, List.count_append]
  omega

section Snapshots

variable {F : FloatText} {fromSnapshotId toSnapshotId : String} {from' to' : GraphSnapshot}

/-- The parts of the difference. -/
theorem diffGraphSnapshots_parts (hfrom : from'.DistinctIdentities) (hto : to'.DistinctIdentities) :
    ∃ nodes sites edges evidence profiles,
      (diffRecords NodeRecord.id from'.nodes to'.nodes = .ok nodes ∧
        Compares NodeRecord.id from'.nodes to'.nodes nodes) ∧
      (diffRecords SiteRecord.id from'.sites to'.sites = .ok sites ∧
        Compares SiteRecord.id from'.sites to'.sites sites) ∧
      (diffRecords EdgeRecord.id from'.edges to'.edges = .ok edges ∧
        Compares EdgeRecord.id from'.edges to'.edges edges) ∧
      (diffRecords evidenceIdentity from'.evidence to'.evidence = .ok evidence ∧
        Compares evidenceIdentity from'.evidence to'.evidence evidence) ∧
      (diffRecords ProfileRecord.id from'.profiles to'.profiles = .ok profiles ∧
        Compares ProfileRecord.id from'.profiles to'.profiles profiles) := by
  obtain ⟨nodes, hnodes⟩ := diffRecords_compares hfrom.nodes hto.nodes
  obtain ⟨sites, hsites⟩ := diffRecords_compares hfrom.sites hto.sites
  obtain ⟨edges, hedges⟩ := diffRecords_compares hfrom.edges hto.edges
  obtain ⟨evidence, hevidence⟩ := diffRecords_compares hfrom.evidence hto.evidence
  obtain ⟨profiles, hprofiles⟩ := diffRecords_compares hfrom.profiles hto.profiles
  exact ⟨nodes, sites, edges, evidence, profiles, hnodes, hsites, hedges, hevidence, hprofiles⟩

/-- The difference that consists of given parts. -/
def assembled (F : FloatText) (fromSnapshotId toSnapshotId : String) (from' to' : GraphSnapshot)
    (nodes : RecordDiff NodeRecord) (sites : RecordDiff SiteRecord) (edges : RecordDiff EdgeRecord)
    (evidence : RecordDiff EvidenceRecord) (profiles : RecordDiff ProfileRecord) :
    GraphSnapshotDiff :=
  let detected := detected F nodes (nodeSourceEvidence from') (nodeSourceEvidence to')
    (sourceFileContentHashes from') (sourceFileContentHashes to')
  { schemaVersion := snapshotDiffSchemaVersion
    fromSnapshotId
    toSnapshotId
    nodes := detected.nodes
    sites
    edges
    evidence
    profiles
    coverage := diffCoverage from'.coverage to'.coverage
    renames := detected.renames
    renameCandidates := detected.candidates }

variable {nodes : RecordDiff NodeRecord} {sites : RecordDiff SiteRecord}
  {edges : RecordDiff EdgeRecord} {evidence : RecordDiff EvidenceRecord}
  {profiles : RecordDiff ProfileRecord}

theorem diffGraphSnapshots_eq (fromSnapshotId toSnapshotId : String)
    (hnodes : diffRecords NodeRecord.id from'.nodes to'.nodes = .ok nodes)
    (hsites : diffRecords SiteRecord.id from'.sites to'.sites = .ok sites)
    (hedges : diffRecords EdgeRecord.id from'.edges to'.edges = .ok edges)
    (hevidence : diffRecords evidenceIdentity from'.evidence to'.evidence = .ok evidence)
    (hprofiles : diffRecords ProfileRecord.id from'.profiles to'.profiles = .ok profiles) :
    diffGraphSnapshots F fromSnapshotId toSnapshotId from' to' =
      .ok (assembled F fromSnapshotId toSnapshotId from' to' nodes sites edges evidence
        profiles) := by
  unfold diffGraphSnapshots
  rw [bind_of_ok hnodes, bind_of_ok detectNodeRenames_eq, bind_of_ok hsites, bind_of_ok hedges,
    bind_of_ok hevidence, bind_of_ok hprofiles]
  rfl

theorem assembled_compares (h : Compares NodeRecord.id from'.nodes to'.nodes nodes) :
    Compares NodeRecord.id from'.nodes to'.nodes
      ((assembled F fromSnapshotId toSnapshotId from' to' nodes sites edges evidence
        profiles).nodes.withRenames
      (assembled F fromSnapshotId toSnapshotId from' to' nodes sites edges evidence
        profiles).renames) :=
  h.of_perm (detected_removed h.removed_nodup) (detected_added h.added_nodup) rfl

/-- The difference in the other direction is put together from the mirror images. -/
theorem assembled_mirror :
    (assembled F toSnapshotId fromSnapshotId to' from' nodes.mirror sites.mirror edges.mirror
      evidence.mirror profiles.mirror).MirrorOf
      (assembled F fromSnapshotId toSnapshotId from' to' nodes sites edges evidence
        profiles) where
  schemaVersion := rfl
  fromSnapshotId := rfl
  toSnapshotId := rfl
  nodes := detected_nodes_mirror
  sites := rfl
  edges := rfl
  evidence := rfl
  profiles := rfl
  coverage := diffCoverage_mirror _ _
  renames := detected_renames_mirror
  renameCandidates := detected_candidates_mirror

/-- **A difference of snapshots is lossless, names a node once, is the mirror image of the
difference in the other direction and does not depend on the order of the records.** -/
theorem diffGraphSnapshots_lossless (F : FloatText) (fromSnapshotId toSnapshotId : String)
    (from' to' : GraphSnapshot) (hfrom : from'.DistinctIdentities)
    (hto : to'.DistinctIdentities) :
    ∃ d, diffGraphSnapshots F fromSnapshotId toSnapshotId from' to' = .ok d ∧
      d.Lossless from' to' ∧ d.nodeIds.Nodup ∧
      (∃ d', diffGraphSnapshots F toSnapshotId fromSnapshotId to' from' = .ok d' ∧
        d'.MirrorOf d) ∧
      ∀ from'' to'', from'.Reordered from'' → to'.Reordered to'' →
        diffGraphSnapshots F fromSnapshotId toSnapshotId from'' to'' = .ok d := by
  obtain ⟨nodes, sites, edges, evidence, profiles, ⟨hnodes, nodesCompare⟩, ⟨hsites, sitesCompare⟩,
    ⟨hedges, edgesCompare⟩, ⟨hevidence, evidenceCompare⟩, hprofiles, profilesCompare⟩ :=
    diffGraphSnapshots_parts hfrom hto
  have hdiff := diffGraphSnapshots_eq (F := F) fromSnapshotId toSnapshotId hnodes hsites
    hedges hevidence hprofiles
  refine ⟨_, hdiff, ?_, nodeIds_nodup (assembled_compares nodesCompare) fun r hr =>
    ⟨(mem_promoted hr).1.2, (mem_promoted hr).2.2⟩, ?_, ?_⟩
  · exact {
      nodes := (assembled_compares nodesCompare).same hfrom.nodes hto.nodes
      sites := sitesCompare.same hfrom.sites hto.sites
      edges := edgesCompare.same hfrom.edges hto.edges
      evidence := evidenceCompare.same hfrom.evidence hto.evidence
      profiles := profilesCompare.same hfrom.profiles hto.profiles }
  · have hmirror := diffGraphSnapshots_eq (F := F) toSnapshotId fromSnapshotId
      (diffRecords_mirror hfrom.nodes hto.nodes hnodes)
      (diffRecords_mirror hfrom.sites hto.sites hsites)
      (diffRecords_mirror hfrom.edges hto.edges hedges)
      (diffRecords_mirror hfrom.evidence hto.evidence hevidence)
      (diffRecords_mirror hfrom.profiles hto.profiles hprofiles)
    exact ⟨_, hmirror, assembled_mirror⟩
  · intro from'' to'' hfromOrder htoOrder
    exact (diffGraphSnapshots_congr F fromSnapshotId toSnapshotId hfrom hto hfromOrder
      htoOrder).trans hdiff

end Snapshots

/-! ### A file that is renamed -/

namespace Sample

def fileProperties : List (String × Proper) :=
  [("package", .string "core"),
    ("content_hash", .string ("sha256:" ++ String.ofList (List.replicate 64 '0')))]

theorem fileProperties_nodup : (fileProperties.map Prod.fst).Nodup := by decide

def file (id locator : String) : NodeRecord :=
  ⟨id, "file", locator, locator, .object fileProperties fileProperties_nodup⟩

def coverage : CoverageRecord := ⟨0, 1, 1, 0, 0, 0, 0, 0, 0, 0, false, [], []⟩

def before : GraphSnapshot := ⟨[], [file "n1" "file:a.rs"], [], [], [], coverage⟩
def after : GraphSnapshot := ⟨[], [file "n2" "file:b.rs"], [], [], [], coverage⟩

theorem before_distinct : before.DistinctIdentities := by
  constructor <;> decide

theorem after_distinct : after.DistinctIdentities := by
  constructor <;> decide

example : (diffGraphSnapshots .plain "s1" "s2" before after).toOption.map
    (fun d => d.renames.map fun r => (r.oldId, r.newId, r.confidence, r.reasons)) =
      some [("n1", "n2", .exact, ["same_file_content_hash_and_package"])] := by
  decide +kernel

end Sample

open Sample in
theorem diffGraphSnapshots_lossless_renamed :
    ∃ d, diffGraphSnapshots .plain "s1" "s2" before after = .ok d ∧
      d.Lossless before after ∧ d.nodeIds.Nodup ∧
      (∃ d', diffGraphSnapshots .plain "s2" "s1" after before = .ok d' ∧ d'.MirrorOf d) ∧
      ∀ from'' to'', before.Reordered from'' → after.Reordered to'' →
        diffGraphSnapshots .plain "s1" "s2" from'' to'' = .ok d :=
  diffGraphSnapshots_lossless .plain "s1" "s2" before after before_distinct after_distinct

end Store
