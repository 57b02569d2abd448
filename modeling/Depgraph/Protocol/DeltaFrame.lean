import Depgraph.Protocol.DeltaSummary

/-!
# What a delta leaves alone

The records of the base graph outside the ownership closure of the declared scope, against the
mutations that the validator accepts. Deletes are judged by what the base graph holds, and so are
upserts of sites. Upserts of nodes, edges and evidence records are judged by the new payload too:
they may claim a record that was not in the scope.

* `DeltaMutation.ClaimsOutside` singles out those upserts.
* `Scoping` says that without one of them nothing outside the closure changes; `Mutates.scoping` is
  its step.
-/

namespace Protocol

open Fallible OrderedMap

/-- The records outside the closure are present and unchanged. -/
structure OutsideUnchanged (scope : DeltaScope) (base result : DeltaGraph) : Prop where
  node : ∀ (id : String) (node : GraphNode), base.nodes[id]? = some node →
    id ∉ (scopedBaseEntities scope base).nodes → result.nodes[id]? = some node
  site : ∀ (id : String) (site : DependencySite), base.sites[id]? = some site →
    id ∉ (scopedBaseEntities scope base).sites → result.sites[id]? = some site
  edge : ∀ (id : String) (edge : GraphEdge), base.edges[id]? = some edge →
    id ∉ (scopedBaseEntities scope base).edges → result.edges[id]? = some edge
  evidence : ∀ (key : DeltaEvidenceKey) (item : Evidence), base.evidence[key]? = some item →
    evidenceIsScoped scope key (some item) (scopedBaseEntities scope base) = false →
    result.evidence[key]? = some item
  coverage : ∀ (key : DeltaCoverageKey) (value : DeltaCoverage), base.coverage[key]? = some value →
    coverageKeyIsScoped scope key = false → result.coverage[key]? = some value

/-- An upsert of a base record outside the closure with a payload that is in the scope by itself. -/
def DeltaMutation.ClaimsOutside (scope : DeltaScope) (base : DeltaGraph) : DeltaMutation → Prop
  | .nodeUpsert node => node.id ∈ base.nodes ∧ node.id ∉ (scopedBaseEntities scope base).nodes ∧
    nodeIsScoped scope node = true
  | .edgeUpsert edge => edge.id ∈ base.edges ∧ edge.id ∉ (scopedBaseEntities scope base).edges ∧
    edge.profileId ∈ scope.profileIds
  | .evidenceUpsert key item => (∃ existing, base.evidence[key]? = some existing ∧
    evidenceIsScoped scope key (some existing) (scopedBaseEntities scope base) = false) ∧
    pathIsScoped scope item = true
  | _ => False

/-- The scope of a stream that has started. -/
def DeltaStreamState.declaredScope : DeltaStreamState → Option DeltaScope
  | .awaitingStart => none
  | .mutating started => some started.scope
  | .completed started _ => some started.scope

/-! ### The closure of the base graph -/

section

variable {S : StableIds} {scope : DeltaScope} {base : DeltaGraph} {s s' : DeltaState}
  {m : DeltaMutation} {touched : String → Prop} {claimed claimed' : Prop}

theorem mem_idsWhere {V : Type} {ident : V → String} {predicate : V → Bool}
    {map : Std.ExtTreeMap String V} (hkeys : KeyedBy ident map) {id : String} {value : V}
    (hvalue : map[id]? = some value) : id ∈ idsWhere ident predicate map ↔ predicate value = true := by
  rw [idsWhere, Std.ExtTreeSet.mem_ofList, List.contains_iff_mem, List.mem_map]
  simp only [List.mem_filter, mem_values]
  constructor
  · rintro ⟨other, ⟨⟨key, hother⟩, hpredicate⟩, rfl⟩
    rw [hkeys key other hother] at hvalue
    rwa [Option.some.inj (hvalue.symm.trans hother)]
  · exact fun hpredicate => ⟨value, ⟨⟨id, hvalue⟩, hpredicate⟩, hkeys id value hvalue⟩

theorem mem_closure_nodes (hkeys : KeysMatch base) {id : String} {node : GraphNode}
    (hnode : base.nodes[id]? = some node) : id ∈ (scopedBaseEntities scope base).nodes ↔
      nodeIsScoped scope node = true ∨
        ownerHasScopedEvidence scope .node node.id base.evidence = true :=
  (mem_idsWhere hkeys.node hnode).trans Bool.or_eq_true_iff

theorem mem_closure_sites (hkeys : KeysMatch base) {id : String} {site : DependencySite}
    (hsite : base.sites[id]? = some site) : id ∈ (scopedBaseEntities scope base).sites ↔
      siteIsScoped scope site (scopedBaseEntities scope base).nodes base.evidence = true :=
  mem_idsWhere hkeys.site hsite

theorem mem_closure_edges (hkeys : KeysMatch base) {id : String} {edge : GraphEdge}
    (hedge : base.edges[id]? = some edge) : id ∈ (scopedBaseEntities scope base).edges ↔
      edgeIsScoped scope edge (scopedBaseEntities scope base).nodes
        (scopedBaseEntities scope base).sites base.evidence = true :=
  mem_idsWhere hkeys.edge hedge

/-! ### One mutation -/

/-- A base record is in the closure, or some record was claimed. -/
def Allowed {V : Type} (base : Std.ExtTreeMap String V) (owned : IdSet) (claimed : Prop)
    (id : String) : Prop :=
  id ∈ base → id ∈ owned ∨ claimed

/-- The same for an evidence record, which may also be in the scope by its path. -/
def EvidenceAllowed (scope : DeltaScope) (base : DeltaGraph) (claimed : Prop)
    (key : DeltaEvidenceKey) : Prop :=
  ∀ existing, base.evidence[key]? = some existing →
    evidenceIsScoped scope key (some existing) (scopedBaseEntities scope base) = true ∨ claimed

/-- Base records that have come into the scope or have been changed were in the closure, unless some
record was claimed. -/
structure Scoping (scope : DeltaScope) (base : DeltaGraph) (s : DeltaState) (claimed : Prop) :
    Prop where
  nodes : ∀ id ∈ s.closure.nodes,
    Allowed base.nodes (scopedBaseEntities scope base).nodes claimed id
  sites : ∀ id ∈ s.closure.sites,
    Allowed base.sites (scopedBaseEntities scope base).sites claimed id
  edges : ∀ id ∈ s.closure.edges,
    Allowed base.edges (scopedBaseEntities scope base).edges claimed id
  nodeChanges : ChangesOnly s.changes.nodeDeletes s.changes.nodeUpserts
    (Allowed base.nodes (scopedBaseEntities scope base).nodes claimed)
  siteChanges : ChangesOnly s.changes.siteDeletes s.changes.siteUpserts
    (Allowed base.sites (scopedBaseEntities scope base).sites claimed)
  edgeChanges : ChangesOnly s.changes.edgeDeletes s.changes.edgeUpserts
    (Allowed base.edges (scopedBaseEntities scope base).edges claimed)
  evidenceChanges : ChangesOnly s.changes.evidenceDeletes s.changes.evidenceUpserts
    (EvidenceAllowed scope base claimed)
  coverageChanges : ChangesOnly s.changes.coverageDeletes s.changes.coverageUpserts
    fun key => coverageKeyIsScoped scope key = true

theorem Scoping.start (graph : DeltaGraph) :
    Scoping scope base ⟨graph, {}, scopedBaseEntities scope base⟩ claimed where
  nodes _ hid _ := Or.inl hid
  sites _ hid _ := Or.inl hid
  edges _ hid _ := Or.inl hid
  nodeChanges := .start
  siteChanges := .start
  edgeChanges := .start
  evidenceChanges := .start
  coverageChanges := .start

theorem Scoping.mono (h : Scoping scope base s claimed) (hsub : claimed → claimed') :
    Scoping scope base s claimed' where
  nodes id hid hbase := (h.nodes id hid hbase).imp_right hsub
  sites id hid hbase := (h.sites id hid hbase).imp_right hsub
  edges id hid hbase := (h.edges id hid hbase).imp_right hsub
  nodeChanges := h.nodeChanges.mono fun _ hid hbase => (hid hbase).imp_right hsub
  siteChanges := h.siteChanges.mono fun _ hid hbase => (hid hbase).imp_right hsub
  edgeChanges := h.edgeChanges.mono fun _ hid hbase => (hid hbase).imp_right hsub
  evidenceChanges := h.evidenceChanges.mono fun _ hkey existing hbase =>
    (hkey existing hbase).imp_right hsub
  coverageChanges := h.coverageChanges

/-- Before the first evidence upsert, an owner has scoped evidence only if it had so in the base. -/
theorem Summarizes.scoped_evidence (h : Summarizes base s touched)
    (hquiet : s.changes.evidenceUpserts = ∅) {ownerType : DeltaEvidenceOwner} {ownerId : String}
    (hscoped : ownerHasScopedEvidence scope ownerType ownerId s.graph.evidence = true) :
    ownerHasScopedEvidence scope ownerType ownerId base.evidence = true := by
  obtain ⟨⟨key, item⟩, hmem, hitem⟩ := List.any_eq_true.1 hscoped
  refine List.any_eq_true.2 ⟨(key, item), ?_, hitem⟩
  rw [mem_toList, h.evidence.of_not_upserted (by simp [hquiet])] at hmem
  rw [mem_toList]
  split_ifs at hmem
  exact hmem

/-- A base site that the scope reaches during a delta was reached in the base graph. -/
theorem Scoping.site_allowed (h : Scoping scope base s claimed) (hsum : Summarizes base s touched)
    (hvalid : GraphValid base) (hkeys : KeysMatch base) (hquiet : s.changes.evidenceUpserts = ∅)
    {site existing : DependencySite} (hexisting : base.sites[site.id]? = some existing)
    (hidentity : existing.source = site.source ∧ existing.profileId = site.profileId)
    (hscoped : siteIsScoped scope site s.closure.nodes s.graph.evidence = true) :
    site.id ∈ (scopedBaseEntities scope base).sites ∨ claimed := by
  have hid : existing.id = site.id := hkeys.site _ _ hexisting
  rw [mem_closure_sites hkeys hexisting]
  simp only [siteIsScoped, Bool.or_eq_true, hidentity.1, hidentity.2, hid] at hscoped ⊢
  rcases hscoped with (hprofile | hsource) | hevidence
  · exact Or.inl (Or.inl (Or.inl hprofile))
  · have hbase : site.source ∈ base.nodes :=
      hidentity.1 ▸ hvalid.links.site_source _ _ hexisting
    exact (h.nodes site.source hsource hbase).imp_left fun hmem => Or.inl (Or.inr hmem)
  · exact Or.inl (Or.inr (hsum.scoped_evidence hquiet hevidence))

/-- A base edge that the scope reaches during a delta was reached in the base graph, unless it is
by the profile that the new payload has. -/
theorem Scoping.edge_allowed (h : Scoping scope base s claimed) (hsum : Summarizes base s touched)
    (hvalid : GraphValid base) (hkeys : KeysMatch base) (hquiet : s.changes.evidenceUpserts = ∅)
    {edge existing : GraphEdge} (hexisting : base.edges[edge.id]? = some existing)
    (hidentity : existing.siteId = edge.siteId ∧ existing.source = edge.source ∧
      existing.target = edge.target)
    (hscoped : edgeIsScoped scope edge s.closure.nodes s.closure.sites s.graph.evidence = true) :
    edge.id ∈ (scopedBaseEntities scope base).edges ∨ claimed ∨
      edge.profileId ∈ scope.profileIds := by
  obtain ⟨hsite, hsource, htarget⟩ := hidentity
  have hid : existing.id = edge.id := hkeys.edge _ _ hexisting
  rw [mem_closure_edges hkeys hexisting]
  simp only [edgeIsScoped, Bool.or_eq_true, hsite, hsource, htarget, hid] at hscoped ⊢
  rcases hscoped with (((hprofile | hmem) | hmem) | hmem) | hevidence
  · exact Or.inr (Or.inr (List.contains_iff_mem.1 hprofile))
  · have hbase : edge.source ∈ base.nodes := hsource ▸ hvalid.links.edge_source _ _ hexisting
    rcases h.nodes edge.source hmem hbase with howned | hclaimed
    · exact Or.inl (Or.inl (Or.inl (Or.inl (Or.inr howned))))
    · exact Or.inr (Or.inl hclaimed)
  · have hbase : edge.target ∈ base.nodes := htarget ▸ hvalid.links.edge_target _ _ hexisting
    rcases h.nodes edge.target hmem hbase with howned | hclaimed
    · exact Or.inl (Or.inl (Or.inl (Or.inr howned)))
    · exact Or.inr (Or.inl hclaimed)
  · obtain ⟨siteId, hsiteId, hgrown⟩ := (Option.any_eq_true _ _).1 hmem
    have hbase : siteId ∈ base.sites :=
      hvalid.links.edge_site _ _ hexisting siteId (hsite.trans hsiteId)
    rcases h.sites siteId hgrown hbase with howned | hclaimed
    · exact Or.inl (Or.inl (Or.inr ((Option.any_eq_true _ _).2 ⟨siteId, hsiteId, howned⟩)))
    · exact Or.inr (Or.inl hclaimed)
  · exact Or.inl (Or.inr (hsum.scoped_evidence hquiet hevidence))

/-- A base evidence record whose owner the scope reaches during a delta was in the scope. -/
theorem Scoping.evidence_allowed (h : Scoping scope base s claimed) (hvalid : GraphValid base)
    {key : DeltaEvidenceKey} {existing : Evidence}
    (hexisting : base.evidence[key]? = some existing)
    (howner : key.ownerId ∈ s.closure.owners key.ownerType) :
    evidenceIsScoped scope key (some existing) (scopedBaseEntities scope base) = true ∨
      claimed := by
  have hexists := hvalid.owner key (mem_iff.2 ⟨existing, hexisting⟩)
  have howned : key.ownerId ∈ (scopedBaseEntities scope base).owners key.ownerType ∨ claimed := by
    unfold DeltaGraph.ownerExists at hexists
    cases htype : key.ownerType with
    | node =>
      rw [htype] at hexists howner
      exact h.nodes key.ownerId howner hexists
    | site =>
      rw [htype] at hexists howner
      exact h.sites key.ownerId howner hexists
    | edge =>
      rw [htype] at hexists howner
      exact h.edges key.ownerId howner hexists
  exact howned.imp_left fun hmem => Bool.or_eq_true_iff.2 (Or.inl hmem)

/-- Growing the scope by an allowed id. -/
theorem forall_insert_allowed {V : Type} {map : Std.ExtTreeMap String V} {owned grown : IdSet}
    {id : String} (h : ∀ k ∈ grown, Allowed map owned claimed k)
    (hid : Allowed map owned claimed id) : ∀ k ∈ grown.insert id, Allowed map owned claimed k := by
  intro k hk
  rcases mem_insert.1 hk with rfl | hk
  · exact hid
  · exact h k hk

/-- **An accepted mutation of an untouched record keeps the base records outside the closure**,
unless it claims one of them. -/
theorem Mutates.scoping (hm : Mutates scope s m s') (h : Scoping scope base s claimed)
    (hsum : Summarizes base s touched) (hfresh : ¬ touched m.mutationIdentity)
    (hvalid : GraphValid base) (hkeys : KeysMatch base)
    (hquiet : m.phase < 7 → s.changes.evidenceUpserts = ∅) :
    Scoping scope base s' (claimed ∨ m.ClaimsOutside scope base) := by
  have hmono := h.mono (Or.inl : claimed → claimed ∨ m.ClaimsOutside scope base)
  cases hm with
  | nodeDelete nodeId owned =>
    exact { hmono with nodeChanges := hmono.nodeChanges.delete (hmono.nodes nodeId owned) }
  | siteDelete siteId owned =>
    exact { hmono with siteChanges := hmono.siteChanges.delete (hmono.sites siteId owned) }
  | edgeDelete edgeId owned =>
    exact { hmono with edgeChanges := hmono.edgeChanges.delete (hmono.edges edgeId owned) }
  | coverageDelete key owned =>
    exact { hmono with coverageChanges := hmono.coverageChanges.delete owned }
  | coverageUpsert coverage owned =>
    exact { hmono with coverageChanges := hmono.coverageChanges.upsert owned }
  | nodeUpsert node owned =>
    have hallowed : Allowed base.nodes (scopedBaseEntities scope base).nodes
        (claimed ∨ (DeltaMutation.nodeUpsert node).ClaimsOutside scope base) node.id := by
      intro hbase
      rcases owned with hmem | hscoped
      · exact hmono.nodes node.id hmem hbase
      · by_cases howned : node.id ∈ (scopedBaseEntities scope base).nodes
        · exact Or.inl howned
        · exact Or.inr (Or.inr ⟨hbase, howned, hscoped⟩)
    exact { hmono with
      nodes := forall_insert_allowed hmono.nodes hallowed
      nodeChanges := hmono.nodeChanges.upsert hallowed }
  | siteUpsert site identity owned =>
    have hallowed : Allowed base.sites (scopedBaseEntities scope base).sites
        (claimed ∨ (DeltaMutation.siteUpsert site).ClaimsOutside scope base) site.id := by
      intro hbase
      rcases owned with hmem | hscoped
      · exact hmono.sites site.id hmem hbase
      · obtain ⟨existing, hexisting⟩ := mem_iff.1 hbase
        have hcurrent := (hsum.sites.untouched hfresh).trans hexisting
        exact hmono.site_allowed hsum hvalid hkeys (hquiet (by simp [DeltaMutation.phase])) hexisting
          (identity existing hcurrent) hscoped
    exact { hmono with
      sites := forall_insert_allowed hmono.sites hallowed
      siteChanges := hmono.siteChanges.upsert hallowed }
  | edgeUpsert edge identity owned =>
    have hallowed : Allowed base.edges (scopedBaseEntities scope base).edges
        (claimed ∨ (DeltaMutation.edgeUpsert edge).ClaimsOutside scope base) edge.id := by
      intro hbase
      rcases owned with hmem | hscoped
      · exact hmono.edges edge.id hmem hbase
      · by_cases howned : edge.id ∈ (scopedBaseEntities scope base).edges
        · exact Or.inl howned
        obtain ⟨existing, hexisting⟩ := mem_iff.1 hbase
        have hcurrent := (hsum.edges.untouched hfresh).trans hexisting
        rcases h.edge_allowed hsum hvalid hkeys (hquiet (by simp [DeltaMutation.phase])) hexisting
          (identity existing hcurrent) hscoped with hmem | hclaimed | hprofile
        · exact Or.inl hmem
        · exact Or.inr (Or.inl hclaimed)
        · exact Or.inr (Or.inr ⟨hbase, howned, hprofile⟩)
    exact { hmono with
      edges := forall_insert_allowed hmono.edges hallowed
      edgeChanges := hmono.edgeChanges.upsert hallowed }
  | evidenceDelete key owned =>
    have hallowed : EvidenceAllowed scope base
        (claimed ∨ (DeltaMutation.evidenceDelete key).ClaimsOutside scope base) key := by
      intro existing hexisting
      rw [(hsum.evidence.untouched hfresh).trans hexisting] at owned
      rcases Bool.or_eq_true_iff.1 owned with howner | hpath
      · exact hmono.evidence_allowed hvalid hexisting howner
      · exact Or.inl (Bool.or_eq_true_iff.2 (Or.inr hpath))
    exact { hmono with evidenceChanges := hmono.evidenceChanges.delete hallowed }
  | evidenceUpsert key item owned =>
    have hallowed : EvidenceAllowed scope base
        (claimed ∨ (DeltaMutation.evidenceUpsert key item).ClaimsOutside scope base) key := by
      intro existing hexisting
      rcases Bool.or_eq_true_iff.1 owned with howner | hpath
      · exact hmono.evidence_allowed hvalid hexisting howner
      · by_cases hscoped : evidenceIsScoped scope key (some existing)
            (scopedBaseEntities scope base) = true
        · exact Or.inl hscoped
        · exact Or.inr (Or.inr ⟨⟨existing, hexisting, Bool.eq_false_iff.2 hscoped⟩, hpath⟩)
    exact { hmono with evidenceChanges := hmono.evidenceChanges.upsert hallowed }

/-! ### What is written -/

/-- The upserts that may claim a record are in the recorded changes. -/
def DeltaMutation.Recorded (changes : DeltaChanges) : DeltaMutation → Prop
  | .nodeUpsert node => changes.nodeUpserts[node.id]? = some node
  | .edgeUpsert edge => changes.edgeUpserts[edge.id]? = some edge
  | .evidenceUpsert key item => changes.evidenceUpserts[key]? = some item
  | _ => True

/-- What was recorded stays, since no record is written twice. -/
theorem Mutates.recorded (hm : Mutates scope s m s') (hsum : Summarizes base s touched)
    (hfresh : ¬ touched m.mutationIdentity) {earlier : DeltaMutation}
    (h : earlier.Recorded s.changes) : earlier.Recorded s'.changes := by
  cases hm with
  | nodeUpsert node =>
    cases earlier with
    | nodeUpsert other =>
      refine getElem?_insert.trans (if_neg fun hid => hfresh ?_) |>.trans h
      have htouched := hsum.nodes.upserted other.id (mem_iff.2 ⟨other, h⟩)
      rwa [hid] at htouched
    | _ => exact h
  | edgeUpsert edge =>
    cases earlier with
    | edgeUpsert other =>
      refine getElem?_insert.trans (if_neg fun hid => hfresh ?_) |>.trans h
      have htouched := hsum.edges.upserted other.id (mem_iff.2 ⟨other, h⟩)
      rwa [hid] at htouched
    | _ => exact h
  | evidenceUpsert key item =>
    cases earlier with
    | evidenceUpsert other _ =>
      refine getElem?_insert.trans (if_neg fun hkey => hfresh ?_) |>.trans h
      have htouched := hsum.evidence.upserted other (mem_iff.2 ⟨_, h⟩)
      rwa [hkey] at htouched
    | _ => exact h
  | _ => cases earlier <;> exact h

theorem Mutates.records (hm : Mutates scope s m s') : m.Recorded s'.changes := by
  cases hm with
  | nodeUpsert node => exact getElem?_insert.trans (if_pos rfl)
  | edgeUpsert edge => exact getElem?_insert.trans (if_pos rfl)
  | evidenceUpsert key item => exact getElem?_insert.trans (if_pos rfl)
  | _ => exact True.intro

/-- Before the first evidence upsert there is none. -/
theorem Mutates.evidence_quiet (hm : Mutates scope s m s')
    (h : s.changes.evidenceUpserts = ∅) : s'.changes.evidenceUpserts = ∅ ∨ 7 ≤ m.phase := by
  cases hm with
  | evidenceUpsert key item => exact Or.inr le_rfl
  | _ => exact Or.inl h

/-! ### The result against the claims -/

/-- Without a claim nothing outside the closure has changed. -/
theorem Scoping.unchanged (h : Scoping scope base s claimed) (hsum : Summarizes base s touched)
    (hnone : ¬ claimed) : OutsideUnchanged scope base s.graph where
  node _ node hnode howned :=
    (hsum.nodes.kept h.nodeChanges fun hallowed => (hallowed (mem_iff.2 ⟨node, hnode⟩)).elim
      howned hnone).trans hnode
  site _ site hsite howned :=
    (hsum.sites.kept h.siteChanges fun hallowed => (hallowed (mem_iff.2 ⟨site, hsite⟩)).elim
      howned hnone).trans hsite
  edge _ edge hedge howned :=
    (hsum.edges.kept h.edgeChanges fun hallowed => (hallowed (mem_iff.2 ⟨edge, hedge⟩)).elim
      howned hnone).trans hedge
  evidence _ item hitem houtside :=
    (hsum.evidence.kept h.evidenceChanges fun hallowed => (hallowed item hitem).elim
      (Bool.eq_false_iff.1 houtside) hnone).trans hitem
  coverage _ _ hvalue houtside :=
    (hsum.coverage.kept h.coverageChanges (Bool.eq_false_iff.1 houtside)).trans hvalue

/-- A claimed record has changed: the new payload is in the scope and the old one was not. -/
theorem Summarizes.changed (hsum : Summarizes base s touched) (hkeys : KeysMatch base)
    (hrecorded : m.Recorded s.changes) (hclaims : m.ClaimsOutside scope base) :
    ¬ OutsideUnchanged scope base s.graph := by
  intro h
  cases m with
  | nodeUpsert node =>
    obtain ⟨hbase, houtside, hscoped⟩ := hclaims
    obtain ⟨existing, hexisting⟩ := mem_iff.1 hbase
    have hwritten := hsum.nodes.of_upserted hrecorded
    obtain rfl := Option.some.inj (hwritten.symm.trans (h.node _ _ hexisting houtside))
    exact houtside ((mem_closure_nodes hkeys hexisting).2 (Or.inl hscoped))
  | edgeUpsert edge =>
    obtain ⟨hbase, houtside, hprofile⟩ := hclaims
    obtain ⟨existing, hexisting⟩ := mem_iff.1 hbase
    have hwritten := hsum.edges.of_upserted hrecorded
    obtain rfl := Option.some.inj (hwritten.symm.trans (h.edge _ _ hexisting houtside))
    refine houtside ((mem_closure_edges hkeys hexisting).2 ?_)
    simp [edgeIsScoped, hprofile]
  | evidenceUpsert key item =>
    obtain ⟨⟨existing, hexisting, houtside⟩, hpath⟩ := hclaims
    have hwritten := hsum.evidence.of_upserted hrecorded
    obtain rfl := Option.some.inj (hwritten.symm.trans (h.evidence _ _ hexisting houtside))
    exact Bool.eq_false_iff.1 houtside (Bool.or_eq_true_iff.2 (Or.inr hpath))
  | _ => exact hclaims

/-! ### The stream -/

theorem mutationsOf_append {events events' : List DeltaEvent} :
    mutationsOf (events ++ events') = mutationsOf events ++ mutationsOf events' :=
  List.filterMap_append

/-- The accepted events are recorded, evidence is written last, and the records outside the closure
are kept unless a mutation claims one. -/
structure ValidatorScoped (base : DeltaGraph) (v : DeltaValidator) : Prop where
  awaiting : v.state = .awaitingStart → v.graph = base ∧ v.changes = {}
  quiet : v.changes.evidenceUpserts = ∅ ∨ ∃ previous, v.lastMutationKey = some previous ∧
    7 ≤ previous.1
  recorded : ∀ m ∈ mutationsOf v.events, m.Recorded v.changes
  scoping : ∀ scope, v.state.declaredScope = some scope → Scoping scope base v.toDeltaState
    (∃ m ∈ mutationsOf v.events, m.ClaimsOutside scope base)

variable {v v' v₀ : DeltaValidator} {event : DeltaEvent} {events : List DeltaEvent}
  {d : ValidatedDelta}

/-- **An accepted event keeps the records outside the closure** unless it claims one of them. -/
theorem Takes.scoped (ht : Takes S v event v') (h : ValidatorScoped base v)
    (hv : ValidatorValid base v) (hvalid : GraphValid base) (hkeys : KeysMatch base) :
    ValidatorScoped base v' := by
  cases ht with
  | start started identity lastSeq awaiting =>
    obtain ⟨hgraph, hchanges⟩ := h.awaiting awaiting
    refine ⟨by rintro ⟨⟩, h.quiet, ?_, ?_⟩
    · rw [mutationsOf_append]
      exact List.forall_mem_append.2 ⟨h.recorded, List.forall_mem_nil _⟩
    · rintro scope ⟨⟩
      have hstart : DeltaState.mk v.graph v.changes (scopedBaseEntities started.scope v.graph) =
          ⟨v.graph, {}, scopedBaseEntities started.scope base⟩ := by
        rw [hgraph, hchanges]
      exact hstart ▸ Scoping.start v.graph
  | mutate started common m s identity lastSeq mutating ordered fresh mutates =>
    refine ⟨fun hstate => ?_, ?_, ?_, ?_⟩
    · cases mutating.symm.trans hstate
    · rcases h.quiet with hquiet | ⟨previous, hprevious, hphase⟩
      · exact (mutates.evidence_quiet hquiet).imp_right fun hphase => ⟨_, rfl, hphase⟩
      · refine Or.inr ⟨_, rfl, hphase.trans ?_⟩
        exact (ordered previous hprevious).elim le_of_lt fun hsame => hsame.1.le
    · rw [mutationsOf_append]
      refine List.forall_mem_append.2 ⟨fun earlier hmem => ?_, List.forall_mem_singleton.2 ?_⟩
      · exact mutates.recorded hv.summarizes fresh (h.recorded earlier hmem)
      · exact mutates.records
    · intro scope hscope
      obtain rfl : started.scope = scope := by
        have hstate : v.state.declaredScope = some scope := hscope
        rw [mutating] at hstate
        exact Option.some.inj hstate
      have hquiet : m.phase < 7 → v.changes.evidenceUpserts = ∅ := by
        intro hphase
        rcases h.quiet with hquiet | ⟨previous, hprevious, hlate⟩
        · exact hquiet
        · rcases ordered previous hprevious with hlt | ⟨heq, -⟩
          · exact absurd (hlate.trans_lt hlt) (not_lt.2 hphase.le)
          · exact absurd (hlate.trans_eq heq) (not_le.2 hphase)
      refine (mutates.scoping (h.scoping _ hscope) hv.summarizes fresh hvalid hkeys hquiet).mono ?_
      rw [mutationsOf_append]
      rintro (⟨earlier, hmem, hclaims⟩ | hclaims)
      · exact ⟨earlier, List.mem_append_left _ hmem, hclaims⟩
      · exact ⟨m, List.mem_append_right _ (List.mem_singleton.2 rfl), hclaims⟩
  | complete started completed identity lastSeq mutating final =>
    have hevents : mutationsOf (v.events ++ [.deltaCompleted completed]) = mutationsOf v.events := by
      rw [mutationsOf_append]
      exact List.append_nil _
    refine ⟨by rintro ⟨⟩, h.quiet, hevents ▸ h.recorded, ?_⟩
    rintro scope ⟨⟩
    rw [hevents]
    exact h.scoping started.scope (by rw [mutating]; rfl)

/-- The validator keeps the normalized events. -/
theorem Takes.events_eq (ht : Takes S v event v') : v'.events = v.events ++ [event] := by
  cases ht <;> rfl

theorem normalizeDeltaConditions_claims :
    (∃ m ∈ mutationsOf [normalizeDeltaConditions S event], m.ClaimsOutside scope base) ↔
      ∃ m ∈ mutationsOf [event], m.ClaimsOutside scope base := by
  cases event with
  | mutation common m => cases m <;> simp [mutationsOf, normalizeDeltaConditions,
      DeltaMutation.ClaimsOutside]
  | _ => rfl

theorem exists_mutation_append {events events' : List DeltaEvent} {p : DeltaMutation → Prop} :
    (∃ m ∈ mutationsOf (events ++ events'), p m) ↔
      (∃ m ∈ mutationsOf events, p m) ∨ ∃ m ∈ mutationsOf events', p m := by
  simp only [mutationsOf_append, List.mem_append, or_and_right, exists_or]

/-- The invariants over a stream, with the claims read off the events as they were given. -/
theorem pushes_scoped (hpush : events.foldlM (DeltaValidator.push S) v₀ = .ok v)
    (h : ValidatorScoped base v₀) (hv : ValidatorValid base v₀) (hvalid : GraphValid base)
    (hkeys : KeysMatch base) (hevents : v₀.events = []) :
    ValidatorScoped base v ∧ ValidatorValid base v ∧ ∀ scope,
      (∃ m ∈ mutationsOf v.events, m.ClaimsOutside scope base) ↔
        ∃ m ∈ mutationsOf events, m.ClaimsOutside scope base := by
  refine foldlM_induction (motive := fun done v => ValidatorScoped base v ∧
    ValidatorValid base v ∧ ∀ scope, (∃ m ∈ mutationsOf v.events, m.ClaimsOutside scope base) ↔
      ∃ m ∈ mutationsOf done, m.ClaimsOutside scope base) hpush ⟨h, hv, fun scope => ?_⟩ ?_
  · rw [hevents]
  · rintro done event v v' ⟨hscoped, hv, hclaims⟩ hstep
    have htakes := DeltaValidator.push_ok hstep
    refine ⟨htakes.scoped hscoped hv hvalid hkeys, htakes.valid hv, fun scope => ?_⟩
    rw [htakes.events_eq, exists_mutation_append, exists_mutation_append, hclaims,
      normalizeDeltaConditions_claims]

/-- A validated delta: the base records outside the closure are kept when no event of the stream
claims one of them, and otherwise not. -/
theorem outsideUnchanged_iff {base : DeltaBaseGraph} (hnew : DeltaValidator.new S base = .ok v₀)
    (hpush : events.foldlM (DeltaValidator.push S) v₀ = .ok v) (hfinish : v.finish = .ok d) :
    OutsideUnchanged d.scope v₀.graph v.graph ↔
      ∀ m ∈ mutationsOf events, ¬ m.ClaimsOutside d.scope v₀.graph := by
  obtain ⟨-, hv₀, hvalid, hstate₀, -, hchanges₀, hevents₀⟩ := DeltaValidator.new_ok hnew
  have hkeys := hv₀.summarizes.keys
  have hscoped₀ : ValidatorScoped v₀.graph v₀ := by
    refine ⟨fun _ => ⟨rfl, hchanges₀⟩, Or.inl ?_, ?_, ?_⟩
    · rw [hchanges₀]
    · rw [hevents₀]
      exact List.forall_mem_nil _
    · intro scope hscope
      rw [hstate₀] at hscope
      cases hscope
  obtain ⟨hscoped, hv, hclaims⟩ := pushes_scoped hpush hscoped₀ hv₀ hvalid hkeys hevents₀
  obtain ⟨started, completed, hstate, -, hscope⟩ := DeltaValidator.finish_ok hfinish
  have hscoping := hscoped.scoping d.scope (by rw [hstate, hscope]; rfl)
  constructor
  · intro hunchanged m hmem hm
    obtain ⟨m, hmem, hm⟩ := (hclaims d.scope).2 ⟨m, hmem, hm⟩
    exact hv.summarizes.changed hkeys (hscoped.recorded m hmem) hm hunchanged
  · intro hnone
    refine hscoping.unchanged hv.summarizes fun hex => ?_
    obtain ⟨m, hmem, hm⟩ := (hclaims d.scope).1 hex
    exact hnone m hmem hm

/-- **What a validated delta does outside the ownership closure of its scope**, which is that of the
base graph with all evidence in the evidence map: the records there are present and unchanged in the
result exactly when no mutation of the stream claims one of them by its payload. -/
theorem validated_delta_frame {base : DeltaBaseGraph}
    (hnew : DeltaValidator.new S base = .ok v₀)
    (hpush : events.foldlM (DeltaValidator.push S) v₀ = .ok v) (hfinish : v.finish = .ok d) :
    ∃ g, base.toDeltaGraph.hoisted = .ok g ∧ (base.toDeltaGraph.Bare → g = base.toDeltaGraph) ∧
      (OutsideUnchanged d.scope g (d.toDeltaChanges.apply g) ↔
        ∀ m ∈ mutationsOf events, ¬ m.ClaimsOutside d.scope g) := by
  obtain ⟨hg, hvalid₀, -⟩ := DeltaValidator.new_ok hnew
  obtain ⟨-, -, -, hbare⟩ := hoisted_ok hg
  have happly : d.toDeltaChanges.apply v₀.graph = v.graph := by
    obtain ⟨_, _, -, hchanges, -⟩ := DeltaValidator.finish_ok hfinish
    rw [hchanges]
    exact (pushes_valid hpush hvalid₀).summarizes.apply_eq
  exact ⟨v₀.graph, hg, hbare, happly.symm ▸ outsideUnchanged_iff hnew hpush hfinish⟩

end

/-! ### A claimed file -/

namespace Sample

theorem validated_scope : validated.toOption.map (fun r => r.2.2.scope) = some scope := by
  decide +kernel

/-- The file is not in the scope, and its new payload is. -/
theorem claimed_outside :
    (DeltaMutation.nodeUpsert claimed).ClaimsOutside scope base.toDeltaGraph := by
  refine ⟨?_, ?_, ?_⟩ <;> decide +kernel

theorem base_bare : base.toDeltaGraph.Bare := by
  refine ⟨fun id site hsite => ?_, fun id edge hedge => ?_⟩
  · exact absurd hsite (by simp [base])
  · exact absurd hedge (by simp [base])

/-- The delta is accepted with the scope above, and a mutation of it claims the file. -/
theorem validated_claims : ∃ v₀ v d, validated = .ok (v₀, v, d) ∧
    DeltaValidator.new stableIds base = .ok v₀ ∧
    events.foldlM (DeltaValidator.push stableIds) v₀ = .ok v ∧ v.finish = .ok d ∧
    d.scope = scope ∧ v₀.graph = base.toDeltaGraph := by
  obtain ⟨v₀, v, d, hnew, hpush, hfinish, hvalidated⟩ := validated_ok
  have hscope : d.scope = scope := by
    have h := validated_scope
    rw [hvalidated] at h
    exact Option.some.inj h
  obtain ⟨hg, -⟩ := DeltaValidator.new_ok hnew
  obtain ⟨-, -, -, hbare⟩ := hoisted_ok hg
  exact ⟨v₀, v, d, hvalidated, hnew, hpush, hfinish, hscope, hbare base_bare⟩

end Sample

open Sample in
theorem validated_delta_frame_claimed : ∃ v₀ v d, validated = .ok (v₀, v, d) ∧
    (OutsideUnchanged d.scope v₀.graph (d.toDeltaChanges.apply v₀.graph) ↔
      ∀ m ∈ mutationsOf events, ¬ m.ClaimsOutside d.scope v₀.graph) := by
  obtain ⟨v₀, v, d, hvalidated, hnew, hpush, hfinish, -⟩ := validated_claims
  obtain ⟨g, hg, -, hiff⟩ := validated_delta_frame hnew hpush hfinish
  obtain rfl := Except.ok.inj (hg.symm.trans (DeltaValidator.new_ok hnew).1)
  exact ⟨v₀, v, d, hvalidated, hiff⟩

open Sample in
/-- An accepted delta changes a file that is not in its scope. -/
theorem validated_delta_changes_outside : ∃ v₀ v d, validated = .ok (v₀, v, d) ∧
    file.id ∈ v₀.graph.nodes ∧ file.id ∉ (scopedBaseEntities d.scope v₀.graph).nodes ∧
    ¬ OutsideUnchanged d.scope v₀.graph v.graph := by
  obtain ⟨v₀, v, d, hvalidated, hnew, hpush, hfinish, hscope, hgraph⟩ := validated_claims
  refine ⟨v₀, v, d, hvalidated, ?_, ?_, ?_⟩
  · rw [hgraph]
    exact claimed_outside.1
  · rw [hscope, hgraph]
    exact claimed_outside.2.1
  · rw [outsideUnchanged_iff hnew hpush hfinish, hscope, hgraph]
    exact fun hnone => hnone _ (List.mem_singleton.2 rfl) claimed_outside

end Protocol
