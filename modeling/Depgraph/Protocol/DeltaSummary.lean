import Depgraph.Protocol.DeltaValidator

/-!
# The summary of a validated delta

Carrying out the recorded changes of a validated delta on the base graph gives the graph that the
validator has built, and that graph satisfies the invariants again.

* `Summarizes` relates the graph, the recorded changes and the identities seen so far to the base;
  `Mutates.summarizes` is its step.
* `ValidatorValid` adds what holds once the stream is completed; `Takes.valid` is its step.
-/

namespace Protocol

open Fallible OrderedMap

/-- Carries out recorded changes kind by kind: deletes first, then upserts. -/
def DeltaChanges.apply (changes : DeltaChanges) (base : DeltaGraph) : DeltaGraph where
  profiles := base.profiles
  nodes := applied base.nodes changes.nodeDeletes changes.nodeUpserts
  sites := applied base.sites changes.siteDeletes changes.siteUpserts
  edges := applied base.edges changes.edgeDeletes changes.edgeUpserts
  evidence := applied base.evidence changes.evidenceDeletes changes.evidenceUpserts
  coverage := applied base.coverage changes.coverageDeletes changes.coverageUpserts

/-- No id is both deleted and written. -/
structure DeltaChanges.Disjoint (changes : DeltaChanges) : Prop where
  nodes : ∀ id ∈ changes.nodeDeletes, id ∉ changes.nodeUpserts
  sites : ∀ id ∈ changes.siteDeletes, id ∉ changes.siteUpserts
  edges : ∀ id ∈ changes.edgeDeletes, id ∉ changes.edgeUpserts
  evidence : ∀ key ∈ changes.evidenceDeletes, key ∉ changes.evidenceUpserts
  coverage : ∀ key ∈ changes.coverageDeletes, key ∉ changes.coverageUpserts

/-! ### One mutation -/

def nodeIdentity (id : String) : String := "node" ++ ":" ++ id

def siteIdentity (id : String) : String := "site" ++ ":" ++ id

def edgeIdentity (id : String) : String := "edge" ++ ":" ++ id

def evidenceIdentity (key : DeltaEvidenceKey) : String :=
  "evidence" ++ ":" ++ evidenceKeyString key

def coverageIdentity (key : DeltaCoverageKey) : String :=
  "coverage" ++ ":" ++ coverageKeyString key

/-- The graph is the base with the recorded changes; a changed record has a touched identity. -/
structure Summarizes (base : DeltaGraph) (s : DeltaState) (touched : String → Prop) : Prop where
  profiles : s.graph.profiles = base.profiles
  nodes : Tracks base.nodes s.graph.nodes s.changes.nodeDeletes s.changes.nodeUpserts
    fun id => touched (nodeIdentity id)
  sites : Tracks base.sites s.graph.sites s.changes.siteDeletes s.changes.siteUpserts
    fun id => touched (siteIdentity id)
  edges : Tracks base.edges s.graph.edges s.changes.edgeDeletes s.changes.edgeUpserts
    fun id => touched (edgeIdentity id)
  evidence : Tracks base.evidence s.graph.evidence s.changes.evidenceDeletes
    s.changes.evidenceUpserts fun key => touched (evidenceIdentity key)
  coverage : Tracks base.coverage s.graph.coverage s.changes.coverageDeletes
    s.changes.coverageUpserts fun key => touched (coverageIdentity key)
  keys : KeysMatch s.graph

section

variable {S : StableIds} {base : DeltaGraph} {s s' : DeltaState} {touched touched' : String → Prop}
  {scope : DeltaScope} {m : DeltaMutation}

theorem Summarizes.start (hkeys : KeysMatch base) {closure : DeltaScoped} :
    Summarizes base ⟨base, {}, closure⟩ touched :=
  ⟨rfl, .start, .start, .start, .start, .start, hkeys⟩

theorem Summarizes.mono (h : Summarizes base s touched)
    (hsub : ∀ identity, touched identity → touched' identity) : Summarizes base s touched' where
  profiles := h.profiles
  nodes := h.nodes.mono fun _ => hsub _
  sites := h.sites.mono fun _ => hsub _
  edges := h.edges.mono fun _ => hsub _
  evidence := h.evidence.mono fun _ => hsub _
  coverage := h.coverage.mono fun _ => hsub _
  keys := h.keys

theorem Summarizes.closure (h : Summarizes base s touched) (closure : DeltaScoped) :
    Summarizes base { s with closure } touched :=
  { h with }

theorem Summarizes.apply_eq (h : Summarizes base s touched) : s.changes.apply base = s.graph := by
  unfold DeltaChanges.apply
  rw [← h.profiles, ← h.nodes.current_eq, ← h.sites.current_eq, ← h.edges.current_eq,
    ← h.evidence.current_eq, ← h.coverage.current_eq]

theorem Summarizes.disjoint (h : Summarizes base s touched) : s.changes.Disjoint where
  nodes := h.nodes.disjoint
  sites := h.sites.disjoint
  edges := h.edges.disjoint
  evidence := h.evidence.disjoint
  coverage := h.coverage.disjoint

/-- **An accepted mutation of an untouched record keeps the summary.** -/
theorem Mutates.summarizes (hm : Mutates scope s m s') (h : Summarizes base s touched)
    (hfresh : ¬ touched m.mutationIdentity) :
    Summarizes base s' fun identity => identity = m.mutationIdentity ∨ touched identity := by
  have hmono := h.mono fun identity htouched =>
    (Or.inr htouched : identity = m.mutationIdentity ∨ touched identity)
  have hkeys := h.keys
  cases hm with
  | nodeDelete nodeId => exact { hmono with
      nodes := h.nodes.delete_named hfresh
      keys := ⟨hkeys.node.erase, hkeys.site, hkeys.edge⟩ }
  | nodeUpsert node => exact { hmono with
      nodes := h.nodes.upsert_named hfresh
      keys := ⟨hkeys.node.insert, hkeys.site, hkeys.edge⟩ }
  | siteDelete siteId => exact { hmono with
      sites := h.sites.delete_named hfresh
      keys := ⟨hkeys.node, hkeys.site.erase, hkeys.edge⟩ }
  | siteUpsert site => exact { hmono with
      sites := h.sites.upsert_named hfresh
      keys := ⟨hkeys.node, hkeys.site.insert, hkeys.edge⟩ }
  | edgeDelete edgeId => exact { hmono with
      edges := h.edges.delete_named hfresh
      keys := ⟨hkeys.node, hkeys.site, hkeys.edge.erase⟩ }
  | edgeUpsert edge => exact { hmono with
      edges := h.edges.upsert_named hfresh
      keys := ⟨hkeys.node, hkeys.site, hkeys.edge.insert⟩ }
  | evidenceDelete key => exact { hmono with
      evidence := h.evidence.delete_named hfresh
      keys := ⟨hkeys.node, hkeys.site, hkeys.edge⟩ }
  | evidenceUpsert key evidence => exact { hmono with
      evidence := h.evidence.upsert_named hfresh
      keys := ⟨hkeys.node, hkeys.site, hkeys.edge⟩ }
  | coverageDelete key => exact { hmono with
      coverage := h.coverage.delete_named hfresh
      keys := ⟨hkeys.node, hkeys.site, hkeys.edge⟩ }
  | coverageUpsert coverage => exact { hmono with
      coverage := h.coverage.upsert_named hfresh
      keys := ⟨hkeys.node, hkeys.site, hkeys.edge⟩ }

/-! ### The stream -/

/-- The validator's graph is the base with the recorded changes, and it is valid once the stream is
completed. -/
structure ValidatorValid (base : DeltaGraph) (v : DeltaValidator) : Prop where
  summarizes : Summarizes base v.toDeltaState (· ∈ v.mutationIdentities)
  final : ∀ started completed, v.state = .completed started completed → GraphValid v.graph

variable {v v' : DeltaValidator} {event : DeltaEvent} {events : List DeltaEvent}
  {d : ValidatedDelta}

/-- **An accepted event keeps the summary**; the last one finds the graph valid. -/
theorem Takes.valid (ht : Takes S v event v') (h : ValidatorValid base v) :
    ValidatorValid base v' := by
  cases ht with
  | start started => exact ⟨h.summarizes.closure _, by rintro _ _ ⟨⟩⟩
  | mutate started common m s identity lastSeq mutating ordered fresh mutates =>
    refine ⟨(mutates.summarizes h.summarizes fresh).mono fun identity => mem_insert.2, ?_⟩
    intro started' completed hstate
    cases mutating.symm.trans hstate
  | complete started completed identity lastSeq mutating final =>
    exact ⟨h.summarizes, fun _ _ _ => validateFinalState_ok h.summarizes.keys final⟩

/-- The checks of the loop over the base sites; it finds no evidence where none is embedded. -/
theorem hoistSites_ok {sites : SiteMap} {evidence evidence' : EvidenceMap}
    (h : sites.toList.foldlM hoistSite evidence = .ok evidence') :
    KeyedBy DependencySite.id sites ∧ ((∀ (id : String) (site : DependencySite),
      sites[id]? = some site → site.evidence = []) → evidence' = evidence) := by
  have hloop : (∀ entry ∈ sites.toList, entry.1 = entry.2.id) ∧
      ((∀ entry ∈ sites.toList, entry.2.evidence = []) → evidence' = evidence) := by
    refine foldlM_induction (motive := fun done t => (∀ entry ∈ done, entry.1 = entry.2.id) ∧
      ((∀ entry ∈ done, entry.2.evidence = []) → t = evidence)) h
      ⟨List.forall_mem_nil _, fun _ => rfl⟩ fun done entry t t' hdone hstep => ?_
    simp only [hoistSite, bind_eq_ok, ensure_eq_ok] at hstep
    obtain ⟨_, -, _, hid, hmerge⟩ := hstep
    refine ⟨List.forall_mem_append.2 ⟨hdone.1, List.forall_mem_singleton.2 hid⟩, fun hnone => ?_⟩
    obtain ⟨hnone, hentry⟩ := List.forall_mem_append.1 hnone
    rw [List.forall_mem_singleton.1 hentry] at hmerge
    exact (Except.ok.inj hmerge).symm.trans (hdone.2 hnone)
  exact ⟨fun id site hsite => (hloop.1 (id, site) (mem_toList.2 hsite)).symm,
    fun hnone => hloop.2 fun entry hmem => hnone entry.1 entry.2 (mem_toList.1 hmem)⟩

/-- The checks of the loop over the base edges; it finds no evidence where none is embedded. -/
theorem hoistEdges_ok {edges : EdgeMap} {evidence evidence' : EvidenceMap}
    (h : edges.toList.foldlM hoistEdge evidence = .ok evidence') :
    KeyedBy GraphEdge.id edges ∧ ((∀ (id : String) (edge : GraphEdge),
      edges[id]? = some edge → edge.evidence = []) → evidence' = evidence) := by
  have hloop : (∀ entry ∈ edges.toList, entry.1 = entry.2.id) ∧
      ((∀ entry ∈ edges.toList, entry.2.evidence = []) → evidence' = evidence) := by
    refine foldlM_induction (motive := fun done t => (∀ entry ∈ done, entry.1 = entry.2.id) ∧
      ((∀ entry ∈ done, entry.2.evidence = []) → t = evidence)) h
      ⟨List.forall_mem_nil _, fun _ => rfl⟩ fun done entry t t' hdone hstep => ?_
    simp only [hoistEdge, bind_eq_ok, ensure_eq_ok] at hstep
    obtain ⟨_, -, _, hid, hmerge⟩ := hstep
    refine ⟨List.forall_mem_append.2 ⟨hdone.1, List.forall_mem_singleton.2 hid⟩, fun hnone => ?_⟩
    obtain ⟨hnone, hentry⟩ := List.forall_mem_append.1 hnone
    rw [List.forall_mem_singleton.1 hentry] at hmerge
    exact (Except.ok.inj hmerge).symm.trans (hdone.2 hnone)
  exact ⟨fun id edge hedge => (hloop.1 (id, edge) (mem_toList.2 hedge)).symm,
    fun hnone => hloop.2 fun entry hmem => hnone entry.1 entry.2 (mem_toList.1 hmem)⟩

/-- Nothing but the place of the evidence changes when a base is hoisted. -/
structure Hoisted (base g : DeltaGraph) : Prop where
  profiles : g.profiles = base.profiles
  nodes : g.nodes = base.nodes
  sites : g.sites = base.sites.map fun _ site => { site with evidence := [] }
  edges : g.edges = base.edges.map fun _ edge => { edge with evidence := [] }
  coverage : g.coverage = base.coverage

/-- Whether no site and no edge embeds evidence. -/
def DeltaGraph.Bare (g : DeltaGraph) : Prop :=
  (∀ (id : String) (site : DependencySite), g.sites[id]? = some site → site.evidence = []) ∧
    ∀ (id : String) (edge : GraphEdge), g.edges[id]? = some edge → edge.evidence = []

/-- A map is what it was when no value changes. -/
theorem map_eq_self {V : Type} {m : Std.ExtTreeMap String V} {f : V → V}
    (h : ∀ (k : String) (v : V), m[k]? = some v → f v = v) : m.map (fun _ v => f v) = m := by
  refine Std.ExtTreeMap.ext_getElem? fun k => ?_
  rw [Std.ExtTreeMap.getElem?_map]
  cases hk : m[k]? with
  | none => rfl
  | some v => rw [Option.map_some, h k v hk]

theorem hoisted_ok {g : DeltaGraph} (h : base.hoisted = .ok g) :
    Hoisted base g ∧ KeyedBy DependencySite.id g.sites ∧ KeyedBy GraphEdge.id g.edges ∧
      (base.Bare → g = base) := by
  simp only [DeltaGraph.hoisted, bind_eq_ok] at h
  obtain ⟨evidence, hsites, evidence', hedges, hg⟩ := h
  obtain rfl := Except.ok.inj hg
  obtain ⟨hsiteKeys, hbareSites⟩ := hoistSites_ok hsites
  obtain ⟨hedgeKeys, hbareEdges⟩ := hoistEdges_ok hedges
  refine ⟨⟨rfl, rfl, rfl, rfl, rfl⟩, ?_, ?_, ?_⟩
  · intro id site hsite
    rw [Std.ExtTreeMap.getElem?_map, Option.map_eq_some_iff] at hsite
    obtain ⟨site, hsite, rfl⟩ := hsite
    exact hsiteKeys id site hsite
  · intro id edge hedge
    rw [Std.ExtTreeMap.getElem?_map, Option.map_eq_some_iff] at hedge
    obtain ⟨edge, hedge, rfl⟩ := hedge
    exact hedgeKeys id edge hedge
  · rintro ⟨hnoneSites, hnoneEdges⟩
    rw [hbareEdges hnoneEdges, hbareSites hnoneSites,
      map_eq_self fun id site hsite => by rw [← hnoneSites id site hsite],
      map_eq_self fun id edge hedge => by rw [← hnoneEdges id edge hedge]]

theorem DeltaValidator.new_ok {base : DeltaBaseGraph} (h : DeltaValidator.new S base = .ok v) :
    base.toDeltaGraph.hoisted = .ok v.graph ∧ ValidatorValid v.graph v ∧ GraphValid v.graph ∧
      v.state = .awaitingStart ∧ v.lastMutationKey = none ∧ v.changes = {} ∧ v.events = [] := by
  simp only [DeltaValidator.new, bind_eq_ok, forM_eq_ok] at h
  obtain ⟨_, -, _, -, _, -, _, hnodes, g, hg, _, hfinal, hv⟩ := h
  obtain rfl := Except.ok.inj hv
  obtain ⟨hhoisted, hsiteKeys, hedgeKeys, -⟩ := hoisted_ok hg
  have hkeys : KeysMatch g := by
    refine ⟨fun id node hnode => ?_, hsiteKeys, hedgeKeys⟩
    rw [hhoisted.nodes] at hnode
    have hchecked := hnodes (id, node) (mem_toList.2 hnode)
    simp only [checkBaseNode, bind_eq_ok, ensure_eq_ok] at hchecked
    obtain ⟨_, -, hid⟩ := hchecked
    exact hid.symm
  exact ⟨hg, ⟨.start hkeys, by rintro _ _ ⟨⟩⟩, validateFinalState_ok hkeys hfinal, rfl, rfl, rfl, rfl⟩

theorem pushes_valid (hpush : events.foldlM (DeltaValidator.push S) v = .ok v')
    (h : ValidatorValid base v) : ValidatorValid base v' :=
  foldlM_induction (motive := fun _ v => ValidatorValid base v) hpush h
    fun _ _ _ _ hv hstep => (DeltaValidator.push_ok hstep).valid hv

theorem DeltaValidator.finish_ok (h : v.finish = .ok d) :
    ∃ started completed, v.state = .completed started completed ∧
      d.toDeltaChanges = v.changes ∧ d.scope = started.scope := by
  unfold DeltaValidator.finish at h
  split at h
  · rename_i started completed hstate
    obtain rfl := Except.ok.inj h
    exact ⟨started, completed, hstate, rfl, rfl⟩
  · cases h

/-- **The summary of a validated delta leads from its base to the validated graph**, which is valid
again; no record is both deleted and written. The base is the given one with the evidence that sites
and edges embed moved to the evidence map; where they embed none, the given one. -/
theorem validated_delta {base : DeltaBaseGraph} {v₀ : DeltaValidator}
    (hnew : DeltaValidator.new S base = .ok v₀)
    (hpush : events.foldlM (DeltaValidator.push S) v₀ = .ok v) (hfinish : v.finish = .ok d) :
    ∃ g, base.toDeltaGraph.hoisted = .ok g ∧ Hoisted base.toDeltaGraph g ∧
      (base.toDeltaGraph.Bare → g = base.toDeltaGraph) ∧
      d.toDeltaChanges.apply g = v.graph ∧ GraphValid v.graph ∧ d.toDeltaChanges.Disjoint := by
  obtain ⟨hg, hvalid₀, -⟩ := DeltaValidator.new_ok hnew
  have hvalid := pushes_valid hpush hvalid₀
  obtain ⟨started, completed, hstate, hchanges, -⟩ := DeltaValidator.finish_ok hfinish
  obtain ⟨hhoisted, -, -, hbare⟩ := hoisted_ok hg
  rw [hchanges]
  exact ⟨v₀.graph, hg, hhoisted, hbare, hvalid.summarizes.apply_eq,
    hvalid.final started completed hstate, hvalid.summarizes.disjoint⟩

end

/-! ### A delta -/

/-- The validator before a stream, the one after it, and the validated delta. -/
def streamed (S : StableIds) (base : DeltaBaseGraph) (events : List DeltaEvent) :
    Except ProtocolError (DeltaValidator × DeltaValidator × ValidatedDelta) := do
  let v₀ ← DeltaValidator.new S base
  let v ← events.foldlM (DeltaValidator.push S) v₀
  let d ← v.finish
  return (v₀, v, d)

theorem streamed_ok {S : StableIds} {base : DeltaBaseGraph} {events : List DeltaEvent}
    (herror : errorOf (streamed S base events) = none) : ∃ v₀ v d,
      DeltaValidator.new S base = .ok v₀ ∧ events.foldlM (DeltaValidator.push S) v₀ = .ok v ∧
      v.finish = .ok d ∧ streamed S base events = .ok (v₀, v, d) := by
  obtain ⟨r, hr⟩ := exists_ok_of_errorOf herror
  obtain ⟨v₀, hnew, v, hpush, d, hfinish, hd⟩ : ∃ v₀, DeltaValidator.new S base = .ok v₀ ∧
      ∃ v, events.foldlM (DeltaValidator.push S) v₀ = .ok v ∧
        ∃ d, v.finish = .ok d ∧ r = (v₀, v, d) := by
    simp only [streamed, bind_eq_ok] at hr
    obtain ⟨v₀, hnew, v, hpush, d, hfinish, hd⟩ := hr
    exact ⟨v₀, hnew, v, hpush, d, hfinish, (Except.ok.inj hd).symm⟩
  exact ⟨v₀, v, d, hnew, hpush, hfinish, hr.trans (congrArg Except.ok hd)⟩

namespace Sample

open Json

/-- Sixty-four zeros. -/
def zeros : String := String.ofList (List.replicate 64 '0')

def snapshotId : String := "snapshot:sha256:" ++ zeros

def emptyCoverage : Coverage := ⟨0, 0, 0, 0, 0, 0, 0, 0, 0, 0, false, [], []⟩

/-- A file outside of the scope. -/
def file : GraphNode := ⟨"file:sha256:" ++ zeros, "file", "b.txt", none, ∅⟩

/-- The same file with a property that names a path of the scope. -/
def claimed : GraphNode := { file with
  properties := (∅ : Properties).insert "path" (.string "a.txt") }

def base : DeltaBaseGraph where
  profiles := ∅
  nodes := (∅ : NodeMap).insert file.id file
  sites := ∅
  edges := ∅
  evidence := ∅
  coverage := (∅ : CoverageMap).insert .aggregate (.aggregate emptyCoverage)
  snapshotId := snapshotId
  graphDigest := zeros

def scope : DeltaScope := ⟨["a.txt"], [], [], [], ["worker"]⟩

def common (seq : Nat) : CommonFields := ⟨protocolVersion, "scan", "worker", "1", seq⟩

/-- SHA-256 on the identity of the delta below, the only text that is hashed here. -/
def stableIds : StableIds where
  floatText := .plain
  sha256 _ := ⟨[89, 64, 75, 91, 152, 25, 89, 254, 62, 107, 234, 148, 188, 180, 122, 171, 87, 244,
    143, 67, 220, 100, 138, 174, 94, 91, 185, 79, 54, 122, 56, 172], rfl⟩

def deltaId : String :=
  "delta:sha256:59404b5b981959fe3e6bea94bcb47aab57f48f43dc648aae5e5bb94f367a38ac"

/-- A stream with one mutation. -/
def events : List DeltaEvent :=
  [.deltaStarted ⟨common 1, deltaContractVersion, deltaId, snapshotId, zeros, scope⟩,
    .mutation (common 2) (.nodeUpsert claimed),
    .deltaCompleted ⟨common 3, deltaContractVersion, deltaId, 1, zeros⟩]

def validated : Except ProtocolError (DeltaValidator × DeltaValidator × ValidatedDelta) :=
  streamed stableIds base events

theorem validated_ok : ∃ v₀ v d, DeltaValidator.new stableIds base = .ok v₀ ∧
    events.foldlM (DeltaValidator.push stableIds) v₀ = .ok v ∧ v.finish = .ok d ∧
    validated = .ok (v₀, v, d) :=
  streamed_ok (by decide +kernel)

end Sample

namespace ReplacedSample

open Json Sample

def idOf (entity : String) (digit : Char) : String :=
  entity ++ ":sha256:" ++ String.ofList (List.replicate 64 digit)

def source : GraphNode := ⟨idOf "file" 'a', "file", "a.txt", none, ∅⟩

/-- The source and its edge to itself. -/
def edge : GraphEdge where
  id := idOf "edge" 'd'
  source := source.id
  target := source.id
  kind := "contains"
  siteId := none
  phase := .semantic
  environment := none
  profileId := "p"
  condition := .all []
  resolutionStatus := .resolved
  precision := .exact
  generated := false
  evidence := []

def evidence : Evidence where
  kind := .semantic
  extractor := "worker"
  extractorVersion := "1"
  path := some "a.txt"
  startLine := some 1
  startColumn := some 1
  endLine := some 1
  endColumn := some 9
  detail := none
  properties := ∅

def key : DeltaEvidenceKey := ⟨.edge, edge.id, 0⟩

def coverage : Coverage := { emptyCoverage with profiles := 1 }

def base : DeltaBaseGraph where
  profiles := (∅ : IdSet).insert "p"
  nodes := (∅ : NodeMap).insert source.id source
  sites := ∅
  edges := (∅ : EdgeMap).insert edge.id edge
  evidence := (∅ : EvidenceMap).insert key evidence
  coverage := indexed DeltaCoverage.key [.aggregate coverage, .profile "p" coverage]
  snapshotId := snapshotId
  graphDigest := zeros

/-- SHA-256 on the identity of the delta below, the only text that is hashed here. -/
def stableIds : StableIds where
  floatText := .plain
  sha256 _ := ⟨[87, 116, 60, 215, 50, 153, 156, 49, 237, 158, 214, 247, 232, 252, 168, 147, 24, 207, 47, 240, 84, 132,
    112, 170, 32, 223, 81, 126, 88, 30, 217, 191], rfl⟩

def deltaId : String :=
  "delta:sha256:57743cd732999c31ed9ed6f7e8fca89318cf2ff0548470aa20df517e581ed9bf"

/-- The edge goes with its evidence, and the source gets a name. -/
def events : List DeltaEvent :=
  [.deltaStarted ⟨common 1, deltaContractVersion, deltaId, snapshotId, zeros,
      ⟨["a.txt"], [], [], [], ["worker"]⟩⟩,
    .mutation (common 2) (.evidenceDelete key),
    .mutation (common 3) (.edgeDelete edge.id),
    .mutation (common 4) (.nodeUpsert { source with displayName := some "a" }),
    .deltaCompleted ⟨common 5, deltaContractVersion, deltaId, 3, zeros⟩]

end ReplacedSample

theorem validated_delta_replaced : ∃ v₀ v d,
    streamed ReplacedSample.stableIds ReplacedSample.base ReplacedSample.events = .ok (v₀, v, d) ∧
    d.toDeltaChanges.apply v₀.graph = v.graph ∧ GraphValid v.graph ∧
    d.toDeltaChanges.Disjoint := by
  obtain ⟨v₀, v, d, hnew, hpush, hfinish, hstreamed⟩ := @streamed_ok ReplacedSample.stableIds
    ReplacedSample.base ReplacedSample.events (by decide +kernel)
  obtain ⟨g, hg, -, -, happly, hvalid, hdisjoint⟩ := validated_delta hnew hpush hfinish
  obtain rfl := Except.ok.inj (hg.symm.trans (DeltaValidator.new_ok hnew).1)
  exact ⟨v₀, v, d, hstreamed, happly, hvalid, hdisjoint⟩

end Protocol
