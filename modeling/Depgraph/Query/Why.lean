import Depgraph.Query.Traverse

/-!
# Why one node depends on another

`why_filtered`, from the nodes that its selectors have been resolved to: a breadth-first search that
links every node it finds to the edge it was found through, stops at the target, and follows the links
back. `whyFiltered_exact` says that this is a shortest path.
-/

namespace Query

open Json Protocol Impact OrderedMap Metered Std Breadth Fallible
open Store hiding GraphSnapshot

structure WhyResult where
  source : NodeRecord
  target : NodeRecord
  pathFound : Bool
  steps : List PathStep

def maxInteractiveQueryTraversal : Nat := 1000000

/-! ### The search -/

/-- What the search keeps beside its queue. -/
structure WhySearch where
  seen : ExtTreeSet String
  predecessor : ExtTreeMap String EdgeRecord

/-- The search with one more node. -/
def WhySearch.enter (kept : WhySearch) (edge : EdgeRecord) : WhySearch :=
  ⟨kept.seen.insert edge.target, kept.predecessor.insert edge.target edge⟩

/-- The body of the loop. The target ends the search, since its queue is cleared. -/
def whyEdge (target _nodeId : String) (search : Queued String WhySearch) (edge : EdgeRecord) :
    Except WhySearch (Queued String WhySearch) :=
  if edge.target ∈ search.kept.seen then .ok search
  else if edge.target = target then .error (search.kept.enter edge)
  else .ok ⟨search.queue ++ [edge.target], search.kept.enter edge⟩

/-- The source is seen, and nothing else. -/
def WhySearch.start (source : String) : WhySearch := ⟨(∅ : ExtTreeSet String).insert source, ∅⟩

/-- The search, whichever way it ends. -/
def whySearch (listed : String → List EdgeRecord) (source target : String) (fuel : Nat) :
    WhySearch :=
  match loop listed (whyEdge target) fuel ⟨[source], .start source⟩ with
  | .error kept => kept
  | .ok search => search.kept

/-- The loop that follows the links back, with the number of steps that it may still take. -/
def reconstruct (predecessor : ExtTreeMap String EdgeRecord) (source : String) :
    Nat → String → List EdgeRecord → Except QueryError (List EdgeRecord)
  | 0, current, path =>
    if current = source then .ok path else .error .queryPostprocessingExhausted
  | remaining + 1, current, path =>
    if current = source then .ok path
    else
      match predecessor[current]? with
      | none => .error (.message ("path reconstruction failed at " ++ current))
      | some edge => reconstruct predecessor source remaining edge.source (edge :: path)

/-- `materialize_path_steps_bounded_cancellable`. -/
def materializePathSteps (F : FloatText) (maximum : Nat) (snapshot : GraphSnapshot)
    (filter : GraphQueryFilter) (edges : List EdgeRecord) : Except QueryError (List PathStep) :=
  if maxDependencyPathSteps < edges.length then .error .queryPostprocessingExhausted
  else runPathSteps do
    let projection ← newMaterializer F maximum snapshot filter edges
    edges.mapM (projection.materialize F maximum)

/-- The search in a snapshot. -/
def searchSnapshot (snapshot : GraphSnapshot) (filter : GraphQueryFilter)
    (source target : String) : WhySearch :=
  whySearch (listedEdges snapshot false filter .unrestricted maxInteractiveQueryTraversal) source
    target (snapshot.edges.length + 1)

/-- `why_filtered`, behind the selectors. -/
def whyFiltered (F : FloatText) (snapshot : GraphSnapshot) (source target : NodeRecord)
    (filter : GraphQueryFilter) : Except QueryError WhyResult :=
  if source.id = target.id then .ok ⟨source, target, true, []⟩
  else if (adjacency snapshot false filter .unrestricted maxInteractiveQueryTraversal).2 = false then
    .error .queryPostprocessingExhausted
  else if target.id ∉ (searchSnapshot snapshot filter source.id target.id).predecessor then
    .ok ⟨source, target, false, []⟩
  else do
    let path ← reconstruct (searchSnapshot snapshot filter source.id target.id).predecessor source.id
      maxDependencyPathSteps target.id []
    let steps ← materializePathSteps F maxGraphServicePreprocessingWorkItems snapshot filter path
    return ⟨source, target, true, steps⟩

/-! ### The links -/

section Search

variable {listed : String → List EdgeRecord} {source target : String} {edges : List EdgeRecord}

/-- An edge that is listed under the first node and leads to the second. -/
def Via (listed : String → List EdgeRecord) (edge : EdgeRecord) (k y : String) : Prop :=
  edge ∈ listed k ∧ edge.target = y

/-- The links of a search that has found a shortest path to the target, if there is a path. -/
structure Explained (listed : String → List EdgeRecord) (source target : String)
    (depth : String → Option Nat) (predecessor : ExtTreeMap String EdgeRecord) : Prop where
  links : Links (Via listed) source depth (predecessor[·]?)
  distance : ∀ n, depth target = some n →
    Search.IsDistance (Leads listed EdgeRecord.target) (· = source) target n
  found : ∀ n, Search.Walk (Leads listed EdgeRecord.target) n source target →
    ∃ m, depth target = some m

theorem whyEdge_cases {k : String} {search : Queued String WhySearch} {edge : EdgeRecord} :
    (edge.target ∈ search.kept.seen ∧ whyEdge target k search edge = .ok search) ∨
      edge.target ∉ search.kept.seen ∧
        ((edge.target = target ∧ whyEdge target k search edge = .error (search.kept.enter edge)) ∨
          edge.target ≠ target ∧ whyEdge target k search edge =
            .ok ⟨search.queue ++ [edge.target], search.kept.enter edge⟩) := by
  unfold whyEdge
  by_cases hseen : edge.target ∈ search.kept.seen
  · exact Or.inl ⟨hseen, if_pos hseen⟩
  · rw [if_neg hseen]
    by_cases htarget : edge.target = target
    · exact Or.inr ⟨hseen, Or.inl ⟨htarget, if_pos htarget⟩⟩
    · exact Or.inr ⟨hseen, Or.inr ⟨htarget, if_neg htarget⟩⟩

/-- Entering the end of an edge links it to the node in turn. -/
theorem links_enterEdge {depth : String → Option Nat} {kept : WhySearch} {k : String} {n : Nat}
    {edge : EdgeRecord} (h : Links (Via listed) source depth (kept.predecessor[·]?))
    (hk : depth k = some n) (hnew : depth edge.target = none) (hedge : edge ∈ listed k) :
    Links (Via listed) source (enter depth edge.target (n + 1))
      ((kept.enter edge).predecessor[·]?) := by
  refine h.enter hk hnew ⟨hedge, rfl⟩ ?_ fun y hy => ?_
  · rw [WhySearch.enter, getElem?_insert, if_pos rfl]
  · rw [WhySearch.enter, getElem?_insert, if_neg hy]

/-- The body of the loop follows the rules of a search, and keeps the links. -/
theorem why_rules : Rules listed EdgeRecord.target (fun kept k => k ∈ kept.seen) (whyEdge target)
    source (fun depth _ kept => Links (Via listed) source depth (kept.predecessor[·]?))
    (fun depth _ _ _ kept => Links (Via listed) source depth (kept.predecessor[·]?))
    (fun kept => ∃ depth, Explained listed source target depth kept.predecessor) where
  enters := by
    intro k edge search search' _ hvisit
    rcases @whyEdge_cases target k search edge with ⟨hseen, hok⟩ | ⟨hnew, ⟨-, herror⟩ | ⟨-, hok⟩⟩
    · rw [hok] at hvisit
      obtain rfl := Except.ok.inj hvisit
      exact .known hseen rfl fun _ => Iff.rfl
    · rw [herror] at hvisit
      cases hvisit
    · rw [hok] at hvisit
      obtain rfl := Except.ok.inj hvisit
      refine .new hnew rfl fun y => ?_
      rw [WhySearch.enter, mem_insert, or_comm]
  pop h := h
  known := by
    intro depth done k looked edge search search' hlinks _ _ hseen hvisit
    rcases @whyEdge_cases target k search edge with ⟨-, hok⟩ | ⟨hnew, -⟩
    · rw [hok] at hvisit
      obtain rfl := Except.ok.inj hvisit
      exact hlinks
    · exact absurd hseen hnew
  new := by
    intro depth done k looked edge search search' n hlinks _ hpart hk hnone hnew hvisit
    rcases @whyEdge_cases target k search edge with ⟨hseen, -⟩ | ⟨-, ⟨-, herror⟩ | ⟨-, hok⟩⟩
    · exact absurd hseen hnew
    · rw [herror] at hvisit
      cases hvisit
    · rw [hok] at hvisit
      obtain rfl := Except.ok.inj hvisit
      exact links_enterEdge hlinks hk hnone (hpart.subset (by simp))
  finish h := h
  stop := by
    intro depth queue done k n looked edge search kept htraced hturn hlinks _ hpart hvisit
    have hedge : edge ∈ listed k := hpart.subset (by simp)
    rcases @whyEdge_cases target k search edge with ⟨-, hok⟩ | ⟨hnew, ⟨rfl, herror⟩ | ⟨-, hok⟩⟩
    · rw [hok] at hvisit
      cases hvisit
    · rw [herror] at hvisit
      obtain rfl := Except.error.inj hvisit
      have hnone : depth edge.target = none := by
        rw [htraced.seen_iff, not_exists] at hnew
        exact Option.eq_none_iff_forall_ne_some.2 hnew
      refine ⟨enter depth edge.target (n + 1), links_enterEdge hlinks hturn.here hnone hedge, fun m hm => ?_,
        fun _ _ => ⟨n + 1, if_pos rfl⟩⟩
      rw [enter, if_pos rfl] at hm
      rw [← Option.some.inj hm]
      exact hturn.distance_new (fun l hl => absurd hl (by simp)) ⟨edge, hedge, rfl⟩ hnone
    · rw [hok] at hvisit
      cases hvisit

/-- **The links of the search lead back along a shortest path.** -/
theorem whySearch_explained (hedges : ∀ k, ∀ edge ∈ listed k, edge ∈ edges) :
    ∃ depth, Explained listed source target depth
      (whySearch listed source target (edges.length + 1)).predecessor := by
  have hstart : Between listed EdgeRecord.target (fun (kept : WhySearch) k => k ∈ kept.seen) source
      (fun depth _ kept => Links (Via listed) source depth (kept.predecessor[·]?))
      ⟨[source], .start source⟩ := by
    refine Between.start (fun k => ?_) ?_
    · rw [WhySearch.start, mem_insert, or_iff_left ExtTreeSet.not_mem_empty]
    · simp only [WhySearch.start, ExtTreeMap.getElem?_empty]
      exact Links.init
  obtain ⟨hstops, hends⟩ := (@why_rules listed source target).loop hedges hstart
    (pending_start_le _ _ _ _ _)
  unfold whySearch
  cases hloop : loop listed (whyEdge target) (edges.length + 1) ⟨[source], WhySearch.start source⟩ with
  | error kept => exact hstops kept hloop
  | ok search =>
    obtain ⟨hqueue, depth, queue, done, htraced, hinv, hlinks⟩ := hends search hloop
    obtain rfl : queue = [] := by simpa [hqueue] using htraced.queue_eq
    refine ⟨depth, hlinks, fun n hn => (hinv.depth_iff.1 hn).1, fun n hwalk => ?_⟩
    exact hinv.found_iff.2 ⟨n, ⟨source, rfl, hwalk⟩, fun l hl => absurd hl (by simp)⟩

/-! ### The way back -/

/-- A path back: its edges are listed, and it passes one node of every depth. -/
structure LedBack (listed : String → List EdgeRecord) (source : String)
    (depth : String → Option Nat) (path : List EdgeRecord) (current : String) : Prop where
  leads : EdgePath source path current
  known : ∀ edge ∈ path, ∃ k, edge ∈ listed k
  depths : (source :: path.map EdgeRecord.target).map depth = (List.range (path.length + 1)).map some

theorem LedBack.nodup {depth : String → Option Nat} {path : List EdgeRecord} {current : String}
    (h : LedBack listed source depth path current) :
    (source :: path.map EdgeRecord.target).Nodup := by
  refine List.Nodup.of_map depth ?_
  rw [h.depths]
  exact List.nodup_range.map (Option.some_injective _)

/-- **Following the links back ends at the source**, unless the limit is too low. -/
theorem reconstruct_eq (hsource : ∀ k, ∀ edge ∈ listed k, edge.source = k)
    {depth : String → Option Nat} {predecessor : ExtTreeMap String EdgeRecord}
    (hlinks : Links (Via listed) source depth (predecessor[·]?)) {current : String} {n : Nat}
    (h : depth current = some n) :
    ∃ path, LedBack listed source depth path current ∧ path.length = n ∧ ∀ remaining behind,
      reconstruct predecessor source remaining current behind =
        if n ≤ remaining then .ok (path ++ behind) else .error .queryPostprocessingExhausted := by
  induction n generalizing current with
  | zero =>
    rcases hlinks.linked current 0 h with ⟨rfl, -⟩ | ⟨edge, k, m, hm, -⟩
    · refine ⟨[], ⟨.nil _, by simp, by simp [h]⟩, rfl, fun remaining behind => ?_⟩
      rw [if_pos (Nat.zero_le _)]
      cases remaining <;> exact if_pos rfl
    · omega
  | succ n ih =>
    rcases hlinks.linked current (n + 1) h with ⟨-, hzero⟩ | ⟨edge, k, m, hm, hlink, hvia, hk⟩
    · omega
    obtain rfl : n = m := Nat.succ.inj hm
    obtain ⟨hedge, rfl⟩ := hvia
    have hfrom := hsource k edge hedge
    obtain ⟨path, hback, hlength, hpath⟩ := ih hk
    have hother : edge.target ≠ source := by
      intro hroot
      rw [hroot, hlinks.start] at h
      cases h
    refine ⟨path ++ [edge], ⟨hback.leads.snoc hfrom, fun other hmem => ?_, ?_⟩, ?_,
      fun remaining behind => ?_⟩
    · rcases List.mem_append.1 hmem with hmem | hmem
      · exact hback.known other hmem
      · exact ⟨k, List.mem_singleton.1 hmem ▸ hedge⟩
    · rw [List.map_append, ← List.cons_append, List.map_append, hback.depths, List.length_append,
        hlength]
      simp [List.range_succ, h]
    · rw [List.length_append, hlength, List.length_singleton]
    · cases remaining with
      | zero => rw [reconstruct, if_neg hother, if_neg (Nat.not_succ_le_zero n)]
      | succ remaining =>
        have hlink : predecessor[edge.target]? = some edge := hlink
        rw [reconstruct, if_neg hother, hlink]
        simp only [hfrom, hpath, Nat.add_le_add_iff_right, List.append_assoc, List.singleton_append]

end Search

/-! ### The result -/

section Snapshot

variable {snapshot : GraphSnapshot} {filter : GraphQueryFilter} {maxInspection : Nat}

theorem listed_source {k : String} {edge : EdgeRecord}
    (h : edge ∈ listedEdges snapshot false filter .unrestricted maxInspection k) :
    edge.source = k := (adjacency_sound h).2

/-- When all edges have been inspected, the search follows the edges that pass, whether or not
identities occur twice. -/
theorem leads_target_eq
    (hcomplete : (adjacency snapshot false filter .unrestricted maxInspection).2 = true) :
    Leads (listedEdges snapshot false filter .unrestricted maxInspection) EdgeRecord.target =
      Follows snapshot false filter .unrestricted := by
  funext k y
  refine propext ⟨?_, ?_⟩
  · rintro ⟨edge, hedge, rfl⟩
    obtain ⟨hpasses, rfl⟩ := adjacency_sound hedge
    exact ⟨edge, hpasses, rfl⟩
  · rintro ⟨edge, hpasses, hends⟩
    obtain ⟨rfl, rfl⟩ := Prod.mk.inj hends
    exact adjacency_covers hcomplete hpasses

/-- Every edge of a path has its step. -/
theorem materializePathSteps_ok {F : FloatText} {maximum : Nat} {edges : List EdgeRecord}
    {steps : List PathStep} (h : materializePathSteps F maximum snapshot filter edges = .ok steps) :
    steps.map PathStep.edge = edges := by
  unfold materializePathSteps at h
  split_ifs at h
  have hsteps (projection : PathStepProjection) :
      Ensures (edges.mapM (projection.materialize F maximum))
        (List.Forall₂ (fun edge step => step.edge = edge) edges) :=
    Ensures.mapM_forall₂ fun _ _ => materialize_edge
  exact runPathSteps_ok (P := fun steps => steps.map PathStep.edge = edges)
    (Ensures.after fun projection => (hsteps projection).mono fun _ => map_edge_eq) h

/-- What `why_filtered` says about two nodes. -/
structure WhyExact (snapshot : GraphSnapshot) (filter : GraphQueryFilter) (source target : String)
    (steps : List PathStep) : Prop where
  path : EdgePath source (steps.map PathStep.edge) target
  passes : ∀ step ∈ steps, Passes snapshot filter .unrestricted step.edge
  shortest : Search.IsDistance (Follows snapshot false filter .unrestricted) (· = source) target
    steps.length
  nodup : (source :: steps.map (·.edge.target)).Nodup

/-- **`why_filtered` finds a path exactly if there is one, and it is a shortest path**; following the
links back ends, with the path or at its limit. -/
theorem whyFiltered_exact (F : FloatText) (snapshot : GraphSnapshot) (filter : GraphQueryFilter)
    (source target : NodeRecord) (hdistinct : source.id ≠ target.id) :
    (target.id ∈ (searchSnapshot snapshot filter source.id target.id).predecessor →
      ∃ path, ∀ remaining, reconstruct (searchSnapshot snapshot filter source.id
          target.id).predecessor source.id remaining target.id [] =
        if path.length ≤ remaining then .ok path else .error .queryPostprocessingExhausted) ∧
    ∀ result, whyFiltered F snapshot source target filter = .ok result →
      (result.pathFound = true ↔
        Reachable snapshot false filter .unrestricted source.id target.id) ∧
      (result.pathFound = true → WhyExact snapshot filter source.id target.id result.steps) := by
  obtain ⟨depth, hexplained⟩ := @whySearch_explained
    (listedEdges snapshot false filter .unrestricted maxInteractiveQueryTraversal) source.id target.id
    snapshot.edges fun _ _ hedge => (adjacency_sound hedge).1.1
  change Explained _ _ _ depth (searchSnapshot snapshot filter source.id target.id).predecessor
    at hexplained
  have hfound : target.id ∈ (searchSnapshot snapshot filter source.id target.id).predecessor ↔
      ∃ n, depth target.id = some n := by
    rw [ExtTreeMap.mem_iff_isSome_getElem?, Option.isSome_iff_exists]
    constructor
    · rintro ⟨edge, hedge⟩
      obtain ⟨m, hm⟩ := hexplained.links.found _ _ hedge
      exact ⟨m + 1, hm⟩
    · rintro ⟨n, hn⟩
      rcases hexplained.links.linked _ _ hn with ⟨hsame, -⟩ | ⟨edge, -, -, -, hedge, -⟩
      · exact absurd hsame.symm hdistinct
      · exact ⟨edge, hedge⟩
  constructor
  · intro hmem
    obtain ⟨n, hn⟩ := hfound.1 hmem
    obtain ⟨path, -, rfl, hpath⟩ :=
      reconstruct_eq (fun _ _ => listed_source) hexplained.links hn
    exact ⟨path, fun remaining => (hpath remaining []).trans (by rw [List.append_nil])⟩
  · intro result h
    unfold whyFiltered at h
    rw [if_neg hdistinct] at h
    split_ifs at h with hincomplete hmem
    · rw [Bool.not_eq_false] at hincomplete
      obtain ⟨n, hn⟩ := hfound.1 hmem
      obtain ⟨path, hback, hlength, hpath⟩ :=
        reconstruct_eq (fun _ _ => listed_source) hexplained.links hn
      have hdistance := hexplained.distance n hn
      rw [leads_target_eq hincomplete] at hdistance
      simp only [bind_eq_ok] at h
      obtain ⟨edges, hedges, steps, hsteps, hresult⟩ := h
      obtain rfl := Except.ok.inj hresult
      rw [hpath, List.append_nil] at hedges
      split_ifs at hedges
      obtain rfl := Except.ok.inj hedges
      have hsteps := materializePathSteps_ok hsteps
      have hcount : steps.length = n := by rw [← hlength, ← hsteps, List.length_map]
      refine ⟨iff_of_true rfl ?_, fun _ => ⟨?_, fun step hstep => ?_, ?_, ?_⟩⟩
      · obtain ⟨-, rfl, hwalk⟩ := hdistance.reached
        exact ⟨n, hwalk⟩
      · rw [hsteps]
        exact hback.leads
      · obtain ⟨k, hlisted⟩ := hback.known step.edge (hsteps ▸ List.mem_map_of_mem hstep)
        exact (adjacency_sound hlisted).1
      · exact hcount ▸ hdistance
      · have hnodup := hback.nodup
        rwa [← hsteps, List.map_map] at hnodup
    · rw [Bool.not_eq_false] at hincomplete
      obtain rfl := Except.ok.inj h
      refine ⟨iff_of_false (by simp) ?_, fun hpath => (by cases hpath)⟩
      rintro ⟨n, hwalk⟩
      rw [← leads_target_eq hincomplete] at hwalk
      exact hmem (hfound.2 (hexplained.found n hwalk))

end Snapshot

namespace WhySample

/-- Why one file of a circle of three depends on another. -/
def result : Except QueryError WhyResult :=
  whyFiltered .plain Sample.snapshot (Sample.file "a" "a.rs") (Sample.file "b" "b.rs")
    TraverseSample.everything

theorem result_found : result.toOption.map WhyResult.pathFound = some true := by decide +kernel

end WhySample

open WhySample in
theorem whyFiltered_exact_circle :
    ∃ found, result = .ok found ∧
      WhyExact Sample.snapshot TraverseSample.everything "a" "b" found.steps := by
  have hfound := result_found
  cases h : result with
  | error e =>
    rw [h] at hfound
    cases hfound
  | ok found =>
    rw [h] at hfound
    have hfound : found.pathFound = true := Option.some.inj hfound
    obtain ⟨-, hexact⟩ := whyFiltered_exact .plain Sample.snapshot TraverseSample.everything
      (Sample.file "a" "a.rs") (Sample.file "b" "b.rs") (by decide)
    exact ⟨found, rfl, (hexact found h).2 hfound⟩

end Query
