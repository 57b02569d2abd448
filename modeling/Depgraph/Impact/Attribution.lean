import Depgraph.Impact.Mapping
import Depgraph.Impact.Traversal
import Mathlib.Data.String.Basic

/-!
# Changed paths of the nodes

`changed_path_seeds` and `attribute_changed_paths_with_limit`: for every changed path, a second search
from the seeds of this path, inside the nodes that the traversal has found. `attribution_mem` says
which paths a node gets.
-/

namespace Impact

open Json Protocol Store OrderedMap Metered Std

/-! ### Seeds -/

/-- The seeds of each changed path. -/
abbrev PathSeeds : Type := ExtTreeMap String (ExtTreeSet String)

/-- Notes a seed of a path. -/
def insertPathSeed (seeds : ExtTreeSet String) (path : String) (seedsByPath : PathSeeds)
    (nodeId : String) : PathSeeds :=
  if nodeId ∈ seeds then
    seedsByPath.alter path fun ids => some ((ids.getD ∅).insert nodeId)
  else seedsByPath

def changedPathSeeds (mappings : List ChangedNodeMapping) (seeds : ExtTreeSet String) : PathSeeds :=
  mappings.foldl (fun seedsByPath mapping =>
    match changedPathLabel mapping.change with
    | none => seedsByPath
    | some path => mapping.correlatedNodeIds.foldl (insertPathSeed seeds path) seedsByPath) ∅

/-- A changed path has the node among the nodes it is mapped to. -/
def MapsTo (mappings : List ChangedNodeMapping) (path nodeId : String) : Prop :=
  ∃ mapping ∈ mappings, changedPathLabel mapping.change = some path ∧
    nodeId ∈ mapping.correlatedNodeIds

theorem mem_insertPathSeed {seeds : ExtTreeSet String} {path key nodeId other : String}
    {seedsByPath : PathSeeds} :
    other ∈ (insertPathSeed seeds path seedsByPath nodeId)[key]?.getD ∅ ↔
      other ∈ seedsByPath[key]?.getD ∅ ∨ (key = path ∧ other = nodeId ∧ other ∈ seeds) := by
  unfold insertPathSeed
  split_ifs with hseed
  · rw [getElem?_alter]
    by_cases hkey : key = path
    · rw [if_pos hkey, Option.getD_some, mem_insert, hkey]
      constructor
      · rintro (rfl | h)
        · exact Or.inr ⟨rfl, rfl, hseed⟩
        · exact Or.inl h
      · rintro (h | ⟨-, h, -⟩)
        · exact Or.inr h
        · exact Or.inl h
    · simp [hkey]
  · refine (or_iff_left ?_).symm
    rintro ⟨-, rfl, h⟩
    exact hseed h

theorem mem_foldl_insertPathSeed {seeds : ExtTreeSet String} {path key other : String}
    {nodeIds : List String} {seedsByPath : PathSeeds} :
    other ∈ (nodeIds.foldl (insertPathSeed seeds path) seedsByPath)[key]?.getD ∅ ↔
      other ∈ seedsByPath[key]?.getD ∅ ∨ (key = path ∧ other ∈ nodeIds ∧ other ∈ seeds) := by
  induction nodeIds generalizing seedsByPath with
  | nil => simp
  | cons nodeId nodeIds ih =>
    rw [List.foldl_cons, ih, mem_insertPathSeed, List.mem_cons, or_assoc]
    tauto

/-- The seeds of a path are the seeds it is mapped to. -/
theorem mem_changedPathSeeds {mappings : List ChangedNodeMapping} {seeds : ExtTreeSet String}
    {path nodeId : String} : nodeId ∈ (changedPathSeeds mappings seeds)[path]?.getD ∅ ↔
      MapsTo mappings path nodeId ∧ nodeId ∈ seeds := by
  unfold changedPathSeeds MapsTo
  induction mappings using List.reverseRecOn with
  | nil => simp
  | append_singleton mappings mapping ih =>
    rw [List.foldl_append, List.foldl_cons, List.foldl_nil]
    simp only [List.mem_append, List.mem_singleton, or_and_right, exists_or, exists_eq_left]
    rw [← ih]
    cases hlabel : changedPathLabel mapping.change with
    | none => simp
    | some label =>
      simp only [mem_foldl_insertPathSeed, Option.some.injEq]
      tauto

/-! ### The search of a path -/

/-- `ChangedPathAttributionWork`. -/
abbrev AttributionWork : Type → Type := Work Nat ImpactError

def AttributionWork.step (maximum : Nat) : AttributionWork Unit :=
  Metered.step maximum (.changedPathAttributionExhausted maximum)

/-- The state of the search of a path. -/
structure AttributionSearch where
  queue : List (String × Nat)
  seen : ExtTreeSet String

/-- Enters a node at a depth if it is among these. -/
def enterScoped (maximum : Nat) (scopedIds : ExtTreeSet String) (depth : Nat)
    (search : AttributionSearch) (nodeId : String) : AttributionWork AttributionSearch := do
  AttributionWork.step maximum
  if nodeId ∈ scopedIds ∧ nodeId ∉ search.seen then
    return ⟨search.queue ++ [(nodeId, depth)], search.seen.insert nodeId⟩
  else return search

/-- The paths that have reached each node. -/
abbrev ReachedBy : Type := ExtTreeMap String (ExtTreeSet String)

/-- Notes that the path has reached a node. -/
def insertReached (reached : ReachedBy) (nodeId path : String) : ReachedBy :=
  reached.alter nodeId fun paths => some ((paths.getD ∅).insert path)

section Loops

variable (adjacency : Adjacency) (filters : ImpactFilters) (maximum : Nat)
  (scopedIds : ExtTreeSet String)

/-- The loop over the queue of a path. -/
def attributionLoop (path : String) : Nat → AttributionSearch → ReachedBy →
    AttributionWork ReachedBy
  | 0, _, reached => return reached
  | fuel + 1, search, reached =>
    match search.queue with
    | [] => return reached
    | (nodeId, depth) :: queue => do
      AttributionWork.step maximum
      if atLimit filters depth then
        attributionLoop path fuel { search with queue } (insertReached reached nodeId path)
      else
        let search ← (adjacency.of nodeId).foldlM
          (fun search edge => enterScoped maximum scopedIds (depth + 1) search edge.source)
          { search with queue }
        attributionLoop path fuel search (insertReached reached nodeId path)

/-- The search of a path. A turn of its loop takes a node from the queue, and a node is entered as a
seed or as the source of an edge. -/
def attributePath (reached : ReachedBy) (entry : String × ExtTreeSet String) :
    AttributionWork ReachedBy := do
  let search ← entry.2.toList.foldlM (enterScoped maximum scopedIds 0) ⟨[], ∅⟩
  attributionLoop adjacency filters maximum scopedIds entry.1
    (entry.2.toList.length + adjacency.edges.length) search reached

/-- The paths of a node as a list. -/
def materializePaths (attribution : ExtTreeMap String (List String))
    (entry : String × ExtTreeSet String) : AttributionWork (ExtTreeMap String (List String)) := do
  let materialized ← entry.2.toList.mapM fun path => do
    AttributionWork.step maximum
    return path
  return attribution.insert entry.1 materialized

def attributeChangedPathsWithLimit (seedsByPath : PathSeeds) :
    Except ImpactError (ExtTreeMap String (List String)) :=
  Metered.run (do
    let reached ← seedsByPath.toList.foldlM (attributePath adjacency filters maximum scopedIds) ∅
    reached.toList.foldlM (materializePaths maximum) ∅) 0

end Loops

/-! ### What the search of a path reaches -/

/-- An edge leads from one node to another inside the scope. -/
def Adjacency.LeadsWithin (adjacency : Adjacency) (scopedIds : ExtTreeSet String) (k y : String) :
    Prop :=
  adjacency.Leads k y ∧ y ∈ scopedIds

/-- The sources of the search of a path. -/
def ScopedSeed (scopedIds seeds : ExtTreeSet String) (k : String) : Prop :=
  k ∈ seeds ∧ k ∈ scopedIds

/-- The node is reached from the seeds inside the scope. -/
def ReachedWithin (adjacency : Adjacency) (filters : ImpactFilters)
    (scopedIds seeds : ExtTreeSet String) (k : String) : Prop :=
  ∃ n, Search.Reached (adjacency.LeadsWithin scopedIds) (ScopedSeed scopedIds seeds) n k ∧
    Search.Within filters.depth n

/-- The path has been noted for more nodes. -/
def Marks (before : ReachedBy) (path : String) (marked : String → Prop) (after : ReachedBy) : Prop :=
  ∀ k p : String, p ∈ after[k]?.getD ∅ ↔ p ∈ before[k]?.getD ∅ ∨ (p = path ∧ marked k)

theorem Marks.insertReached {before after : ReachedBy} {path : String} {marked : String → Prop}
    (h : Marks before path marked after) (nodeId : String) :
    Marks before path (fun k => marked k ∨ k = nodeId) (insertReached after nodeId path) := by
  intro k p
  unfold Impact.insertReached
  rw [getElem?_alter]
  by_cases hk : k = nodeId
  · rw [if_pos hk, Option.getD_some, mem_insert, ← hk, h k p]
    simp only [or_true, and_true]
    constructor
    · rintro (hp | hp | ⟨hp, -⟩)
      · exact Or.inr hp
      · exact Or.inl hp
      · exact Or.inr hp
    · rintro (hp | hp)
      · exact Or.inr (Or.inl hp)
      · exact Or.inl hp
  · rw [if_neg hk, h k p]
    simp only [hk, or_false]

section Reach

variable {adjacency : Adjacency} {filters : ImpactFilters} {maximum : Nat}
  {scopedIds : ExtTreeSet String} {sources : String → Prop} {search : AttributionSearch}
  {depth : String → Option Nat} {done : String → Prop} {x : String} {n bound : Nat}
  {looked : List EdgeRecord}

/-- The invariant between turns. -/
structure Attributing (adjacency : Adjacency) (filters : ImpactFilters)
    (scopedIds : ExtTreeSet String) (sources : String → Prop) (bound : Nat)
    (search : AttributionSearch) (depth : String → Option Nat) (done : String → Prop) : Prop where
  found : Search.Inv (adjacency.LeadsWithin scopedIds) sources filters.depth depth search.queue done
  seen : ∀ k, k ∈ search.seen ↔ ∃ n, depth k = some n
  pending : pending adjacency search.queue search.seen ≤ bound

/-- The invariant within the turn of a node, some of whose edges have been looked at. -/
structure AttributingTurn (adjacency : Adjacency) (filters : ImpactFilters)
    (scopedIds : ExtTreeSet String) (sources : String → Prop) (bound : Nat) (done : String → Prop)
    (x : String) (n : Nat) (looked : List EdgeRecord) (search : AttributionSearch)
    (depth : String → Option Nat) : Prop where
  found : Search.Turn (adjacency.LeadsWithin scopedIds) sources filters.depth depth search.queue
    done x n fun y => y ∈ scopedIds ∧ ∃ edge ∈ looked, edge.source = y
  seen : ∀ k, k ∈ search.seen ↔ ∃ n, depth k = some n
  pending : pending adjacency search.queue search.seen ≤ bound

/-- An edge of a node that is expanded. -/
theorem AttributingTurn.enter
    (h : AttributingTurn adjacency filters scopedIds sources bound done x n looked search depth)
    (hexpands : Search.Expands filters.depth n) {edge : EdgeRecord} (hedge : edge ∈ adjacency.of x) :
    Ensures (enterScoped maximum scopedIds (n + 1) search edge.source) fun search' => ∃ depth',
      AttributingTurn adjacency filters scopedIds sources bound done x n (looked ++ [edge]) search'
        depth' := by
  refine Ensures.after fun _ => Ensures.ite (fun henter => ?_) fun hstay => ?_
  · obtain ⟨hscoped, hnew⟩ := henter
    have hnone : depth edge.source = none :=
      Option.eq_none_iff_forall_ne_some.2 fun m hm => hnew ((h.seen edge.source).2 ⟨m, hm⟩)
    refine Ensures.pure ⟨fun k => if k = edge.source then some (n + 1) else depth k,
      ⟨?_, fun k => ?_, ?_⟩⟩
    · have hfound := h.found.discover hexpands ⟨⟨edge, hedge, rfl⟩, hscoped⟩ hnone
      refine { hfound with looked := ?_ }
      rintro y ⟨hy, hlooked⟩
      exact hfound.looked y ((looked_append.1 hlooked).imp_left fun h => ⟨hy, h⟩)
    · rw [mem_insert, h.seen k]
      by_cases hk : k = edge.source <;> simp [hk]
    · exact Nat.le_trans (pending_enter (Adjacency.mem_edges hedge) hnew (n + 1)) h.pending
  · refine Ensures.pure ⟨depth, ⟨{ h.found with looked := ?_ }, h.seen, h.pending⟩⟩
    rintro y ⟨hy, hlooked⟩
    rcases looked_append.1 hlooked with hlooked | rfl
    · exact h.found.looked y ⟨hy, hlooked⟩
    · obtain ⟨m, hm⟩ := (h.seen edge.source).1 (not_not.1 fun hnew => hstay ⟨hy, hnew⟩)
      exact (h.found.seen hm).looked _ (Or.inr rfl)

/-- The edges of a node that is expanded. -/
theorem AttributingTurn.enters
    (h : AttributingTurn adjacency filters scopedIds sources bound done x n [] search depth)
    (hexpands : Search.Expands filters.depth n) :
    Ensures ((adjacency.of x).foldlM
        (fun search edge => enterScoped maximum scopedIds (n + 1) search edge.source) search)
      fun search' => ∃ depth', AttributingTurn adjacency filters scopedIds sources bound done x n
        (adjacency.of x) search' depth' := by
  refine Ensures.foldlM (motive := fun looked search => ∃ depth',
    AttributingTurn adjacency filters scopedIds sources bound done x n looked search depth')
    ⟨depth, h⟩ ?_
  rintro looked edge search hpart ⟨depth, hturn⟩
  exact hturn.enter hexpands (hpart.subset (by simp))

/-- The first node of the queue has its turn. -/
theorem Attributing.pop
    (h : Attributing adjacency filters scopedIds sources (bound + 1) search depth done)
    {queue : List (String × Nat)} (hqueue : search.queue = (x, n) :: queue) :
    AttributingTurn adjacency filters scopedIds sources bound done x n []
      { search with queue } depth where
  found := by
    have hfound := h.found
    rw [hqueue] at hfound
    simpa using hfound.pop
  seen := h.seen
  pending := by
    have hpending := h.pending
    rw [hqueue, pending_cons] at hpending
    exact Nat.le_of_succ_le_succ hpending

/-- The turn of a node is over. -/
theorem AttributingTurn.finish
    (h : AttributingTurn adjacency filters scopedIds sources bound done x n looked search depth)
    (hlooked : Search.Expands filters.depth n → looked = adjacency.of x) :
    Attributing adjacency filters scopedIds sources bound search depth fun k => done k ∨ k = x where
  found := by
    refine h.found.finish fun hexpands y hy => ⟨hy.2, ?_⟩
    rw [hlooked hexpands]
    exact hy.1
  seen := h.seen
  pending := h.pending

/-- **The search of a path notes it for the nodes that it reaches.** -/
theorem attributionLoop_marks {path : String} {before reached : ReachedBy}
    (h : Attributing adjacency filters scopedIds sources bound search depth done)
    (hreached : Marks before path done reached) :
    Ensures (attributionLoop adjacency filters maximum scopedIds path bound search reached)
      (Marks before path fun k => ∃ n,
        Search.Reached (adjacency.LeadsWithin scopedIds) sources n k ∧
          Search.Within filters.depth n) := by
  have hend {search : AttributionSearch} {depth : String → Option Nat} {done : String → Prop}
      {reached : ReachedBy} {bound : Nat}
      (h : Attributing adjacency filters scopedIds sources bound search depth done)
      (hreached : Marks before path done reached) (hqueue : search.queue = []) :
      Marks before path (fun k => ∃ n,
        Search.Reached (adjacency.LeadsWithin scopedIds) sources n k ∧
          Search.Within filters.depth n) reached := by
    have hfound := h.found
    rw [hqueue] at hfound
    intro k p
    rw [hreached k p, hfound.done_iff, hfound.found_iff]
  induction bound generalizing search depth done reached with
  | zero =>
    refine Ensures.pure (hend h hreached (List.length_eq_zero_iff.1 ?_))
    have hpending := h.pending
    unfold pending at hpending
    omega
  | succ bound ih =>
    rw [attributionLoop]
    cases hqueue : search.queue with
    | nil => exact Ensures.pure (hend h hreached hqueue)
    | cons entry queue =>
      obtain ⟨x, n⟩ := entry
      have hpop := h.pop hqueue
      have hmarks := hreached.insertReached x
      refine Ensures.after fun _ => Ensures.ite (fun hlimit => ?_) fun hlimit => ?_
      · refine ih (hpop.finish fun hexpands => ?_) hmarks
        rw [atLimit_eq_false.2 hexpands] at hlimit
        cases hlimit
      · rw [Bool.not_eq_true, atLimit_eq_false] at hlimit
        refine (hpop.enters hlimit).bind fun search' hturn => ?_
        obtain ⟨depth', hturn⟩ := hturn
        exact ih (hturn.finish fun _ => rfl) hmarks

/-- The state after some seeds have been entered. -/
structure SeedsEntered (scopedIds : ExtTreeSet String) (entered : List String)
    (search : AttributionSearch) : Prop where
  queue : ∀ k n, (k, n) ∈ search.queue ↔ (k ∈ entered ∧ k ∈ scopedIds) ∧ n = 0
  seen : ∀ k, k ∈ search.seen ↔ k ∈ entered ∧ k ∈ scopedIds
  length : search.queue.length ≤ entered.length

theorem enterScoped_seed {entered : List String} {seed : String}
    (h : SeedsEntered scopedIds entered search) :
    Ensures (enterScoped maximum scopedIds 0 search seed)
      (SeedsEntered scopedIds (entered ++ [seed])) := by
  refine Ensures.after fun _ => Ensures.ite (fun henter => ?_) fun hstay => ?_
  · obtain ⟨hscoped, hnew⟩ := henter
    have hmem {k : String} : k ∈ entered ++ [seed] ∧ k ∈ scopedIds ↔
        (k ∈ entered ∧ k ∈ scopedIds) ∨ k = seed := by
      rw [List.mem_append, List.mem_singleton, or_and_right]
      refine or_congr_right (and_iff_left_of_imp ?_)
      rintro rfl
      exact hscoped
    refine Ensures.pure ⟨fun k n => ?_, fun k => ?_, ?_⟩
    · rw [List.mem_append, h.queue, hmem, List.mem_singleton, Prod.mk.injEq, or_and_right]
    · rw [mem_insert, h.seen, hmem, or_comm]
    · simpa using h.length
  · have hmem {k : String} : k ∈ entered ++ [seed] ∧ k ∈ scopedIds ↔ k ∈ entered ∧ k ∈ scopedIds := by
      rw [List.mem_append, List.mem_singleton, or_and_right, or_iff_left_of_imp]
      rintro ⟨rfl, hscoped⟩
      exact (h.seen k).1 (not_not.1 fun hnew => hstay ⟨hscoped, hnew⟩)
    refine Ensures.pure ⟨fun k n => ?_, fun k => ?_, ?_⟩
    · rw [h.queue, hmem]
    · rw [h.seen, hmem]
    · exact Nat.le_trans h.length (by simp)

theorem attributePath_marks {reached : ReachedBy} {entry : String × ExtTreeSet String} :
    Ensures (attributePath adjacency filters maximum scopedIds reached entry)
      (Marks reached entry.1 (ReachedWithin adjacency filters scopedIds entry.2)) := by
  have hseeds : Ensures (entry.2.toList.foldlM (enterScoped maximum scopedIds 0) ⟨[], ∅⟩)
      (SeedsEntered scopedIds entry.2.toList) :=
    Ensures.foldlM (motive := SeedsEntered scopedIds) (by constructor <;> simp)
      fun entered seed search _ h => enterScoped_seed h
  refine hseeds.bind fun search hsearch => ?_
  have hstart : Attributing adjacency filters scopedIds (ScopedSeed scopedIds entry.2)
      (entry.2.toList.length + adjacency.edges.length) search
      (fun k => if k ∈ search.seen then some 0 else none) fun _ => False := by
    refine ⟨Search.Inv.start (fun e he => ?_) (fun k hk => ?_) (fun k n => ?_) fun _ h => h,
      fun k => ?_, ?_⟩
    · obtain ⟨⟨hmem, hscoped⟩, hzero⟩ := (hsearch.queue e.1 e.2).1 he
      exact ⟨hzero, ExtTreeSet.mem_toList.1 hmem, hscoped⟩
    · exact (hsearch.queue k 0).2 ⟨⟨ExtTreeSet.mem_toList.2 hk.1, hk.2⟩, rfl⟩
    · rw [hsearch.queue, ← hsearch.seen]
      by_cases hk : k ∈ search.seen <;> simp [hk, eq_comm]
    · by_cases hk : k ∈ search.seen <;> simp [hk]
    · exact Nat.add_le_add hsearch.length List.countP_le_length
  exact attributionLoop_marks hstart fun k p => by simp

theorem materializePaths_eq {attribution : ExtTreeMap String (List String)}
    {entry : String × ExtTreeSet String} : Ensures (materializePaths maximum attribution entry)
      (· = attribution.insert entry.1 entry.2.toList) := by
  have hpaths : Ensures (entry.2.toList.mapM fun path => do
      AttributionWork.step maximum
      return path) (· = entry.2.toList.map id) :=
    Ensures.mapM fun path _ => Ensures.after fun _ => Ensures.pure rfl
  refine hpaths.bind fun paths hpaths => Ensures.pure ?_
  rw [hpaths, List.map_id]

/-- The seeds of a path reach a node exactly if the path is noted for it. -/
theorem attributePaths_mem {seedsByPath : PathSeeds} :
    Ensures (seedsByPath.toList.foldlM (attributePath adjacency filters maximum scopedIds)
      (∅ : ReachedBy))
      fun reached => ∀ k p : String, p ∈ reached[k]?.getD ∅ ↔
        ReachedWithin adjacency filters scopedIds (seedsByPath[p]?.getD ∅) k := by
  have hentries : Ensures
      (seedsByPath.toList.foldlM (attributePath adjacency filters maximum scopedIds)
      (∅ : ReachedBy))
      fun reached => ∀ k p : String, p ∈ reached[k]?.getD ∅ ↔ ∃ seeds,
        (p, seeds) ∈ seedsByPath.toList ∧ ReachedWithin adjacency filters scopedIds seeds k := by
    refine Ensures.foldlM (motive := fun (done : List (String × ExtTreeSet String))
      (reached : ReachedBy) => ∀ k p : String, p ∈ reached[k]?.getD ∅ ↔ ∃ seeds, (p, seeds) ∈ done ∧
        ReachedWithin adjacency filters scopedIds seeds k) ?_ ?_
    · simp
    · intro done entry reached _ hreached
      refine attributePath_marks.mono fun after hafter k p => ?_
      rw [hafter k p, hreached k p]
      constructor
      · rintro (⟨seeds, hmem, hwithin⟩ | ⟨rfl, hwithin⟩)
        · exact ⟨seeds, List.mem_append_left _ hmem, hwithin⟩
        · exact ⟨entry.2, by simp, hwithin⟩
      · rintro ⟨seeds, hmem, hwithin⟩
        rcases List.mem_append.1 hmem with hmem | hmem
        · exact Or.inl ⟨seeds, hmem, hwithin⟩
        · obtain rfl := List.mem_singleton.1 hmem
          exact Or.inr ⟨rfl, hwithin⟩
  refine hentries.mono fun reached hreached k p => (hreached k p).trans ⟨?_, fun hwithin => ?_⟩
  · rintro ⟨seeds, hmem, hwithin⟩
    rw [mem_toList.1 hmem]
    exact hwithin
  · cases hpath : seedsByPath[p]? with
    | none =>
      obtain ⟨n, ⟨s, hs, -⟩, -⟩ := hwithin
      rw [hpath] at hs
      exact absurd hs.1 ExtTreeSet.not_mem_empty
    | some seeds =>
      rw [hpath] at hwithin
      exact ⟨seeds, mem_toList.2 hpath, hwithin⟩

/-- **A node gets the paths whose seeds reach it inside the scope**, in their order. -/
theorem attribution_mem {seedsByPath : PathSeeds} {attribution : ExtTreeMap String (List String)}
    (h : attributeChangedPathsWithLimit adjacency filters maximum scopedIds seedsByPath =
      .ok attribution) (nodeId : String) :
    (∀ path, path ∈ attribution[nodeId]?.getD [] ↔
      ReachedWithin adjacency filters scopedIds (seedsByPath[path]?.getD ∅) nodeId) ∧
    (attribution[nodeId]?.getD []).Pairwise (· < ·) := by
  have hlists : Ensures (do
      let reached ← seedsByPath.toList.foldlM (attributePath adjacency filters maximum scopedIds) ∅
      reached.toList.foldlM (materializePaths maximum) ∅)
      fun attribution => ∃ reached : ReachedBy,
        (∀ k p : String, p ∈ reached[k]?.getD ∅ ↔
          ReachedWithin adjacency filters scopedIds (seedsByPath[p]?.getD ∅) k) ∧
        ∀ k : String, attribution[k]? = reached[k]?.map ExtTreeSet.toList :=
    attributePaths_mem.bind fun reached hreached =>
      (Ensures.foldlM_entries fun _ _ => materializePaths_eq).mono
        fun attribution hattribution => ⟨reached, hreached, hattribution⟩
  obtain ⟨reached, hreached, hattribution⟩ := hlists.run h
  have hlist : attribution[nodeId]?.getD [] = (reached[nodeId]?.getD ∅).toList := by
    rw [hattribution nodeId]
    cases reached[nodeId]? <;> simp
  rw [hlist]
  refine ⟨fun path => ?_, ExtTreeSet.ordered_toList.imp compare_lt_iff_lt.1⟩
  rw [ExtTreeSet.mem_toList, hreached nodeId path]

end Reach

end Impact
