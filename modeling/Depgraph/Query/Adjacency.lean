import Depgraph.Impact.Adjacency
import Depgraph.Impact.PathStep

/-!
# The edges that a query follows

`EdgeKindFilter`, `GraphQueryFilter::matches_edge` and `adjacency_cancellable`: the edges of a
snapshot that pass the filters, under the node where a query meets them.

* `EdgeKindFilter.allows_iff`: a filter allows the kinds of its list, or without a list all kinds but
  perhaps the structural ones;
* `adjacency_mem`: under a node exactly the inspected edges are listed that pass and end there.
-/

namespace Query

open Json Protocol Impact OrderedMap SortDedup Std
open Store hiding GraphSnapshot

/-! ### Edge kinds -/

def structuralEdgeKinds : List String := ["contains", "declares", "generated_from"]

def isStructuralEdgeKind (kind : String) : Bool := structuralEdgeKinds.contains kind

inductive StructuralEdgeSelection where
  | include
  | exclude
deriving DecidableEq

/-- `EdgeKindFilter`. The kinds are sorted, and no kind occurs twice. -/
structure EdgeKindFilter where
  edgeKinds : List String
  structuralEdges : StructuralEdgeSelection
  sorted : edgeKinds.Pairwise fun a b => id a < id b

def EdgeKindFilter.unrestricted : EdgeKindFilter := ⟨[], .include, .nil⟩

def EdgeKindFilter.allows (filter : EdgeKindFilter) (kind : String) : Bool :=
  if filter.edgeKinds.isEmpty = false then binarySearch filter.edgeKinds kind
  else filter.structuralEdges == .include || !isStructuralEdgeKind kind

/-! ### Binary search -/

/-- The search ends at the place of the value. -/
theorem searchBase_eq {values : List String} (hsorted : values.Pairwise fun a b => id a < id b)
    {value : String} {i : Nat} (hi : values[i]? = some value) {fuel base size : Nat}
    (hfuel : size ≤ fuel + 1) (hlow : base ≤ i) (hhigh : i < base + size)
    (hlength : base + size ≤ values.length) : searchBase values value fuel base size = i := by
  induction fuel generalizing base size with
  | zero =>
    rw [searchBase]
    omega
  | succ fuel ih =>
    rw [searchBase]
    split_ifs with hsize
    · omega
    · have hmid : base + size / 2 < values.length := by omega
      simp only [List.getElem?_eq_getElem hmid, Option.any_some, decide_eq_true_eq]
      split_ifs with hless
      · refine ih (by omega) hlow ?_ (by omega)
        -- the value stands before everything that is greater
        by_contra hbehind
        obtain ⟨hbound, hvalue⟩ := List.getElem?_eq_some_iff.1 hi
        rcases Nat.lt_or_ge (base + size / 2) i with hlt | hge
        · have := List.pairwise_iff_getElem.1 hsorted _ _ hmid hbound hlt
          rw [hvalue] at this
          exact lt_asymm hless this
        · obtain rfl : i = base + size / 2 := by omega
          rw [hvalue] at hless
          exact lt_irrefl _ hless
      · refine ih (by omega) ?_ (by omega) (by omega)
        by_contra hbefore
        obtain ⟨hbound, hvalue⟩ := List.getElem?_eq_some_iff.1 hi
        have := List.pairwise_iff_getElem.1 hsorted _ _ hbound hmid (by omega)
        rw [hvalue] at this
        exact hless this

/-- **Binary search finds the values of a sorted list.** -/
theorem binarySearch_iff {values : List String}
    (hsorted : values.Pairwise fun a b => id a < id b) {value : String} :
    binarySearch values value = true ↔ value ∈ values := by
  unfold binarySearch
  rw [decide_eq_true_eq]
  constructor
  · exact List.mem_of_getElem?
  · intro hmem
    obtain ⟨i, hi⟩ := List.getElem?_of_mem hmem
    have hbound := (List.getElem?_eq_some_iff.1 hi).1
    rwa [searchBase_eq hsorted hi (by omega) (Nat.zero_le _) (by omega) (by omega)]

/-- A filter allows the kinds of its list; without a list it allows all kinds, or all but the
structural ones. -/
theorem EdgeKindFilter.allows_iff (filter : EdgeKindFilter) (kind : String) :
    filter.allows kind = true ↔ if filter.edgeKinds = [] then
      filter.structuralEdges = .include ∨ kind ∉ structuralEdgeKinds
    else kind ∈ filter.edgeKinds := by
  unfold allows
  cases hkinds : filter.edgeKinds with
  | nil => simp [isStructuralEdgeKind]
  | cons first rest =>
    rw [if_pos (by rfl), if_neg (by simp), ← hkinds, binarySearch_iff filter.sorted]

/-! ### Runtime contexts -/

def pushString (output : List String) (value : Option Proper) : List String :=
  output ++ (value.bind Proper.asStr).toList

def updateMin (current value : Option String) : Option String :=
  if value.any fun value => current.all fun current => value < current then value else current

def updateMax (current value : Option String) : Option String :=
  if value.any fun value => current.all fun current => current < value then value else current

/-- Adds a record of evidence to a context. -/
def addRuntimeEvidence (context : RuntimeEdgeContext) (evidence : EvidenceRecord) :
    RuntimeEdgeContext :=
  let environment := evidence.properties.get "environment"
  { sessionIds := pushString context.sessionIds (evidence.properties.get "session_id")
    sourceSessionIds :=
      pushString context.sourceSessionIds (evidence.properties.get "source_session_id")
    environmentNames := pushString context.environmentNames (environment.bind (·.get "name"))
    runtimes := pushString context.runtimes (environment.bind (·.get "runtime"))
    regions := pushString context.regions (environment.bind (·.get "region"))
    observationCount := min (context.observationCount +
      ((evidence.properties.get "count").bind asU64).getD 0) maxU64
    firstObservedAt := updateMin context.firstObservedAt
      ((evidence.properties.get "first_observed_at").bind Proper.asStr)
    lastObservedAt := updateMax context.lastObservedAt
      ((evidence.properties.get "last_observed_at").bind Proper.asStr) }

def runtimeContextForEdge (snapshot : GraphSnapshot) (edge : EdgeRecord) : RuntimeEdgeContext :=
  let context := (snapshot.evidence.filter fun evidence => evidence.ownerType == "edge" &&
    (evidence.ownerId == edge.id && evidence.kind == "runtime")).foldl addRuntimeEvidence
      ⟨[], [], [], [], [], 0, none, none⟩
  { context with
    sessionIds := exact id context.sessionIds
    sourceSessionIds := exact id context.sourceSessionIds
    environmentNames := exact id context.environmentNames
    runtimes := exact id context.runtimes
    regions := exact id context.regions }

def matchesEdge (filter : GraphQueryFilter) (snapshot : GraphSnapshot) (edge : EdgeRecord) : Bool :=
  if !filter.phases.isEmpty && !binarySearch filter.phases edge.phase then false
  else if !filter.profiles.isEmpty && !binarySearch filter.profiles edge.profileId then false
  else if filter.sessions.isEmpty && filter.environments.isEmpty then true
  else if edge.phase != "runtime" then false
  else
    let context := runtimeContextForEdge snapshot edge
    (filter.sessions.isEmpty ||
      (context.sessionIds ++ context.sourceSessionIds).any (binarySearch filter.sessions)) &&
    (filter.environments.isEmpty ||
      (context.environmentNames ++ context.runtimes ++ context.regions).any
        (binarySearch filter.environments))

/-! ### Adjacency -/

section Adjacency

variable (snapshot : GraphSnapshot) (reverse : Bool) (filter : GraphQueryFilter)
  (edgeKinds : EdgeKindFilter)

/-- An edge of this kind is selected, and it matches the filter. -/
def selects (edge : EdgeRecord) : Bool :=
  edgeKinds.allows edge.kind && matchesEdge filter snapshot edge

/-- A turn of the loop over the edges. -/
def insertEdge (ordered : OrderedEdges) (edge : EdgeRecord) : OrderedEdges :=
  if selects snapshot filter edgeKinds edge then
    ordered.alter (edgeEnds reverse edge).1 fun edges =>
      some ((edges.getD ∅).insert (toLex ((edgeEnds reverse edge).2, edge.id)) edge)
  else ordered

/-- `adjacency_cancellable`: the edges in canonical order, and whether all have been inspected. -/
def adjacency (maxInspectedEdges : Nat) : OrderedEdges × Bool :=
  ((snapshot.edges.take maxInspectedEdges).foldl (insertEdge snapshot reverse filter edgeKinds) ∅,
    decide (snapshot.edges.length ≤ maxInspectedEdges))

end Adjacency

/-- The edges that are listed under a node. -/
def edgesOf (ordered : OrderedEdges) (node : String) : List EdgeRecord :=
  values (ordered[node]?.getD ∅)

section Listed

variable {snapshot : GraphSnapshot} {reverse : Bool} {filter : GraphQueryFilter}
  {edgeKinds : EdgeKindFilter}

/-- An edge of the snapshot that passes the filters. -/
def Passes (snapshot : GraphSnapshot) (filter : GraphQueryFilter) (edgeKinds : EdgeKindFilter)
    (edge : EdgeRecord) : Prop :=
  edge ∈ snapshot.edges ∧ selects snapshot filter edgeKinds edge = true

theorem insertEdge_lookup (ordered : OrderedEdges) (edge : EdgeRecord) (node : String)
    (key : String ×ₗ String) :
    ((insertEdge snapshot reverse filter edgeKinds ordered edge)[node]?.getD ∅)[key]? =
      if selects snapshot filter edgeKinds edge = true ∧ (edgeEnds reverse edge).1 = node ∧
          toLex ((edgeEnds reverse edge).2, edge.id) = key then some edge
      else (ordered[node]?.getD ∅)[key]? := by
  unfold insertEdge
  by_cases hselects : selects snapshot filter edgeKinds edge = true
  · rw [if_pos hselects, getElem?_alter]
    by_cases hnode : node = (edgeEnds reverse edge).1
    · rw [if_pos hnode, Option.getD_some, getElem?_insert, ← hnode]
      simp only [hselects, true_and, eq_comm]
    · rw [if_neg hnode, if_neg]
      rintro ⟨-, rfl, -⟩
      exact hnode rfl
  · rw [if_neg hselects, if_neg]
    exact fun h => hselects h.1

/-- The edges of a list are found under their ends and identities. -/
theorem foldl_insertEdge {edges : List EdgeRecord} (hids : (edges.map EdgeRecord.id).Nodup)
    {node : String} {key : String ×ₗ String} {edge : EdgeRecord} :
    ((edges.foldl (insertEdge snapshot reverse filter edgeKinds) ∅)[node]?.getD ∅)[key]? =
        some edge ↔
      edge ∈ edges ∧ selects snapshot filter edgeKinds edge = true ∧
        (edgeEnds reverse edge).1 = node ∧ toLex ((edgeEnds reverse edge).2, edge.id) = key := by
  induction edges using List.reverseRecOn with
  | nil => simp
  | append_singleton edges last ih =>
    have hdistinct : (edges.map EdgeRecord.id).Nodup ∧ ∀ other ∈ edges, other.id ≠ last.id := by
      rw [List.map_append, List.nodup_append] at hids
      exact ⟨hids.1, fun other hother => hids.2.2 _ (List.mem_map_of_mem hother) _ (by simp)⟩
    rw [List.foldl_append, List.foldl_cons, List.foldl_nil, insertEdge_lookup]
    split_ifs with hlast
    · constructor
      · intro hedge
        obtain rfl := Option.some.inj hedge
        exact ⟨by simp, hlast⟩
      · rintro ⟨hedge, -, -, hkey⟩
        rcases List.mem_append.1 hedge with hedge | hedge
        · have hsame : edge.id = last.id := (Prod.mk.inj (hkey.trans hlast.2.2.symm)).2
          exact absurd hsame (hdistinct.2 edge hedge)
        · rw [List.mem_singleton.1 hedge]
    · rw [ih hdistinct.1, List.mem_append, List.mem_singleton]
      refine and_congr_left fun hedge => (or_iff_left ?_).symm
      rintro rfl
      exact hlast hedge

/-- **Under a node exactly the inspected edges are listed that pass the filters and end there.** -/
theorem adjacency_mem (hids : (snapshot.edges.map EdgeRecord.id).Nodup) {maxInspectedEdges : Nat}
    {node : String} {edge : EdgeRecord} :
    edge ∈ edgesOf (adjacency snapshot reverse filter edgeKinds maxInspectedEdges).1 node ↔
      edge ∈ snapshot.edges.take maxInspectedEdges ∧
        selects snapshot filter edgeKinds edge = true ∧ (edgeEnds reverse edge).1 = node := by
  have hpart : ((snapshot.edges.take maxInspectedEdges).map EdgeRecord.id).Nodup :=
    hids.sublist ((List.take_sublist _ _).map _)
  unfold edgesOf adjacency
  rw [mem_values]
  simp only [foldl_insertEdge hpart]
  constructor
  · rintro ⟨key, hmem, hselects, hnode, -⟩
    exact ⟨hmem, hselects, hnode⟩
  · rintro ⟨hmem, hselects, hnode⟩
    exact ⟨_, hmem, hselects, hnode, rfl⟩

/-- What is listed under a node passes the filters and ends there, whether or not identities occur
twice. -/
theorem adjacency_sound {maxInspectedEdges : Nat} {node : String} {edge : EdgeRecord}
    (h : edge ∈ edgesOf (adjacency snapshot reverse filter edgeKinds maxInspectedEdges).1 node) :
    Passes snapshot filter edgeKinds edge ∧ (edgeEnds reverse edge).1 = node := by
  obtain ⟨key, hkey⟩ := mem_values.1 h
  suffices hfound : ∀ edges : List EdgeRecord,
      ((edges.foldl (insertEdge snapshot reverse filter edgeKinds) ∅)[node]?.getD ∅)[key]? =
          some edge →
        edge ∈ edges ∧ selects snapshot filter edgeKinds edge = true ∧
          (edgeEnds reverse edge).1 = node by
    obtain ⟨hmem, hselects, hnode⟩ := hfound _ hkey
    exact ⟨⟨List.mem_of_mem_take hmem, hselects⟩, hnode⟩
  intro edges
  induction edges using List.reverseRecOn with
  | nil => simp
  | append_singleton edges last ih =>
    rw [List.foldl_append, List.foldl_cons, List.foldl_nil, insertEdge_lookup]
    intro hedge
    split_ifs at hedge with hlast
    · obtain rfl := Option.some.inj hedge
      exact ⟨by simp, hlast.1, hlast.2.1⟩
    · obtain ⟨hmem, hrest⟩ := ih hedge
      exact ⟨List.mem_append_left _ hmem, hrest⟩

/-- An edge that passes the filters is listed, if need be by another edge between the same nodes. -/
theorem adjacency_covers {maxInspectedEdges : Nat}
    (hcomplete : (adjacency snapshot reverse filter edgeKinds maxInspectedEdges).2 = true)
    {edge : EdgeRecord} (h : Passes snapshot filter edgeKinds edge) :
    ∃ other ∈ edgesOf (adjacency snapshot reverse filter edgeKinds maxInspectedEdges).1
      (edgeEnds reverse edge).1, (edgeEnds reverse other).2 = (edgeEnds reverse edge).2 := by
  suffices hfound : ∀ edges : List EdgeRecord, edge ∈ edges →
      ∃ other, ((edges.foldl (insertEdge snapshot reverse filter edgeKinds) ∅)[(edgeEnds reverse
        edge).1]?.getD ∅)[toLex ((edgeEnds reverse edge).2, edge.id)]? = some other ∧
          (edgeEnds reverse other).2 = (edgeEnds reverse edge).2 by
    obtain ⟨other, hother, hends⟩ := hfound (snapshot.edges.take maxInspectedEdges) (by
      rw [List.take_of_length_le (of_decide_eq_true hcomplete)]
      exact h.1)
    exact ⟨other, mem_values.2 ⟨_, hother⟩, hends⟩
  intro edges
  induction edges using List.reverseRecOn with
  | nil => intro hmem; cases hmem
  | append_singleton edges last ih =>
    intro hmem
    rw [List.foldl_append, List.foldl_cons, List.foldl_nil, insertEdge_lookup]
    split_ifs with hlast
    · exact ⟨last, rfl, (Prod.mk.inj hlast.2.2).1⟩
    · rcases List.mem_append.1 hmem with hmem | hmem
      · exact ih hmem
      · obtain rfl := List.mem_singleton.1 hmem
        exact absurd ⟨h.2, rfl, rfl⟩ hlast

/-- No edge is listed twice under a node. -/
theorem edgesOf_nodup (hids : (snapshot.edges.map EdgeRecord.id).Nodup) {maxInspectedEdges : Nat}
    (node : String) :
    (edgesOf (adjacency snapshot reverse filter edgeKinds maxInspectedEdges).1 node).Nodup := by
  have hpart : ((snapshot.edges.take maxInspectedEdges).map EdgeRecord.id).Nodup :=
    hids.sublist ((List.take_sublist _ _).map _)
  refine List.Nodup.of_map (fun edge => toLex ((edgeEnds reverse edge).2, edge.id)) ?_
  have hkeys : (edgesOf (adjacency snapshot reverse filter edgeKinds maxInspectedEdges).1 node).map
      (fun edge => toLex ((edgeEnds reverse edge).2, edge.id)) =
        ((adjacency snapshot reverse filter edgeKinds maxInspectedEdges).1[node]?.getD
          ∅).toList.map Prod.fst := by
    rw [edgesOf, values, List.map_map]
    refine List.map_congr_left fun entry hentry => ?_
    exact ((foldl_insertEdge hpart).1 (mem_toList.1 hentry)).2.2.2
  rw [hkeys]
  exact keys_nodup

/-- When all edges have been inspected, exactly the edges are listed that pass and end there. -/
theorem adjacency_complete (hids : (snapshot.edges.map EdgeRecord.id).Nodup)
    {maxInspectedEdges : Nat}
    (hcomplete : (adjacency snapshot reverse filter edgeKinds maxInspectedEdges).2 = true)
    {node : String} {edge : EdgeRecord} :
    edge ∈ edgesOf (adjacency snapshot reverse filter edgeKinds maxInspectedEdges).1 node ↔
      Passes snapshot filter edgeKinds edge ∧ (edgeEnds reverse edge).1 = node := by
  rw [adjacency_mem hids, List.take_of_length_le (of_decide_eq_true hcomplete), Passes, and_assoc]

end Listed

end Query
