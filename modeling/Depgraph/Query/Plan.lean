import Depgraph.Query.TypeSound
import Mathlib.Algebra.BigOperators.Intervals
import Mathlib.Data.Finset.Powerset
import Mathlib.Data.Finset.Prod

/-!
# The planner's bound on traversal states

`bounded_query_plan.rs` bounds the states of a search before it runs, and a query is admitted when
the bounds are within the limits. A state of a search at a depth is a node with a set of as many
edges, and the bound is at least the number of these for every source.
-/

namespace Query

open Json Protocol OrderedMap Metered LeastUnderKey Std
open Store hiding GraphSnapshot
open scoped BigOperators

/-! ### The bound -/

def multiplyThenDiv (value multiplier divisor : Nat) : Nat :=
  if value * multiplier ≤ u64Max then value * multiplier / divisor else u64Max

/-- The loop body of `traversal_state_bound`, on the combinations and the used edge sets. -/
def addDepth (edges : Nat) (sets : Nat × Nat) (depth : Nat) : Nat × Nat :=
  let combinations := multiplyThenDiv sets.1 (edges - depth + 1) depth
  (combinations, addU64 sets.2 combinations)

def traversalStateBound (sources nodes edges maximumDepth existentialPredicates : Nat) : Nat :=
  if sources = 0 ∨ nodes = 0 then 0
  else
    let predicateStates := if 63 ≤ existentialPredicates then u64Max else 2 ^ existentialPredicates
    let sets := (List.range' 1 (min maximumDepth edges)).foldl (addDepth edges) (1, 1)
    mulU64 sources (mulU64 nodes (mulU64 predicateStates sets.2))

/-- The eligible edges of `query_cardinality_inputs`: those of each kind that is asked for. -/
def plannedEligibleEdges (query : TypedQueryAst) (edges : List EdgeRecord) : Nat :=
  (query.matchClause.relationship.kinds.dedup.map fun kind =>
    edges.countP fun edge => edge.kind == kind).foldl addU64 0

mutual

/-- The first of the `quantifier_counts`. -/
def existentialCount : TypedExpression → Nat
  | .or terms => existentialCounts terms
  | .and terms => existentialCounts terms
  | .not inner => existentialCount inner
  | .scalar _ => 0
  | .quantifier predicate =>
    match predicate.binding.entityType with
    | .site | .evidence => 1
    | _ => 0

def existentialCounts : List TypedExpression → Nat
  | [] => 0
  | term :: terms => addU64 (existentialCount term) (existentialCounts terms)

end

/-- The traversal states of the resource bounds of a plan. -/
def plannedTraversalStates (query : TypedQueryAst) (snapshot : QueriedSnapshot) : Nat :=
  traversalStateBound (plannedSourceNodes query snapshot.nodes) snapshot.nodes.length
    (plannedEligibleEdges query snapshot.edges) query.matchClause.relationship.maxDepth
    (query.whereClause.elim 0 existentialCount)

section Bound

/-- The sets of at most so many edges. -/
def edgeSets (edges depth : Nat) : Nat := ∑ d ∈ Finset.range (depth + 1), edges.choose d

theorem edgeSets_zero (edges : Nat) : edgeSets edges 0 = 1 := by
  rw [edgeSets, Finset.sum_range_one, Nat.choose_zero_right]

theorem edgeSets_succ (edges depth : Nat) :
    edgeSets edges (depth + 1) = edgeSets edges depth + edges.choose (depth + 1) :=
  Finset.sum_range_succ _ (depth + 1)

/-- The two values of the loop, where they are not saturated. -/
def Counted (edges depth : Nat) (sets : Nat × Nat) : Prop :=
  sets.2 = u64Max ∨ sets.1 = edges.choose depth ∧ sets.2 = edgeSets edges depth

theorem counted_addDepth {edges depth : Nat} {sets : Nat × Nat} (h : Counted edges depth sets)
    (hdepth : depth < edges) : Counted edges (depth + 1) (addDepth edges sets (depth + 1)) := by
  rcases h with h | ⟨hcombinations, hsets⟩
  · refine .inl ?_
    change addU64 sets.2 _ = u64Max
    rw [h]
    exact min_eq_right (Nat.le_add_right _ _)
  · have hchoose : edges.choose depth * (edges - (depth + 1) + 1) / (depth + 1) =
        edges.choose (depth + 1) := by
      have hsub : edges - (depth + 1) + 1 = edges - depth := by omega
      rw [hsub, ← Nat.choose_succ_right_eq, Nat.mul_div_cancel _ (Nat.succ_pos depth)]
    unfold addDepth multiplyThenDiv
    rw [hcombinations]
    split_ifs with hfits
    · rw [hchoose, hsets]
      by_cases hsum : edgeSets edges (depth + 1) ≤ u64Max
      · refine .inr ⟨rfl, ?_⟩
        rw [edgeSets_succ] at hsum ⊢
        exact min_eq_left hsum
      · refine .inl ?_
        rw [edgeSets_succ] at hsum
        exact min_eq_right (Nat.le_of_not_le hsum)
    · refine .inl ?_
      exact min_eq_right (Nat.le_add_left _ _)

theorem counted_foldl {edges : Nat} (count : Nat) {depth : Nat} {sets : Nat × Nat}
    (h : Counted edges depth sets) (hcount : depth + count ≤ edges) :
    Counted edges (depth + count)
      ((List.range' (depth + 1) count).foldl (addDepth edges) sets) := by
  induction count generalizing depth sets with
  | zero => exact h
  | succ count ih =>
    have hnext := counted_addDepth h (by omega : depth < edges)
    rw [List.range'_succ, List.foldl_cons, show depth + (count + 1) = depth + 1 + count by omega]
    exact ih hnext (by omega)

/-- Deeper searches than there are edges have no further sets. -/
theorem edgeSets_min (edges depth : Nat) :
    edgeSets edges depth = edgeSets edges (min depth edges) := by
  rcases Nat.le_total depth edges with hle | hle
  · rw [min_eq_left hle]
  · rw [min_eq_right hle]
    obtain ⟨more, rfl⟩ := Nat.exists_eq_add_of_le hle
    induction more with
    | zero => rfl
    | succ more ih =>
      rw [← Nat.add_assoc, edgeSets_succ, Nat.choose_eq_zero_of_lt (by omega), Nat.add_zero]
      exact ih (by omega)

theorem mulU64_le {a b c : Nat} (hb : min b u64Max ≤ c) (ha : 1 ≤ a) :
    min (a * b) u64Max ≤ mulU64 a c := by
  unfold mulU64
  refine le_min ?_ (min_le_right _ _)
  rcases min_cases b u64Max with ⟨hmin, -⟩ | ⟨hmin, -⟩
  · exact (min_le_left _ _).trans (Nat.mul_le_mul_left a (hmin ▸ hb))
  · refine (min_le_right _ _).trans ((hmin ▸ hb).trans ?_)
    exact Nat.le_mul_of_pos_left c ha

/-- **The bound covers every source, node and set of edges**, or it is saturated. -/
theorem le_traversalStateBound {sources nodes edges depth existential : Nat} :
    min (sources * (nodes * edgeSets edges depth)) u64Max ≤
      traversalStateBound sources nodes edges depth existential := by
  by_cases hzero : sources = 0 ∨ nodes = 0
  · rw [traversalStateBound, if_pos hzero]
    rcases hzero with rfl | rfl
    · rw [Nat.zero_mul]
      exact Nat.min_le_left _ _
    · rw [Nat.zero_mul, Nat.mul_zero]
      exact Nat.min_le_left _ _
  rw [traversalStateBound, if_neg hzero]
  rw [not_or] at hzero
  have hsets : min (edgeSets edges depth) u64Max ≤
      ((List.range' 1 (min depth edges)).foldl (addDepth edges) (1, 1)).2 := by
    have hstart : Counted edges 0 (1, 1) :=
      .inr ⟨(Nat.choose_zero_right _).symm, (edgeSets_zero edges).symm⟩
    have hloop := counted_foldl (min depth edges) hstart (by omega)
    rw [Nat.zero_add, Nat.zero_add] at hloop
    rw [edgeSets_min]
    rcases hloop with hloop | ⟨-, hloop⟩
    · rw [hloop]; exact min_le_right _ _
    · rw [hloop]; exact min_le_left _ _
  have hpredicates : 1 ≤ if 63 ≤ existential then u64Max else 2 ^ existential := by
    split_ifs
    · decide
    · exact Nat.one_le_two_pow
  refine mulU64_le (mulU64_le ?_ (Nat.one_le_iff_ne_zero.2 hzero.2))
    (Nat.one_le_iff_ne_zero.2 hzero.1)
  -- the states of the existential predicates only add to the bound
  refine Nat.le_trans ?_ (mulU64_le hsets hpredicates)
  exact min_le_min_right _ (Nat.le_mul_of_pos_left _ hpredicates)

theorem foldl_addU64 (counts : List Nat) {count : Nat} (hcount : count ≤ u64Max) :
    counts.foldl addU64 count = min (count + counts.sum) u64Max := by
  induction counts generalizing count with
  | nil => exact (min_eq_left hcount).symm
  | cons n counts ih =>
    have hnext : addU64 count n ≤ u64Max := min_le_right _ _
    rw [List.foldl_cons, ih hnext, addU64, List.sum_cons]
    omega

/-- Each edge is counted at its kind only. -/
theorem sum_countP_kinds {kinds : List String} (hkinds : kinds.Nodup) (edges : List EdgeRecord) :
    (kinds.map fun kind => edges.countP fun edge => edge.kind == kind).sum =
      edges.countP fun edge => kinds.contains edge.kind := by
  induction edges with
  | nil => simp
  | cons edge edges ih =>
    have hcount (kinds : List String) :
        (kinds.map fun kind => if edge.kind == kind then 1 else 0).sum =
          kinds.count edge.kind := by
      induction kinds with
      | nil => rfl
      | cons kind kinds ih =>
        rw [List.map_cons, List.sum_cons, ih, List.count_cons, Nat.add_comm, Bool.beq_comm]
    have hone : (kinds.map fun kind => if edge.kind == kind then 1 else 0).sum =
        if kinds.contains edge.kind then 1 else 0 := by
      rw [hcount, hkinds.count]
      simp only [List.contains_iff_mem]
    simp only [List.countP_cons, List.sum_map_add]
    rw [ih, hone]

theorem plannedEligibleEdges_eq (query : TypedQueryAst) (snapshot : QueriedSnapshot)
    (hedges : snapshot.edges.length ≤ u64Max) :
    plannedEligibleEdges query snapshot.edges = (eligibleEdges query snapshot).length := by
  unfold plannedEligibleEdges eligibleEdges
  rw [foldl_addU64 _ (Nat.zero_le _), Nat.zero_add, sum_countP_kinds (List.nodup_dedup _),
    ← List.countP_eq_length_filter]
  have hcontains : (fun edge : EdgeRecord =>
      query.matchClause.relationship.kinds.dedup.contains edge.kind) =
      fun edge => query.matchClause.relationship.kinds.contains edge.kind := by
    funext edge
    rw [Bool.eq_iff_iff, List.contains_iff_mem, List.contains_iff_mem, List.mem_dedup]
  rw [hcontains]
  exact min_eq_left ((List.countP_le_length).trans hedges)

end Bound

namespace Executor

variable {E : Executor} {query : TypedQueryAst} {snapshot : QueriedSnapshot}

/-! ### States of a layer -/

/-- Every state of the layer is that of a trail of one length. -/
def Within (E : Executor) (source : String) (depth : Nat) (layer : ExtTreeMap StateKey Witness) :
    Prop :=
  ∀ (key : StateKey) (witness : Witness), layer[key]? = some witness →
    StateKey.fromWitness witness = key ∧ E.Reached source depth witness

theorem Trail.node_mem {source node : String} {path : List EdgeRecord}
    (h : E.Trail source path node) (hsource : source ∈ E.nodes) : node ∈ E.nodes := by
  cases h with
  | start => exact hsource
  | snoc _ _ _ hnode => exact hnode

theorem Trail.ids_nodup {source node : String} {path : List EdgeRecord}
    (h : E.Trail source path node) : (path.map EdgeRecord.id).Nodup := by
  induction h with
  | start => exact List.nodup_nil
  | snoc _ _ hnew _ ih =>
    rw [List.map_append, List.map_singleton]
    exact List.nodup_append'.2 ⟨ih, List.nodup_singleton _, List.disjoint_singleton.2 hnew⟩

/-- What tells states of one depth apart: the node and the edges. -/
def codeOf (key : StateKey) : String × Finset String :=
  (key.currentNodeId, key.usedEdgeIds.toFinset)

theorem IsWitness.codeOf {source node : String} {path : List EdgeRecord} {witness : Witness}
    (h : E.IsWitness source path witness) (htrail : E.Trail source path node) :
    codeOf (StateKey.fromWitness witness) = (node, (path.map EdgeRecord.id).toFinset) := by
  unfold Executor.codeOf StateKey.fromWitness
  refine Prod.ext (h.lastNode htrail) ?_
  ext id
  rw [List.mem_toFinset, List.mem_toFinset, ExtTreeSet.mem_toList, h.usedEdges]

/-- **A layer has at most a state for each node and each set of as many edges.** -/
theorem Within.size_le (hnew : IsNew query snapshot E) {source : String}
    (hsource : source ∈ E.nodes) {depth : Nat} {layer : ExtTreeMap StateKey Witness}
    (h : E.Within source depth layer) :
    layer.size ≤ snapshot.nodes.length * (eligibleEdges query snapshot).length.choose depth := by
  let nodes := (snapshot.nodes.map NodeRecord.id).toFinset
  let edges := ((eligibleEdges query snapshot).map EdgeRecord.id).toFinset
  have hkey : ∀ key ∈ layer.toList.map Prod.fst, ∃ path node witness,
      StateKey.fromWitness witness = key ∧ E.Trail source path node ∧ path.length = depth ∧
        E.IsWitness source path witness := by
    intro key hkey
    obtain ⟨entry, hentry, rfl⟩ := List.mem_map.1 hkey
    obtain ⟨hfrom, path, node, htrail, hlength, hpath⟩ := h _ _ (mem_toList.1 hentry)
    exact ⟨path, node, entry.2, hfrom, htrail, hlength, hpath⟩
  have hmaps : ∀ code ∈ ((layer.toList.map Prod.fst).map codeOf).toFinset,
      code ∈ nodes ×ˢ Finset.powersetCard depth edges := by
    intro code hcode
    obtain ⟨key, hmem, rfl⟩ := List.mem_map.1 (List.mem_toFinset.1 hcode)
    obtain ⟨path, node, witness, rfl, htrail, hlength, hpath⟩ := hkey key hmem
    rw [hpath.codeOf htrail, Finset.mem_product, Finset.mem_powersetCard]
    refine ⟨?_, fun id hid => ?_, ?_⟩
    · obtain ⟨record, hrecord⟩ := mem_iff.1 (htrail.node_mem hsource)
      obtain ⟨hrecord, hid⟩ := (hnew.nodes _ _).1 hrecord
      exact List.mem_toFinset.2 (List.mem_map.2 ⟨record, hrecord, hid⟩)
    · obtain ⟨edge, hedge, rfl⟩ := List.mem_map.1 (List.mem_toFinset.1 hid)
      obtain ⟨hedge, -⟩ := (hnew.edges _ _).1 (htrail.known hedge)
      exact List.mem_toFinset.2 (List.mem_map_of_mem hedge)
    · rw [List.toFinset_card_of_nodup htrail.ids_nodup, List.length_map, hlength]
  have hinjective : ((layer.toList.map Prod.fst).map codeOf).Nodup := by
    refine List.Nodup.map_on ?_ keys_nodup
    intro key hmem key' hmem' heq
    obtain ⟨path, node, witness, rfl, htrail, hlength, hpath⟩ := hkey key hmem
    obtain ⟨path', node', witness', rfl, htrail', hlength', hpath'⟩ := hkey key' hmem'
    rw [hpath.codeOf htrail, hpath'.codeOf htrail'] at heq
    obtain ⟨rfl, hids⟩ := Prod.mk.inj heq
    refine hpath.key_eq hpath' htrail htrail' (hlength.trans hlength'.symm)
      (htrail.mem_iff htrail' fun id => ?_)
    rw [← List.mem_toFinset, hids, List.mem_toFinset]
  have hcard := Finset.card_le_card hmaps
  rw [List.toFinset_card_of_nodup hinjective, List.length_map, List.length_map,
    ExtTreeMap.length_toList, Finset.card_product, Finset.card_powersetCard] at hcard
  refine hcard.trans (Nat.mul_le_mul ?_ (Nat.choose_le_choose depth ?_))
  · exact (List.toFinset_card_le _).trans (by rw [List.length_map])
  · exact (List.toFinset_card_le _).trans (by rw [List.length_map])

end Executor

end Query
