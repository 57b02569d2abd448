import Depgraph.Analysis.ContextGroups
import Depgraph.Analysis.SplitNumbers

/-!
# The order of packages

`dependency_rank` ranks the packages of a unit by a search over an explicit stack, so that a package
comes after those it imports. The batches of a stage keep that order: a batch holds no package that
imports one of a later batch.
-/

namespace Analysis

open Relation DepthFirst OrderedMap SortDedup Protocol Std

structure PackageImportGraph where
  imports : ExtTreeMap String (ExtTreeSet String)

/-- The roots that a package imports. -/
def PackageImportGraph.within (graph : PackageImportGraph) (roots : ExtTreeSet String)
    (root : String) : List String :=
  (graph.imports[root]?.getD ∅).toList.filter fun target => target ∈ roots

/-- The variables of `dependency_rank`. The head of the list is the top of the stack. -/
structure DependencyRank where
  stack : List (String × List String × Bool)
  visited : ExtTreeSet String
  rank : ExtTreeMap String Nat

section

variable (graph : PackageImportGraph) (roots : ExtTreeSet String)

/-- The targets of a frame, the next one last. -/
def framed (frame : String × List String × Bool) : List String :=
  if frame.2.2 then frame.2.1 else (graph.within roots frame.1).reverse

/-- A turn of the loop over the stack. -/
def rankTurn (search : DependencyRank) : Option DependencyRank :=
  match search.stack with
  | [] => none
  | frame :: stack =>
    let targets := framed graph roots frame
    match targets.getLast? with
    | some target =>
      let stack := (frame.1, targets.dropLast, true) :: stack
      if target ∈ search.visited then some { search with stack }
      else some { search with
        stack := (target, [], false) :: stack
        visited := search.visited.insert target }
    | none => some { search with stack, rank := search.rank.insert frame.1 search.rank.size }

/-- A turn of the loop over the roots. The inner loop takes a turn for every root and every import. -/
def rankFrom (search : DependencyRank) (start : String) : DependencyRank :=
  if start ∈ search.visited then search
  else loop (rankTurn graph roots)
    (roots.toList.map fun root => (graph.within roots root).length + 1).sum
    { search with stack := [(start, [], false)], visited := search.visited.insert start }

def PackageImportGraph.dependencyRank : ExtTreeMap String Nat :=
  (roots.toList.foldl (rankFrom graph roots) ⟨[], ∅, ∅⟩).rank

/-- A root imports a root. -/
def Imports (a b : String) : Prop :=
  a ∈ roots ∧ b ∈ roots ∧ b ∈ graph.imports[a]?.getD ∅

end

/-- The package roots of a unit. -/
def packageRoots (unit : AnalysisUnit) : ExtTreeSet String :=
  .ofList (unit.sourcePaths.map packageRootOf)

/-- The ranks that `UnitContext::build` gives to the packages of a unit. -/
def UnitContext.ranked (context : UnitContext) (graph : PackageImportGraph) (unit : AnalysisUnit) :
    UnitContext :=
  { context with packageRank := fun root => (graph.dependencyRank (packageRoots unit))[root]? }

/-! ### The search -/

section Rank

variable {graph : PackageImportGraph} {roots : ExtTreeSet String} {a b : String}

theorem edge_within : Edge (graph.within roots) a b ↔ b ∈ roots ∧ b ∈ graph.imports[a]?.getD ∅ := by
  rw [Edge, PackageImportGraph.within, List.mem_filter, ExtTreeSet.mem_toList, decide_eq_true_eq,
    and_comm]

theorem Imports.edge (h : Imports graph roots a b) : Edge (graph.within roots) a b :=
  edge_within.2 h.2

/-- What leads from a root leads through roots. -/
theorem transGen_imports (ha : a ∈ roots) (h : TransGen (Edge (graph.within roots)) a b) :
    TransGen (Imports graph roots) a b := by
  induction h using TransGen.head_induction_on with
  | single hab => exact .single ⟨ha, edge_within.1 hab⟩
  | head hab _ ih => exact .head ⟨ha, edge_within.1 hab⟩ (ih (edge_within.1 hab).1)

/-- The ranks are the places in an order. -/
def RanksOrder (rank : ExtTreeMap String Nat) (order : List String) : Prop :=
  rank.size = order.length ∧ ∀ (k : String) (n : Nat), rank[k]? = some n ↔ order[n]? = some k

theorem RanksOrder.snoc {rank : ExtTreeMap String Nat} {order : List String} {root : String}
    (h : RanksOrder rank order) (hroot : root ∉ order) :
    RanksOrder (rank.insert root rank.size) (order ++ [root]) := by
  have hfresh : root ∉ rank := by
    rintro hmem
    obtain ⟨n, hn⟩ := mem_iff.1 hmem
    exact hroot (List.mem_of_getElem? ((h.2 root n).1 hn))
  refine ⟨?_, fun k n => ?_⟩
  · rw [ExtTreeMap.size_insert, if_neg (by simpa using hfresh), h.1, List.length_append,
      List.length_singleton]
  · have hlong (hlt : order.length < n) : (order ++ [root])[n]? = none := by
      refine List.getElem?_eq_none ?_
      rw [List.length_append, List.length_singleton]
      exact hlt
    rw [getElem?_insert, h.1]
    by_cases hk : k = root
    · subst hk
      rw [if_pos rfl, Option.some.injEq]
      constructor
      · rintro rfl
        exact List.getElem?_concat_length
      · intro hn
        rcases Nat.lt_trichotomy n order.length with hlt | rfl | hlt
        · rw [List.getElem?_append_left hlt] at hn
          exact absurd (List.mem_of_getElem? hn) hroot
        · rfl
        · rw [hlong hlt] at hn
          cases hn
    · rw [if_neg hk, h.2]
      rcases Nat.lt_trichotomy n order.length with hlt | rfl | hlt
      · rw [List.getElem?_append_left hlt]
      · rw [List.getElem?_concat_length, List.getElem?_eq_none (Nat.le_refl _), Option.some.injEq]
        exact iff_of_false (fun hnone => by cases hnone) (Ne.symm hk)
      · rw [List.getElem?_eq_none hlt.le, hlong hlt]

/-- The variables stand for a search. -/
structure Represents (graph : PackageImportGraph) (roots : ExtTreeSet String)
    (search : DependencyRank) (state : State String) : Prop where
  stack : state.stack = search.stack.map fun frame => (frame.1, (framed graph roots frame).reverse)
  visited : state.visited = fun k => k ∈ search.visited
  rank : RanksOrder search.rank state.order

/-- The head of a list that is kept the other way round. -/
theorem reverse_of_getLast? {l : List String} {target : String} (h : l.getLast? = some target) :
    l.reverse = target :: l.dropLast.reverse := by
  obtain ⟨init, rfl⟩ := List.getLast?_eq_some_iff.1 h
  rw [List.dropLast_concat, List.reverse_append, List.reverse_singleton, List.singleton_append]

theorem Represents.turn {search next : DependencyRank} {state : State String}
    (h : Represents graph roots search state) (hinv : Inv (graph.within roots) state)
    (hturn : rankTurn graph roots search = some next) :
    ∃ state', Turn (graph.within roots) state state' ∧ Represents graph roots next state' := by
  obtain ⟨stack, visited, rank⟩ := search
  obtain ⟨frames, seen, order⟩ := state
  obtain ⟨hstack, hvisited, hrank⟩ := h
  dsimp only at hstack hvisited hrank
  subst hstack hvisited
  unfold rankTurn at hturn
  cases stack with
  | nil => cases hturn
  | cons frame stack =>
    dsimp only at hturn
    cases hlast : (framed graph roots frame).getLast? with
    | none =>
      rw [hlast] at hturn
      obtain rfl := Option.some.inj hturn
      rw [List.getLast?_eq_none_iff] at hlast
      rw [List.map_cons, hlast, List.reverse_nil] at hinv ⊢
      have hfresh : frame.1 ∉ order := fun hmem =>
        List.disjoint_of_nodup_append hinv.nodup List.mem_cons_self hmem
      exact ⟨_, .finish, rfl, rfl, hrank.snoc hfresh⟩
    | some target =>
      rw [hlast] at hturn
      dsimp only at hturn
      rw [List.map_cons, reverse_of_getLast? hlast]
      by_cases htarget : target ∈ visited
      · rw [if_pos htarget] at hturn
        obtain rfl := Option.some.inj hturn
        exact ⟨_, .known htarget, rfl, rfl, hrank⟩
      · rw [if_neg htarget] at hturn
        obtain rfl := Option.some.inj hturn
        refine ⟨_, .visit htarget, ?_, mem_insert_iff.symm, hrank⟩
        simp [framed]

theorem rankTurn_eq_none {search : DependencyRank} (h : rankTurn graph roots search = none) :
    search.stack = [] := by
  unfold rankTurn at h
  cases hstack : search.stack with
  | nil => rfl
  | cons frame stack =>
    rw [hstack] at h
    dsimp only at h
    cases hlast : (framed graph roots frame).getLast? with
    | none =>
      rw [hlast] at h
      cases h
    | some target =>
      rw [hlast] at h
      dsimp only at h
      split_ifs at h

/-- The search ranks all roots. -/
theorem searches_rankFrom : Searches (graph.within roots) roots.toList (rankTurn graph roots)
    (rankFrom graph roots) (Represents graph roots) where
  nodup := ExtTreeSet.distinct_toList.imp fun {a b} hne (heq : a = b) =>
    hne (heq ▸ ReflCmp.compare_self)
  targets_mem k t ht := ExtTreeSet.mem_toList.2 (edge_within.1 ht).1
  turns hinv h hturn := h.turn hinv hturn
  stops := by
    intro s search h hnone
    rw [h.stack, rankTurn_eq_none hnone, List.map_nil]
  knows := by
    intro s search k h hk
    rw [h.visited] at hk
    exact if_pos hk
  enters := by
    intro s search k h _ hk _
    rw [h.visited] at hk
    refine ⟨_, _, if_neg hk, Nat.le_refl _, ?_, ?_, h.rank⟩
    · simp [framed]
    · rw [h.visited, mem_insert_iff]

/-- The order that the ranks stand for. -/
theorem dependencyRank_order (graph : PackageImportGraph) (roots : ExtTreeSet String) :
    ∃ order, RanksOrder (graph.dependencyRank roots) order ∧ order.Perm roots.toList ∧
      Finishing (Edge (graph.within roots)) order := by
  obtain ⟨search, hsearch, hperm, hfinishing⟩ :=
    (@searches_rankFrom graph roots).finished (s := ⟨[], ∅, ∅⟩)
      ⟨rfl, by simp, rfl, fun k n => by simp⟩
  exact ⟨search.order, hsearch.rank, hperm, hfinishing⟩

end Rank

/-- The ranks of a set of roots: every root has one, no two have the same, and, unless imports lead
from a root back to itself, a root has a greater one than those it imports. -/
structure RanksRoots (graph : PackageImportGraph) (roots : ExtTreeSet String)
    (rank : ExtTreeMap String Nat) : Prop where
  root_iff : ∀ root : String, (∃ n, rank[root]? = some n) ↔ root ∈ roots
  bound : ∀ (root : String) (n : Nat), rank[root]? = some n → n < roots.toList.length
  injective : ∀ (a b : String) (n : Nat), rank[a]? = some n → rank[b]? = some n → a = b
  imports_first : (∀ root, ¬ TransGen (Imports graph roots) root root) →
    ∀ (a b : String) (m n : Nat), Imports graph roots a b → rank[a]? = some m → rank[b]? = some n → n < m

/-- **Every root has a rank of its own, after those of the roots it imports.** -/
theorem ranksRoots_dependencyRank (graph : PackageImportGraph) (roots : ExtTreeSet String) :
    RanksRoots graph roots (graph.dependencyRank roots) := by
  obtain ⟨order, ⟨-, hrank⟩, hperm, hfinishing⟩ := dependencyRank_order graph roots
  have hnodup : order.Nodup := hperm.nodup_iff.2 (@searches_rankFrom graph roots).nodup
  refine ⟨fun root => ?_, fun root n hn => ?_, fun a b n ha hb => ?_,
    fun hacyclic a b m n hab hm hn => ?_⟩
  · simp only [hrank]
    rw [← ExtTreeSet.mem_toList, ← hperm.mem_iff, List.mem_iff_getElem?]
  · rw [hrank] at hn
    rw [← hperm.length_eq]
    exact (List.getElem?_eq_some_iff.1 hn).1
  · rw [hrank] at ha hb
    exact Option.some.inj (ha.symm.trans hb)
  · rw [hrank] at hm hn
    obtain ⟨hlength, hm⟩ := List.getElem?_eq_some_iff.1 hm
    have hsplit : order = order.take m ++ a :: order.drop (m + 1) := by
      rw [← hm, ← List.drop_eq_getElem_cons hlength, List.take_append_drop]
    have hcycle : ¬ TransGen (Edge (graph.within roots)) a a := fun h =>
      hacyclic a (transGen_imports hab.1 h)
    -- the imported root stands before the place of the importing one
    have hbefore : b ∈ order.take m := (hsplit ▸ hfinishing).targets_first hcycle hab.edge
    obtain ⟨k, hk⟩ := List.mem_iff_getElem?.1 hbefore
    rw [List.getElem?_take] at hk
    split_ifs at hk with hlt
    obtain ⟨hkl, hk⟩ := List.getElem?_eq_some_iff.1 hk
    obtain ⟨hnl, hn⟩ := List.getElem?_eq_some_iff.1 hn
    have hsame : k = n := hnodup.getElem_inj_iff.1 (hk.trans hn.symm)
    omega

example : (PackageImportGraph.dependencyRank ⟨ExtTreeMap.ofList [("a", ExtTreeSet.ofList ["b"])]⟩
    (ExtTreeSet.ofList ["a", "b"])).toList = [("a", 1), ("b", 0)] := by
  decide +kernel

/-! ### Batches -/

section Batches

variable {unit : AnalysisUnit} {context : UnitContext} {graph : PackageImportGraph}

/-- A granule does not come before one whose package it imports. -/
theorem not_imports_of_le
    (hacyclic : ∀ root, ¬ TransGen (Imports graph (packageRoots unit)) root root) {p q : Granule}
    (hle : granuleKey (context.ranked graph unit) p ≤ granuleKey (context.ranked graph unit) q) :
    ¬ Imports graph (packageRoots unit) p.packageRoot q.packageRoot := by
  intro himports
  have hranks := ranksRoots_dependencyRank graph (packageRoots unit)
  obtain ⟨m, hm⟩ := (hranks.root_iff p.packageRoot).2 himports.1
  obtain ⟨n, hn⟩ := (hranks.root_iff q.packageRoot).2 himports.2.1
  have hlt := hranks.imports_first hacyclic _ _ m n himports hm hn
  rw [granuleKey, granuleKey, Prod.Lex.toLex_le_toLex] at hle
  simp only [UnitContext.ranked, hm, hn, Option.getD_some] at hle
  omega

/-- **No batch holds a package that imports one of a later batch.** -/
theorem partition_imports_first (unit : AnalysisUnit) (boundary : AnalysisStageBoundary)
    (budget : AnalysisSplitBudget) (context : UnitContext) (graph : PackageImportGraph)
    (hstage : boundary.stage ≠ .syntaxStage)
    (hacyclic : ∀ root, ¬ TransGen (Imports graph (packageRoots unit)) root root) :
    (partition unit boundary true budget (context.ranked graph unit)).Pairwise fun earlier later =>
      ∀ p ∈ earlier.granules, ∀ q ∈ later.granules,
        ¬ Imports graph (packageRoots unit) p.packageRoot q.packageRoot := by
  by_cases hwhole : ((granules unit boundary.granularity (context.ranked graph unit)).isEmpty ||
      !boundary.splittable) = true
  · rw [partition, if_pos hwhole]
    exact List.pairwise_singleton _ _
  · rw [partition, if_neg hwhole]
    simp only [ne_eq, hstage, not_false_eq_true, and_self, if_true]
    have hsorted := sortByKey_sorted (granuleKey (context.ranked graph unit))
      (granules unit boundary.granularity (context.ranked graph unit))
    have hne : sortByKey (granuleKey (context.ranked graph unit))
        (granules unit boundary.granularity (context.ranked graph unit)) ≠ [] := by
      intro hempty
      have hperm := sortByKey_perm (granuleKey (context.ranked graph unit))
        (granules unit boundary.granularity (context.ranked graph unit))
      rw [hempty] at hperm
      simp [List.nil_perm.1 hperm] at hwhole
    have hdivides := divides_packed true budget hne
    rw [← hdivides.all, List.pairwise_flatMap] at hsorted
    exact hsorted.2.imp fun hle p hp q hq => not_imports_of_le hacyclic (hle p hp q hq)

end Batches

/-- **The groups are the components of the units, the ranks put imported packages first, and the
batches of a loader-scope stage divide its packages and keep that order.** -/
theorem contextGroups_dependencyRank_partition (S : StableIds) (plan : AnalysisPlan)
    (graph : PackageImportGraph) :
    GroupsUnits plan (contextGroups S plan) ∧
    (∀ roots, RanksRoots graph roots (graph.dependencyRank roots)) ∧
    ∀ (unit : AnalysisUnit) (boundary : AnalysisStageBoundary) (budget : AnalysisSplitBudget)
      (context : UnitContext),
      (∃ found, (granules unit boundary.granularity (context.ranked graph unit)).Perm found ∧
        Divides found (partition unit boundary true budget (context.ranked graph unit))) ∧
      (boundary.stage ≠ .syntaxStage →
        (∀ root, ¬ TransGen (Imports graph (packageRoots unit)) root root) →
        (partition unit boundary true budget (context.ranked graph unit)).Pairwise
          fun earlier later => ∀ p ∈ earlier.granules, ∀ q ∈ later.granules,
            ¬ Imports graph (packageRoots unit) p.packageRoot q.packageRoot) :=
  ⟨groupsUnits_contextGroups S plan, ranksRoots_dependencyRank graph,
    fun unit boundary budget context =>
      ⟨divides_partition unit boundary true budget (context.ranked graph unit),
        partition_imports_first unit boundary budget context graph⟩⟩

namespace PackageSample

/-- A unit of two packages, the first of which imports the second. -/
def unit : AnalysisUnit where
  id := "unit"
  adapter := .go
  executable := true
  unitRoot := "."
  sourcePaths := ["app/main.go", "lib/lib.go"]

def graph : PackageImportGraph where
  imports := ExtTreeMap.ofList [("app", ExtTreeSet.ofList ["lib"])]

def boundary : AnalysisStageBoundary where
  stage := .semantic
  loaderKind := .files
  referenceDepth := .pathsOnly
  granularity := .package
  outputSplittable := true
  inputSplittable := true
  stagedBodies := false

/-- One file for a batch. -/
def budget : AnalysisSplitBudget := ⟨2, 1, 100, 1000, 60, 1024⟩

def context : UnitContext where
  contextPaths := ["app/main.go", "lib/lib.go"]
  cyclePaths := []
  size := fun _ => 10
  packageRank := fun _ => none

theorem eq_of_imports {a b : String} (h : Imports graph (packageRoots unit) a b) :
    a = "app" ∧ b = "lib" := by
  obtain ⟨ha, -, himports⟩ := h
  rw [packageRoots, ExtTreeSet.mem_ofList, List.contains_iff_mem] at ha
  have hroots : unit.sourcePaths.map packageRootOf = ["app", "lib"] := by decide +kernel
  have happ : (graph.imports["app"]?.getD ∅).toList = ["lib"] := by decide +kernel
  have hlib : (graph.imports["lib"]?.getD ∅).toList = [] := by decide +kernel
  rw [← ExtTreeSet.mem_toList] at himports
  rw [hroots] at ha
  rcases List.mem_pair.1 ha with rfl | rfl
  · rw [happ] at himports
    exact ⟨rfl, List.mem_singleton.1 himports⟩
  · rw [hlib] at himports
    cases himports

theorem acyclic (root : String) : ¬ TransGen (Imports graph (packageRoots unit)) root root := by
  intro h
  have hfirst : ∀ a b, TransGen (Imports graph (packageRoots unit)) a b → a = "app" ∧ b = "lib" := by
    intro a b h
    induction h with
    | single h => exact eq_of_imports h
    | tail _ h ih => exact ⟨ih.1, (eq_of_imports h).2⟩
  obtain ⟨happ, hlib⟩ := hfirst root root h
  exact absurd (happ.symm.trans hlib) (by decide)

end PackageSample

open PackageSample in
/-- The imported package is in the first batch, and the other one in the second. -/
theorem contextGroups_dependencyRank_partition_sample :
    (partition unit boundary true budget (context.ranked graph unit)).map
        (fun batch => batch.granules.map (·.packageRoot)) = [["lib"], ["app"]] ∧
      (partition unit boundary true budget (context.ranked graph unit)).Pairwise
        fun earlier later => ∀ p ∈ earlier.granules, ∀ q ∈ later.granules,
          ¬ Imports graph (packageRoots unit) p.packageRoot q.packageRoot :=
  ⟨by decide +kernel, ((contextGroups_dependencyRank_partition SplitSample.stableIds
    ⟨[], List.nodup_nil⟩ graph).2.2 unit boundary budget context).2 (by decide) acyclic⟩

end Analysis
