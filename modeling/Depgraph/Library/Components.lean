import Mathlib.Logic.Relation
import Depgraph.Library.Search

/-!
# Strongly connected components

`Components` says that lists are the strongly connected components of a graph: each node stands in one
of them, and two nodes stand in the same one exactly if each can be reached from the other. What leads
from a node back to it stays in its component (`Walk.of_closed`, `Walk.of_reaches`).
-/

namespace Connected

open Relation Search

variable {K : Type} {R : K → K → Prop}

/-- Each of two nodes can be reached from the other. -/
def Mutual (R : K → K → Prop) (x y : K) : Prop := ReflTransGen R x y ∧ ReflTransGen R y x

theorem Mutual.refl (x : K) : Mutual R x x := ⟨.refl, .refl⟩

theorem Mutual.symm {x y : K} (h : Mutual R x y) : Mutual R y x := ⟨h.2, h.1⟩

theorem Mutual.trans {x y z : K} (hxy : Mutual R x y) (hyz : Mutual R y z) : Mutual R x z :=
  ⟨hxy.1.trans hyz.1, hyz.2.trans hxy.2⟩

/-- These lists are the strongly connected components of a graph with these nodes. -/
structure Components (R : K → K → Prop) (nodes : List K) (components : List (List K)) : Prop where
  nonempty : ∀ component ∈ components, component ≠ []
  perm : components.flatten.Perm nodes
  mem_iff : ∀ component ∈ components, ∀ x ∈ component, ∀ y ∈ nodes, y ∈ component ↔ Mutual R x y

/-- The nodes of a component, without the lists. -/
def IsComponent (R : K → K → Prop) (node : K → Prop) (component : Set K) : Prop :=
  ∃ x, node x ∧ component = {y | node y ∧ Mutual R x y}

section Lists

variable {nodes : List K} {components : List (List K)} {component : List K}

theorem Components.subset (h : Components R nodes components) (hmem : component ∈ components) {x : K}
    (hx : x ∈ component) : x ∈ nodes :=
  h.perm.subset (List.mem_flatten_of_mem hmem hx)

theorem Components.isComponent (h : Components R nodes components) (hmem : component ∈ components) :
    IsComponent R (· ∈ nodes) {x | x ∈ component} := by
  obtain ⟨x, hx⟩ := List.exists_mem_of_ne_nil _ (h.nonempty _ hmem)
  refine ⟨x, h.subset hmem hx, Set.ext fun y => ?_⟩
  constructor
  · intro hy
    exact ⟨h.subset hmem hy, (h.mem_iff _ hmem x hx y (h.subset hmem hy)).1 hy⟩
  · rintro ⟨hy, hmutual⟩
    exact (h.mem_iff _ hmem x hx y hy).2 hmutual

/-- Every component is among the lists. -/
theorem Components.exists_component (h : Components R nodes components) {C : Set K}
    (hC : IsComponent R (· ∈ nodes) C) : ∃ component ∈ components, C = {x | x ∈ component} := by
  obtain ⟨x, hx, rfl⟩ := hC
  obtain ⟨component, hmem, hxc⟩ := List.mem_flatten.1 (h.perm.symm.subset hx)
  refine ⟨component, hmem, Set.ext fun y => ?_⟩
  constructor
  · rintro ⟨hy, hmutual⟩
    exact (h.mem_iff _ hmem x hxc y hy).2 hmutual
  · intro hy
    exact ⟨h.subset hmem hy, (h.mem_iff _ hmem x hxc y (h.subset hmem hy)).1 hy⟩

/-- What leads from a node of a component back to it is of the component. -/
theorem Components.mem_of_mutual (h : Components R nodes components) (hR : ∀ x y, R x y → y ∈ nodes)
    (hmem : component ∈ components) {x y : K} (hx : x ∈ component) (hxy : ReflTransGen R x y)
    (hyx : ReflTransGen R y x) : y ∈ component := by
  have hy : y ∈ nodes := by
    cases hxy with
    | refl => exact h.subset hmem hx
    | tail _ hlast => exact hR _ _ hlast
  exact (h.mem_iff _ hmem x hx y hy).2 ⟨hxy, hyx⟩

/-- No component is listed twice. -/
theorem Components.nodup (h : Components R nodes components) (hnodes : nodes.Nodup) :
    (components.map fun component => {x | x ∈ component}).Nodup := by
  have hflat : components.flatten.Nodup := h.perm.nodup_iff.2 hnodes
  rw [List.nodup_flatten] at hflat
  refine (List.pairwise_map.2 (hflat.2.imp_of_mem ?_))
  intro a b ha _ hdisjoint hsame
  obtain ⟨x, hx⟩ := List.exists_mem_of_ne_nil _ (h.nonempty _ ha)
  have hboth : x ∈ {x | x ∈ b} := (Set.ext_iff.1 hsame x).1 hx
  exact hdisjoint hx hboth

end Lists

/-! ### Walks that lead back -/

/-- What leads on to a node of which this holds has led there through nodes of which it holds. -/
theorem Walk.of_reaches {P : K → Prop} {s k t : K} (hks : ReflTransGen R s k)
    (hkt : ReflTransGen R k t) (hP : ∀ z, ReflTransGen R s z → ReflTransGen R z t → P z) :
    ∃ n, Walk (fun x y => R x y ∧ P y) n s k := by
  induction hks with
  | refl => exact ⟨0, .refl s⟩
  | @tail x k hsx hxk ih =>
    obtain ⟨n, hwalk⟩ := ih (.head hxk hkt)
    exact ⟨n + 1, .snoc hwalk ⟨hxk, hP k (hsx.tail hxk) hkt⟩⟩

/-- A list of nodes that leads on from one node to another is a walk with one step more. -/
theorem Walk.of_closed {P : K → Prop} {s t : K} {inner : List K}
    (h : (s :: inner ++ [t]).IsChain R)
    (hP : ∀ z, ReflTransGen R s z → ReflTransGen R z t → P z) :
    ∃ k, Walk (fun x y => R x y ∧ P y) inner.length s k ∧ R k t := by
  suffices hall : ∀ s, (s :: inner ++ [t]).IsChain R → (∀ z, ReflTransGen R s z →
      ReflTransGen R z t → P z) → ReflTransGen R s t ∧
        ∃ k, Walk (fun x y => R x y ∧ P y) inner.length s k ∧ R k t from (hall s h hP).2
  clear h hP
  induction inner with
  | nil =>
    intro s h _
    have hst : R s t := by simpa using h
    exact ⟨.single hst, s, .refl s, hst⟩
  | cons a inner ih =>
    intro s h hP
    obtain ⟨hsa, hrest⟩ := List.isChain_cons_cons.1 h
    obtain ⟨hat, k, hwalk, hkt⟩ := ih a hrest fun z haz hzt => hP z (.head hsa haz) hzt
    exact ⟨.head hsa hat, k, .cons ⟨hsa, hP a (.single hsa) hat⟩ hwalk, hkt⟩

end Connected
