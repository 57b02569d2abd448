import Depgraph.Library.SortDedup

/-!
# Blocks of a strictly ordered list

A block of consecutive elements is found again between its first and its last element. What a list of
records says about an element can be read from a part of the list that holds all that matters.
-/

namespace Blocks

open SortDedup

section Order

variable {α : Type*} [LinearOrder α]

/-- The elements of a nonempty list lie between the ends of the list when it is ordered. -/
theorem between_ends {block : List α} (hblock : block.Pairwise (· < ·)) (hne : block ≠ []) {a : α}
    (ha : a ∈ block) : block.head hne ≤ a ∧ a ≤ block.getLast hne := by
  constructor
  · obtain ⟨first, rest, rfl⟩ := List.exists_cons_of_ne_nil hne
    rcases List.mem_cons.1 ha with rfl | ha
    · exact le_rfl
    · exact ((List.pairwise_cons.1 hblock).1 a ha).le
  · obtain ⟨front, last, rfl⟩ := List.eq_nil_or_concat block |>.resolve_left hne
    rw [List.concat_eq_append] at ha hblock
    simp only [List.concat_eq_append, List.getLast_append_singleton]
    rcases List.mem_append.1 ha with ha | ha
    · exact ((List.pairwise_append.1 hblock).2.2 a ha last (List.mem_singleton_self last)).le
    · rw [List.mem_singleton.1 ha]

/-- **A block is what lies between its ends.** -/
theorem filter_between {front block back : List α}
    (h : (front ++ block ++ back).Pairwise (· < ·)) (hne : block ≠ []) :
    (front ++ block ++ back).filter
      (fun a => decide (block.head hne ≤ a) && decide (a ≤ block.getLast hne)) = block := by
  obtain ⟨hleft, -, hafter⟩ := List.pairwise_append.1 h
  obtain ⟨-, hblock, hbefore⟩ := List.pairwise_append.1 hleft
  have hfront : front.filter
      (fun a => decide (block.head hne ≤ a) && decide (a ≤ block.getLast hne)) = [] := by
    refine List.filter_eq_nil_iff.2 fun a ha => ?_
    have hlt : a < block.head hne := hbefore a ha _ (List.head_mem hne)
    simp [hlt.not_ge]
  have hback : back.filter
      (fun a => decide (block.head hne ≤ a) && decide (a ≤ block.getLast hne)) = [] := by
    refine List.filter_eq_nil_iff.2 fun a ha => ?_
    have hlt : block.getLast hne < a :=
      hafter _ (List.mem_append_right front (List.getLast_mem hne)) a ha
    simp [hlt.not_ge]
  have hmiddle : block.filter
      (fun a => decide (block.head hne ≤ a) && decide (a ≤ block.getLast hne)) = block := by
    refine List.filter_eq_self.2 fun a ha => ?_
    obtain ⟨hlow, hhigh⟩ := between_ends hblock hne ha
    simp [hlow, hhigh]
  rw [List.filter_append, List.filter_append, hfront, hback, hmiddle, List.nil_append,
    List.append_nil]

end Order

/-! ### Parts of a list of records -/

section Records

variable {α β γ : Type*}

/-- Elements of which nothing is taken may be left out. -/
theorem flatMap_filter_of_nil {f : α → List β} {p : α → Bool} {l : List α}
    (h : ∀ a ∈ l, p a = false → f a = []) : (l.filter p).flatMap f = l.flatMap f := by
  induction l with
  | nil => rfl
  | cons a l ih =>
    have hrest := ih fun b hb => h b (List.mem_cons_of_mem a hb)
    cases hp : p a with
    | false => simp [hp, h a List.mem_cons_self hp, hrest]
    | true => simp [hp, hrest]

theorem filterMap_filter_of_none {f : α → Option β} {p : α → Bool} {l : List α}
    (h : ∀ a ∈ l, p a = false → f a = none) : (l.filter p).filterMap f = l.filterMap f := by
  rw [List.filterMap_eq_flatMap_toList, List.filterMap_eq_flatMap_toList]
  refine flatMap_filter_of_nil fun a ha hp => ?_
  rw [h a ha hp, Option.toList_none]

/-- The records with one key, where keys are unique. -/
theorem find?_of_key_nodup {key : α → γ} {l : List α} (h : (l.map key).Nodup) {a : α} (ha : a ∈ l)
    {p : α → Bool} (hp : ∀ b, p b = true → key b = key a) :
    l.find? p = if p a then some a else none := by
  cases hfound : l.find? p with
  | none => rw [if_neg (List.find?_eq_none.1 hfound a ha)]
  | some b =>
    have hb : b ∈ l := List.mem_of_find?_eq_some hfound
    have hpb : p b = true := List.find?_some hfound
    obtain rfl : b = a := List.inj_on_of_nodup_map h hb ha (hp b hpb)
    rw [if_pos hpb]

/-- Where keys are unique, the order of the records does not matter to what is found by a key. -/
theorem find?_reverse_perm {key : α → γ} {l l' : List α} (h : (l.map key).Nodup)
    (hperm : l.Perm l') {p : α → Bool} (hp : ∀ a b, p a = true → p b = true → key a = key b) :
    l.reverse.find? p = l'.reverse.find? p := by
  have hnodup : (l.reverse.map key).Nodup := ((List.reverse_perm l).map key).nodup_iff.2 h
  cases hfound : l'.reverse.find? p with
  | none =>
    refine List.find?_eq_none.2 fun a ha => List.find?_eq_none.1 hfound a ?_
    exact List.mem_reverse.2 (hperm.mem_iff.1 (List.mem_reverse.1 ha))
  | some a =>
    have hpa : p a = true := List.find?_some hfound
    have ha : a ∈ l.reverse := List.mem_reverse.2
      (hperm.mem_iff.2 (List.mem_reverse.1 (List.mem_of_find?_eq_some hfound)))
    rw [find?_of_key_nodup hnodup ha fun b hb => hp b a hb hpa, if_pos hpa]

/-- A list of records that is a permutation of another as far as their unique keys go. -/
theorem perm_of_map_perm {key : α → γ} {l l' : List α} (h : (l'.map key).Nodup)
    (hsub : ∀ a ∈ l, a ∈ l') (hperm : (l.map key).Perm (l'.map key)) : l.Perm l' := by
  have hnodup : (l.map key).Nodup := hperm.nodup_iff.2 h
  refine (List.perm_ext_iff_of_nodup hnodup.of_map h.of_map).2 fun a => ⟨hsub a, fun ha => ?_⟩
  obtain ⟨b, hb, hkey⟩ := List.mem_map.1 (hperm.mem_iff.2 (List.mem_map_of_mem ha))
  rwa [← List.inj_on_of_nodup_map h (hsub b hb) ha hkey]

variable [LinearOrder γ]

/-- A part of a list in order is in order. -/
theorem sortByKey_filter {key : α → γ} {l : List α} (h : l.Pairwise fun a b => key a < key b)
    (p : α → Bool) : sortByKey key (l.filter p) = l.filter p :=
  sortByKey_eq_self key ((h.imp fun hlt => hlt.le).sublist List.filter_sublist)

end Records

end Blocks
