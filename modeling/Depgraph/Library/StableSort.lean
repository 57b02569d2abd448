import Depgraph.Library.SortDedup

/-!
# Stability of sorting by a key

Sorting by a key leaves the elements with one key as they were (`filter_key_sortByKey`), and a sorted
list is known by its elements with each key (`eq_of_filter_key`). So sorting commutes with what
respects keys: with the choice of some of the elements, with maps, and with sorting a part first.
-/

namespace SortDedup

variable {α β γ : Type*} [LinearOrder β] {key : α → β}

/-- The elements with one key. -/
def withKey (key : α → β) (k : β) (l : List α) : List α := l.filter fun a => key a = k

theorem withKey_cons (k : β) (a : α) (l : List α) :
    withKey key k (a :: l) = (if key a = k then [a] else []) ++ withKey key k l := by
  unfold withKey
  split_ifs with h <;> simp [h]

theorem withKey_append (k : β) (l l' : List α) :
    withKey key k (l ++ l') = withKey key k l ++ withKey key k l' :=
  List.filter_append ..

theorem withKey_orderedInsert (k : β) (a : α) (l : List α) :
    withKey key k (l.orderedInsert (fun a b => key a ≤ key b) a) = withKey key k (a :: l) := by
  induction l with
  | nil => rfl
  | cons b l ih =>
    rw [List.orderedInsert_cons]
    split_ifs with hle
    · rfl
    -- the two elements change places, and they have different keys
    · rw [withKey_cons, ih, withKey_cons, withKey_cons, withKey_cons]
      by_cases ha : key a = k
      · have hb : key b ≠ k := fun hb => hle (ha.trans hb.symm).le
        rw [if_neg hb, List.nil_append, List.nil_append]
      · rw [if_neg ha, List.nil_append, List.nil_append]

/-- **The elements with one key stay in their order.** -/
theorem withKey_sortByKey (k : β) (l : List α) : withKey key k (sortByKey key l) = withKey key k l := by
  induction l with
  | nil => rfl
  | cons a l ih =>
    have hstep : sortByKey key (a :: l) =
        (sortByKey key l).orderedInsert (fun a b => key a ≤ key b) a := rfl
    rw [hstep, withKey_orderedInsert, withKey_cons, ih, ← withKey_cons]

theorem key_le_of_withKey {a b : α} {l l' : List α}
    (hsorted : (b :: l').Pairwise fun a b => key a ≤ key b)
    (h : ∀ k, withKey key k (a :: l) = withKey key k (b :: l')) : key b ≤ key a := by
  have ha : a ∈ withKey key (key a) (a :: l) := List.mem_filter.2 ⟨List.mem_cons_self, by simp⟩
  rw [h] at ha
  rcases List.mem_cons.1 (List.mem_of_mem_filter ha) with rfl | ha
  · exact le_rfl
  · exact List.rel_of_pairwise_cons hsorted ha

/-- **A sorted list is known by its elements with each key.** -/
theorem eq_of_withKey {l l' : List α} (hl : l.Pairwise fun a b => key a ≤ key b)
    (hl' : l'.Pairwise fun a b => key a ≤ key b) (h : ∀ k, withKey key k l = withKey key k l') :
    l = l' := by
  induction l generalizing l' with
  | nil =>
    cases l' with
    | nil => rfl
    | cons b l' =>
      have hb := h (key b)
      rw [withKey_cons, if_pos rfl] at hb
      cases hb
  | cons a l ih =>
    cases l' with
    | nil =>
      have ha := h (key a)
      rw [withKey_cons, if_pos rfl] at ha
      cases ha
    | cons b l' =>
      have hkey : key a = key b :=
        (key_le_of_withKey hl fun k => (h k).symm).antisymm (key_le_of_withKey hl' h)
      have hab := h (key a)
      rw [withKey_cons, withKey_cons, if_pos rfl, if_pos hkey.symm] at hab
      obtain rfl : a = b := (List.cons.inj hab).1
      rw [ih hl.of_cons hl'.of_cons fun k => List.append_cancel_left
        (by simpa only [withKey_cons] using h k)]

/-- Lists with the same elements of each key are sorted in one way. -/
theorem sortByKey_eq_of_withKey {l l' : List α} (h : ∀ k, withKey key k l = withKey key k l') :
    sortByKey key l = sortByKey key l' :=
  eq_of_withKey (sortByKey_sorted key l) (sortByKey_sorted key l') fun k => by
    rw [withKey_sortByKey, withKey_sortByKey, h k]

/-- Choosing elements before or after sorting makes no difference. -/
theorem filter_sortByKey (p : α → Bool) (l : List α) :
    (sortByKey key l).filter p = sortByKey key (l.filter p) := by
  refine eq_of_withKey ((sortByKey_sorted key l).filter p) (sortByKey_sorted key _) fun k => ?_
  rw [withKey_sortByKey]
  unfold withKey
  rw [List.filter_comm, List.filter_comm (l := l)]
  exact congrArg (List.filter p) (withKey_sortByKey k l)

/-- A part can be sorted first. -/
theorem sortByKey_sortByKey_append (l l' : List α) :
    sortByKey key (sortByKey key l ++ l') = sortByKey key (l ++ l') :=
  sortByKey_eq_of_withKey fun k => by rw [withKey_append, withKey_append, withKey_sortByKey]

/-- What keeps keys can be applied before or after sorting. -/
theorem map_sortByKey {key' : γ → β} (f : α → γ) (hf : ∀ a, key' (f a) = key a) (l : List α) :
    (sortByKey key l).map f = sortByKey key' (l.map f) :=
  List.map_insertionSort _ _ f l fun a _ b _ => by rw [hf, hf]

end SortDedup
