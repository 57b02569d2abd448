import Depgraph.Library.Metered
import Mathlib.Data.List.Induction

/-!
# The least item under each key

A map that keeps, of the items entered under a key, a least one. `KeepsLeast` says so of the items
that have been entered; entering one more keeps it, and items that are not less than another one
under the same key need not be entered (`KeepsLeast.of_covered`).
-/

namespace LeastUnderKey

open Std OrderedMap

variable {K W : Type} [Ord K] [TransOrd K] {key : W → K} {order : W → W → Ordering}

/-- Enters an item under a key, unless one that is not greater is there. -/
def keepLess (order : W → W → Ordering) (known : ExtTreeMap K W) (key : K) (item : W) :
    ExtTreeMap K W :=
  match known[key]? with
  | none => known.insert key item
  | some other => if order item other = .lt then known.insert key item else known

/-- The map holds, under each key of an item, a least one of the items with the key. -/
structure KeepsLeast (key : W → K) (order : W → W → Ordering) (items : W → Prop)
    (known : ExtTreeMap K W) : Prop where
  least : ∀ {k : K} {item : W}, known[k]? = some item →
    items item ∧ key item = k ∧ ∀ other, items other → key other = k → (order item other).isLE
  held : ∀ {item : W}, items item → known[key item]?.isSome

theorem KeepsLeast.exists_le {items : W → Prop} {known : ExtTreeMap K W}
    (h : KeepsLeast key order items known) {item : W} (hitem : items item) :
    ∃ least, known[key item]? = some least ∧ items least ∧ key least = key item ∧
      (order least item).isLE := by
  obtain ⟨least, hleast⟩ := Option.isSome_iff_exists.1 (h.held hitem)
  obtain ⟨hitems, hkey, hle⟩ := h.least hleast
  exact ⟨least, hleast, hitems, hkey, hle item hitem rfl⟩

theorem KeepsLeast.congr {items items' : W → Prop} {known : ExtTreeMap K W}
    (h : KeepsLeast key order items known) (hitems : ∀ item, items item ↔ items' item) :
    KeepsLeast key order items' known := by
  rwa [show items' = items from funext fun item => propext (hitems item).symm]

/-- Items that another one covers need not be entered. -/
theorem KeepsLeast.of_covered [TransCmp order] {items items' : W → Prop} {known : ExtTreeMap K W}
    (h : KeepsLeast key order items known) (hsub : ∀ item, items item → items' item)
    (hcover : ∀ item, items' item →
      ∃ other, items other ∧ key other = key item ∧ (order other item).isLE) :
    KeepsLeast key order items' known where
  least {k item} hk := by
    obtain ⟨hitem, hkey, hle⟩ := h.least hk
    refine ⟨hsub item hitem, hkey, fun other hother hother_key => ?_⟩
    obtain ⟨cover, hcovers, hcover_key, hcover_le⟩ := hcover other hother
    exact TransCmp.isLE_trans (hle cover hcovers (hcover_key.trans hother_key)) hcover_le
  held {item} hitem := by
    obtain ⟨cover, hcovers, hcover_key, -⟩ := hcover item hitem
    exact hcover_key ▸ h.held hcovers

theorem KeepsLeast.empty : KeepsLeast key order (fun _ => False) (∅ : ExtTreeMap K W) where
  least h := by
    rw [ExtTreeMap.getElem?_empty] at h
    cases h
  held h := h.elim

section Work

open Metered

variable {σ ε T : Type}

/-- A loop that enters an item for some of the elements, in a computation that may fail. -/
theorem KeepsLeast.foldlM {f : ExtTreeMap K W → T → Work σ ε (ExtTreeMap K W)}
    {items : T → W → Prop} {before : W → Prop} {known : ExtTreeMap K W} {l : List T}
    (hknown : KeepsLeast key order before known)
    (hf : ∀ t ∈ l, ∀ before known, KeepsLeast key order before known →
      Ensures (f known t) (KeepsLeast key order fun w => before w ∨ items t w)) :
    Ensures (l.foldlM f known)
      (KeepsLeast key order fun w => before w ∨ ∃ t ∈ l, items t w) := by
  refine Ensures.foldlM (motive := fun (done : List T) known =>
    KeepsLeast key order (fun w => before w ∨ ∃ t ∈ done, items t w) known) ?_ ?_
  · exact hknown.congr fun w => by simp
  · intro done t acc hdone hacc
    have ht : t ∈ l := hdone.subset (List.mem_append_right _ List.mem_cons_self)
    refine (hf t ht _ acc hacc).mono fun next hnext => hnext.congr fun w => ?_
    simp [or_and_right, exists_or, or_assoc]

end Work

variable [LawfulEqOrd K]

/-- What the map holds is a value of it. -/
theorem KeepsLeast.mem_values {items : W → Prop} {known : ExtTreeMap K W}
    (h : KeepsLeast key order items known) {item : W} (hitem : item ∈ values known) :
    items item := by
  obtain ⟨k, hk⟩ := OrderedMap.mem_values.1 hitem
  exact (h.least hk).1

variable [DecidableEq K] [TransCmp order]

/-- One more item. -/
theorem KeepsLeast.keepLess {items : W → Prop} {known : ExtTreeMap K W}
    (h : KeepsLeast key order items known) (item : W) :
    KeepsLeast key order (fun other => items other ∨ other = item)
      (keepLess order known (key item) item) := by
  unfold LeastUnderKey.keepLess
  have hself : (order item item).isLE := ReflCmp.isLE_rfl
  -- the item is entered, as no other one under its key is less
  have insert (hle : ∀ other, items other → key other = key item → (order item other).isLE) :
      KeepsLeast key order (fun other => items other ∨ other = item)
        (known.insert (key item) item) :=
    { least := fun {k kept} hk => by
        rw [getElem?_insert] at hk
        split_ifs at hk with hkey
        · obtain rfl := Option.some.inj hk
          refine ⟨.inr rfl, hkey.symm, fun other hother hother_key => ?_⟩
          rcases hother with hother | rfl
          · exact hle other hother (hother_key.trans hkey)
          · exact hself
        · obtain ⟨hkept, hkept_key, hkept_le⟩ := h.least hk
          refine ⟨.inl hkept, hkept_key, fun other hother hother_key => ?_⟩
          rcases hother with hother | rfl
          · exact hkept_le other hother hother_key
          · exact absurd hother_key.symm hkey
      held := fun {other} hother => by
        rw [getElem?_insert]
        split_ifs with hkey
        · rfl
        · rcases hother with hother | rfl
          · exact h.held hother
          · exact absurd rfl hkey }
  split
  case h_1 hnone =>
    refine insert fun other hother hkey => ?_
    have hheld := h.held hother
    rw [hkey, hnone] at hheld
    cases hheld
  case h_2 kept hkept =>
    obtain ⟨hkept_items, hkept_key, hkept_le⟩ := h.least hkept
    split_ifs with hlt
    · refine insert fun other hother hkey => TransCmp.isLE_trans ?_ (hkept_le other hother hkey)
      rw [hlt]
      rfl
    -- the item is not entered, as the one that is there is not greater
    · have hle : (order kept item).isLE := by
        rw [(OrientedCmp.eq_swap : order kept item = (order item kept).swap)]
        cases hord : order item kept with
        | lt => exact absurd hord hlt
        | eq => rfl
        | gt => rfl
      refine { least := fun {k other} hk => ?_, held := fun {other} hother => ?_ }
      · obtain ⟨hother, hother_key, hother_le⟩ := h.least hk
        refine ⟨.inl hother, hother_key, fun third hthird hthird_key => ?_⟩
        rcases hthird with hthird | rfl
        · exact hother_le third hthird hthird_key
        · rw [hthird_key, hk] at hkept
          obtain rfl := Option.some.inj hkept
          exact hle
      · rcases hother with hother | rfl
        · exact h.held hother
        · rw [hkept]
          rfl

/-- A loop that enters an item for some of the elements. -/
theorem KeepsLeast.foldl {T : Type} {f : ExtTreeMap K W → T → ExtTreeMap K W}
    {item : T → Option W} (hf : ∀ known t, f known t =
      (item t).elim known fun item => LeastUnderKey.keepLess order known (key item) item)
    (l : List T) :
    KeepsLeast key order (fun w => ∃ t ∈ l, item t = some w) (l.foldl f ∅) := by
  induction l using List.reverseRecOn with
  | nil => exact KeepsLeast.empty.congr fun w => by simp
  | append_singleton l t ih =>
    rw [List.foldl_append, List.foldl_cons, List.foldl_nil, hf]
    cases ht : item t with
    | none => exact ih.congr fun w => by simp [or_and_right, exists_or, ht]
    | some made =>
      refine (ih.keepLess made).congr fun w => ?_
      simp [or_and_right, exists_or, ht, eq_comm]

end LeastUnderKey
