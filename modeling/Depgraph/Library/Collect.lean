import Depgraph.Library.Fallible
import Depgraph.Library.OrderedMap
import Mathlib.Algebra.BigOperators.Group.List.Basic
import Mathlib.Algebra.Ring.Nat

/-!
# Loops that collect records under their keys

* `Collects keeps found l m`: the map holds what was found for each record of the list that is kept,
  under the key of the record. A loop that skips or checks and inserts collects
  (`collects_foldlM`).
* `countP_sum`: items counted class by class, when every item is of one of the classes, add up to
  the number of items.
-/

namespace OrderedMap

open Std Fallible

variable {K V α ε : Type} [Ord K] [TransOrd K] [LawfulEqOrd K] [DecidableEq K]

/-- The map holds what was found for the kept records of the list, and nothing else. -/
structure Collects (key : α → K) (keeps : α → Prop) (found : α → V → Prop) (l : List α)
    (m : ExtTreeMap K V) : Prop where
  sound : ∀ (k : K) (v : V), m[k]? = some v → ∃ a ∈ l, keeps a ∧ key a = k ∧ found a v
  complete : ∀ a ∈ l, keeps a → ∃ v, found a v ∧ m[key a]? = some v

variable {key : α → K} {keeps : α → Prop} {found : α → V → Prop} {l : List α} {m : ExtTreeMap K V}

omit [LawfulEqOrd K] [DecidableEq K] in
theorem Collects.mem_iff (h : Collects key keeps found l m) {k : K} :
    k ∈ m ↔ ∃ a ∈ l, keeps a ∧ key a = k := by
  rw [OrderedMap.mem_iff]
  constructor
  · rintro ⟨v, hv⟩
    obtain ⟨a, ha, hkeeps, hkey, -⟩ := h.sound k v hv
    exact ⟨a, ha, hkeeps, hkey⟩
  · rintro ⟨a, ha, hkeeps, rfl⟩
    obtain ⟨v, -, hv⟩ := h.complete a ha hkeeps
    exact ⟨v, hv⟩

omit [LawfulEqOrd K] [DecidableEq K] in
theorem Collects.mono {found' : α → V → Prop} (h : Collects key keeps found l m)
    (hfound : ∀ a v, found a v → found' a v) : Collects key keeps found' l m where
  sound k v hv := by
    obtain ⟨a, ha, hkeeps, hkey, hv⟩ := h.sound k v hv
    exact ⟨a, ha, hkeeps, hkey, hfound a v hv⟩
  complete a ha hkeeps := by
    obtain ⟨v, hv, hlookup⟩ := h.complete a ha hkeeps
    exact ⟨v, hfound a v hv, hlookup⟩

omit [LawfulEqOrd K] [DecidableEq K] in
/-- The order of the list does not matter, and what is not kept may be dropped first. -/
theorem Collects.of_mem_iff {l' : List α} {keeps' : α → Prop} (h : Collects key keeps found l m)
    (hiff : ∀ a, a ∈ l ∧ keeps a ↔ a ∈ l' ∧ keeps' a) : Collects key keeps' found l' m where
  sound k v hv := by
    obtain ⟨a, ha, hkeeps, hrest⟩ := h.sound k v hv
    obtain ⟨ha', hkeeps'⟩ := (hiff a).1 ⟨ha, hkeeps⟩
    exact ⟨a, ha', hkeeps', hrest⟩
  complete a ha hkeeps := by
    obtain ⟨ha', hkeeps'⟩ := (hiff a).2 ⟨ha, hkeeps⟩
    exact h.complete a ha' hkeeps'

/-- A loop over records with distinct keys that skips a record, or inserts what it has found for it
under its key. -/
theorem collects_foldlM {step : ExtTreeMap K V → α → Except ε (ExtTreeMap K V)}
    (hstep : ∀ (m : ExtTreeMap K V) (a : α) (m' : ExtTreeMap K V), step m a = .ok m' →
      ¬ keeps a ∧ m' = m ∨ keeps a ∧ ∃ v, found a v ∧ m' = m.insert (key a) v)
    (hnodup : (l.map key).Nodup) (h : l.foldlM step ∅ = Except.ok m) :
    Collects key keeps found l m := by
  refine foldlM_induction (motive := fun done m => (done.map key).Nodup →
    Collects key keeps found done m) h (fun _ => ?_) (fun done a m m' ih hturn hdistinct => ?_) hnodup
  · refine ⟨fun k v hv => ?_, by simp⟩
    rw [ExtTreeMap.getElem?_empty] at hv
    cases hv
  · rw [List.map_append, List.map_singleton, List.nodup_append] at hdistinct
    have hdone : Collects key keeps found done m := ih hdistinct.1
    rcases hstep m a m' hturn with ⟨hskip, rfl⟩ | ⟨hkeep, v, hfound, rfl⟩
    · refine ⟨fun k v hv => ?_, fun b hb hkeeps => ?_⟩
      · obtain ⟨b, hb, hrest⟩ := hdone.sound k v hv
        exact ⟨b, List.mem_append_left _ hb, hrest⟩
      · rcases List.mem_append.1 hb with hb | hb
        · exact hdone.complete b hb hkeeps
        · exact absurd (List.mem_singleton.1 hb ▸ hkeeps) hskip
    · refine ⟨fun k w hw => ?_, fun b hb hkeeps => ?_⟩
      · rw [getElem?_insert] at hw
        split_ifs at hw with hk
        · exact ⟨a, by simp, hkeep, hk.symm, Option.some.inj hw ▸ hfound⟩
        · obtain ⟨b, hb, hrest⟩ := hdone.sound k w hw
          exact ⟨b, List.mem_append_left _ hb, hrest⟩
      · rcases List.mem_append.1 hb with hb | hb
        · obtain ⟨w, hw, hlookup⟩ := hdone.complete b hb hkeeps
          have hne : key b ≠ key a :=
            hdistinct.2.2 _ (List.mem_map_of_mem hb) _ (List.mem_singleton.2 rfl)
          exact ⟨w, hw, by rw [getElem?_insert, if_neg hne, hlookup]⟩
        · obtain rfl := List.mem_singleton.1 hb
          exact ⟨v, hfound, by rw [getElem?_insert, if_pos rfl]⟩

omit [LawfulEqOrd K] [DecidableEq K] in
/-- **Two maps that were collected from records with the same keys are equal when what was found for
each record is.** -/
theorem Collects.eq_iff {β : Type} {key' : β → K} {keeps' : β → Prop} {found' : β → V → Prop}
    {l' : List β} {m' : ExtTreeMap K V} {P : α → Prop} [LawfulEqOrd K]
    (h : Collects key keeps found l m) (h' : Collects key' keeps' found' l' m')
    (hto : ∀ a ∈ l, keeps a → ∃ b ∈ l', keeps' b ∧ key' b = key a ∧
      ∀ v w, found a v → found' b w → (v = w ↔ P a))
    (hfrom : ∀ b ∈ l', keeps' b → ∃ a ∈ l, keeps a ∧ key a = key' b) :
    m = m' ↔ ∀ a ∈ l, keeps a → P a := by
  constructor
  · rintro rfl a ha hkeeps
    obtain ⟨v, hv, hlookup⟩ := h.complete a ha hkeeps
    obtain ⟨b, hb, hkeeps', hkey, hiff⟩ := hto a ha hkeeps
    obtain ⟨w, hw, hlookup'⟩ := h'.complete b hb hkeeps'
    rw [hkey, hlookup] at hlookup'
    exact (hiff v w hv hw).1 (Option.some.inj hlookup')
  · intro hall
    have hsame : ∀ a ∈ l, keeps a → m[key a]? = m'[key a]? := by
      intro a ha hkeeps
      obtain ⟨v, hv, hlookup⟩ := h.complete a ha hkeeps
      obtain ⟨b, hb, hkeeps', hkey, hiff⟩ := hto a ha hkeeps
      obtain ⟨w, hw, hlookup'⟩ := h'.complete b hb hkeeps'
      rw [hlookup, ← hkey, hlookup', (hiff v w hv hw).2 (hall a ha hkeeps)]
    refine ExtTreeMap.ext_getElem? fun k => ?_
    cases hk : m[k]? with
    | some v =>
      obtain ⟨a, ha, hkeeps, rfl, -⟩ := h.sound k v hk
      rw [← hk, hsame a ha hkeeps]
    | none =>
      cases hk' : m'[k]? with
      | none => rfl
      | some w =>
        obtain ⟨b, hb, hkeeps', rfl, -⟩ := h'.sound k w hk'
        obtain ⟨a, ha, hkeeps, hkey⟩ := hfrom b hb hkeeps'
        rw [← hkey, ← hsame a ha hkeeps, hkey, hk] at hk'
        cases hk'

/-- What a turn of a collecting loop does: it skips the record, or inserts what `find` returns for it
under the key of the record. -/
structure CollectStep (key : α → K) (keeps : α → Prop) (find : α → Except ε V)
    (step : ExtTreeMap K V → α → Except ε (ExtTreeMap K V)) : Prop where
  skip : ∀ (m : ExtTreeMap K V) (a : α), ¬ keeps a → step m a = .ok m
  take : ∀ (m : ExtTreeMap K V) (a : α) (v : V), keeps a → key a ∉ m → find a = .ok v →
    step m a = .ok (m.insert (key a) v)
  found : ∀ (m : ExtTreeMap K V) (a : α) (m' : ExtTreeMap K V), keeps a → step m a = .ok m' →
    ∃ v, find a = .ok v ∧ m' = m.insert (key a) v

namespace CollectStep

variable {find : α → Except ε V} {step : ExtTreeMap K V → α → Except ε (ExtTreeMap K V)}
  (h : CollectStep key keeps find step)

include h

theorem collects (hnodup : (l.map key).Nodup) (hrun : l.foldlM step ∅ = .ok m) :
    Collects key keeps (fun a v => find a = .ok v) l m := by
  refine collects_foldlM (fun m a m' hstep => ?_) hnodup hrun
  by_cases hkeeps : keeps a
  · exact .inr ⟨hkeeps, h.found m a m' hkeeps hstep⟩
  · rw [h.skip m a hkeeps] at hstep
    exact .inl ⟨hkeeps, (Except.ok.inj hstep).symm⟩

omit [DecidableEq K] in
/-- A loop over records with keys that are new to it ends when something is found for each record. -/
theorem exists_foldlM (hnodup : (l.map key).Nodup) (hnew : ∀ a ∈ l, key a ∉ m)
    (hfinds : ∀ a ∈ l, keeps a → ∃ v, find a = .ok v) : ∃ m', l.foldlM step m = .ok m' := by
  induction l generalizing m with
  | nil => exact ⟨m, rfl⟩
  | cons a l ih =>
    rw [List.map_cons, List.nodup_cons] at hnodup
    have hrest : ∀ b ∈ l, keeps b → ∃ v, find b = .ok v := fun b hb =>
      hfinds b (List.mem_cons_of_mem a hb)
    rw [List.foldlM_cons]
    by_cases hkeeps : keeps a
    · obtain ⟨v, hv⟩ := hfinds a List.mem_cons_self hkeeps
      rw [h.take m a v hkeeps (hnew a List.mem_cons_self) hv]
      refine ih hnodup.2 (fun b hb hmem => ?_) hrest
      rcases ExtTreeMap.mem_insert.1 hmem with heq | hmem
      · rw [Std.compare_eq_iff_eq] at heq
        exact hnodup.1 (heq ▸ List.mem_map_of_mem hb)
      · exact hnew b (List.mem_cons_of_mem a hb) hmem
    · rw [h.skip m a hkeeps]
      exact ih hnodup.2 (fun b hb => hnew b (List.mem_cons_of_mem a hb)) hrest

/-- **The loop ends exactly when something is found for each record that is kept.** -/
theorem exists_iff (hnodup : (l.map key).Nodup) :
    (∃ m, l.foldlM step ∅ = .ok m) ↔ ∀ a ∈ l, keeps a → ∃ v, find a = .ok v := by
  constructor
  · rintro ⟨m, hm⟩ a ha hkeeps
    obtain ⟨v, hv, -⟩ := (h.collects hnodup hm).complete a ha hkeeps
    exact ⟨v, hv⟩
  · exact h.exists_foldlM hnodup fun a _ => ExtTreeMap.not_mem_empty

/-- What the map holds was found for a record, whether or not keys are distinct. -/
theorem exists_of_getElem? (hrun : l.foldlM step ∅ = .ok m) {k : K} {v : V} (hk : m[k]? = some v) :
    ∃ a ∈ l, key a = k ∧ find a = .ok v := by
  refine foldlM_induction (motive := fun done m => ∀ v, m[k]? = some v →
    ∃ a ∈ done, key a = k ∧ find a = .ok v) hrun (fun v hv => ?_)
    (fun done a m m' ih hturn v hv => ?_) v hk
  · rw [ExtTreeMap.getElem?_empty] at hv
    cases hv
  · have hdone (hv : m[k]? = some v) : ∃ b ∈ done ++ [a], key b = k ∧ find b = .ok v := by
      obtain ⟨b, hb, hfound⟩ := ih v hv
      exact ⟨b, List.mem_append_left _ hb, hfound⟩
    by_cases hkeeps : keeps a
    · obtain ⟨w, hw, rfl⟩ := h.found m a m' hkeeps hturn
      rw [getElem?_insert] at hv
      split_ifs at hv with heq
      · exact ⟨a, by simp, heq.symm, Option.some.inj hv ▸ hw⟩
      · exact hdone hv
    · rw [h.skip m a hkeeps] at hturn
      exact hdone (Except.ok.inj hturn ▸ hv)

end CollectStep

/-- A map that is built from values under the keys of the records they are found for. -/
theorem collects_indexed {W : Type} {key : V → K} {record : W → V} {l : List W}
    (h : ((l.map record).map key).Nodup) :
    Collects key (fun _ => True) (fun a w => w ∈ l ∧ record w = a) (l.map record)
      (indexed (fun w => key (record w)) l) := by
  rw [List.map_map] at h
  refine ⟨fun k w hw => ?_, fun a ha _ => ?_⟩
  · obtain ⟨hmem, hkey⟩ := (getElem?_indexed h).1 hw
    exact ⟨record w, List.mem_map_of_mem hmem, trivial, hkey, hmem, rfl⟩
  · obtain ⟨w, hw, rfl⟩ := List.mem_map.1 ha
    exact ⟨w, ⟨hw, rfl⟩, (getElem?_indexed h).2 ⟨hw, rfl⟩⟩

section Values

variable {p : α → Bool} {record : V → α} (h : Collects key (p · = true) found l m)
  (hrecord : ∀ a v, found a v → record v = a)

include h hrecord

omit [DecidableEq K] in
theorem Collects.mem_values {v : V} (hv : v ∈ values m) :
    record v ∈ l ∧ p (record v) = true ∧ found (record v) v := by
  obtain ⟨k, hk⟩ := OrderedMap.mem_values.1 hv
  obtain ⟨a, ha, hkeeps, -, hfound⟩ := h.sound k v hk
  rw [hrecord a v hfound]
  exact ⟨ha, hkeeps, hfound⟩

omit [DecidableEq K] in
/-- **The records of the values are the kept records of the list.** -/
theorem Collects.values_perm (hnodup : (l.map key).Nodup) :
    ((values m).map record).Perm (l.filter p) := by
  have hkeys : ((values m).map record).map key = m.toList.map Prod.fst := by
    rw [values, List.map_map, List.map_map]
    refine List.map_congr_left fun entry hentry => ?_
    obtain ⟨a, -, -, hkey, hfound⟩ := h.sound entry.1 entry.2 (mem_toList.1 hentry)
    rw [Function.comp_apply, Function.comp_apply, hrecord a _ hfound, hkey]
  have hdistinct : ((values m).map record).Nodup := by
    refine List.Nodup.of_map key ?_
    rw [hkeys]
    exact keys_nodup
  refine (List.perm_ext_iff_of_nodup hdistinct (hnodup.of_map.filter p)).2 fun a => ?_
  rw [List.mem_map, List.mem_filter]
  constructor
  · rintro ⟨v, hv, rfl⟩
    obtain ⟨hmem, hkeeps, -⟩ := h.mem_values hrecord hv
    exact ⟨hmem, hkeeps⟩
  · rintro ⟨hmem, hkeeps⟩
    obtain ⟨v, hfound, hlookup⟩ := h.complete a hmem hkeeps
    exact ⟨v, OrderedMap.mem_values.2 ⟨key a, hlookup⟩, hrecord a v hfound⟩

end Values

end OrderedMap

namespace Counting

variable {α β : Type} [DecidableEq β]

/-- An item of one of the classes is counted once. -/
theorem sum_map_ite (f : β) {classes : List β} (hnodup : classes.Nodup) (hmem : f ∈ classes) :
    (classes.map fun c => if f = c then 1 else 0).sum = 1 := by
  induction classes with
  | nil => cases hmem
  | cons c classes ih =>
    rw [List.nodup_cons] at hnodup
    rw [List.map_cons, List.sum_cons]
    by_cases hc : f = c
    · have hrest : (classes.map fun d => if f = d then 1 else 0) = classes.map fun _ => 0 :=
        List.map_congr_left fun d hd => if_neg fun hfd : f = d => hnodup.1 (hc ▸ hfd ▸ hd)
      rw [if_pos hc, hrest, List.map_const', List.sum_replicate]
      simp
    · rw [if_neg hc, ih hnodup.2 ((List.mem_cons.1 hmem).resolve_left hc)]

/-- **Counting class by class counts every item once.** -/
theorem countP_sum (classOf : α → β) {classes : List β} (hnodup : classes.Nodup) {items : List α}
    (h : ∀ a ∈ items, classOf a ∈ classes) :
    (classes.map fun c => items.countP fun a => classOf a = c).sum = items.length := by
  induction items with
  | nil => simp
  | cons a items ih =>
    have hcons : (fun c => (a :: items).countP fun a => classOf a = c) =
        fun c => (items.countP fun a => classOf a = c) + if classOf a = c then 1 else 0 := by
      funext c
      rw [List.countP_cons]
      simp
    rw [hcons, List.sum_map_add, ih fun b hb => h b (List.mem_cons_of_mem a hb),
      sum_map_ite _ hnodup (h a List.mem_cons_self), List.length_cons]

end Counting
