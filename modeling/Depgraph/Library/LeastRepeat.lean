import Depgraph.Library.SortDedup

/-!
# Keeping the least of the repeats

Sorting by a key and dropping what is the same as the element kept before it leaves repeats where
another element is sorted between two of them. `least` drops all repeats but the one with the least
key, wherever they stand.

* `least_congr`, `Represents.least_eq`: the result depends only on which elements there are, and
  elements may be dropped beforehand for lesser ones;
* `sortDedup_eq_least`: the two agree on lists in which nothing is sorted between two repeats
  (`Contiguous`);
* `exists_same_of_not_contiguous`: on other lists repeats stay.
-/

namespace SortDedup

variable {α β : Type*}

/-- Sameness of some elements. -/
structure SameOn (same : α → α → Bool) (l : List α) : Prop where
  refl : ∀ a ∈ l, same a a = true
  symm : ∀ a ∈ l, ∀ b ∈ l, same a b = true → same b a = true
  trans : ∀ a ∈ l, ∀ b ∈ l, ∀ c ∈ l, same a b = true → same b c = true → same a c = true

theorem SameOn.subset {same : α → α → Bool} {l l' : List α} (h : SameOn same l) (hsub : l' ⊆ l) :
    SameOn same l' where
  refl a ha := h.refl a (hsub ha)
  symm a ha b hb := h.symm a (hsub ha) b (hsub hb)
  trans a ha b hb c hc := h.trans a (hsub ha) b (hsub hb) c (hsub hc)

variable [LinearOrder β] (key : α → β) (same : α → α → Bool)

/-- The elements to which no lesser one is the same, sorted by their keys. -/
def least (l : List α) : List α :=
  (exact key l).filter fun a => l.all fun b => !same b a || decide (key a ≤ key b)

/-- Nothing else is sorted between two elements that are the same. -/
def Contiguous (l : List α) : Prop :=
  ∀ a ∈ l, ∀ b ∈ l, ∀ c ∈ l, same a b = true → key a < key c → key c < key b → same c a = true

/-- Elements that stand for others: for each of these there is a lesser one that is the same. -/
structure Represents (l' l : List α) : Prop where
  subset : l' ⊆ l
  covers : ∀ a ∈ l, ∃ b ∈ l', same a b = true ∧ key b ≤ key a

variable {key same}

theorem Represents.refl {l : List α} (h : ∀ a ∈ l, same a a = true) : Represents key same l l :=
  ⟨List.Subset.refl l, fun a ha => ⟨a, ha, h a ha, le_refl _⟩⟩

theorem Represents.flatMap {γ : Type*} {cs : List γ} {f g : γ → List α}
    (h : ∀ c ∈ cs, Represents key same (f c) (g c)) :
    Represents key same (cs.flatMap f) (cs.flatMap g) where
  subset a ha := by
    obtain ⟨c, hc, hac⟩ := List.mem_flatMap.1 ha
    exact List.mem_flatMap.2 ⟨c, hc, (h c hc).subset hac⟩
  covers a ha := by
    obtain ⟨c, hc, hac⟩ := List.mem_flatMap.1 ha
    obtain ⟨b, hb, hab⟩ := (h c hc).covers a hac
    exact ⟨b, List.mem_flatMap.2 ⟨c, hc, hb⟩, hab⟩

theorem Contiguous.subset {l l' : List α} (h : Contiguous key same l) (hsub : l' ⊆ l) :
    Contiguous key same l' :=
  fun a ha b hb c hc => h a (hsub ha) b (hsub hb) c (hsub hc)

theorem Contiguous.congr {l l' : List α} (h : ∀ a, a ∈ l ↔ a ∈ l') :
    Contiguous key same l ↔ Contiguous key same l' :=
  ⟨fun hl => hl.subset fun a ha => (h a).2 ha, fun hl => hl.subset fun a ha => (h a).1 ha⟩

theorem eq_of_strict {l l' : List α} (hl : l.Pairwise fun a b => key a < key b)
    (hl' : l'.Pairwise fun a b => key a < key b) (h : ∀ a, a ∈ l ↔ a ∈ l') : l = l' := by
  have : Std.Irrefl fun a b : α => key a < key b := ⟨fun a => lt_irrefl (key a)⟩
  have : Std.Antisymm fun a b : α => key a < key b := ⟨fun a b hab hba => absurd hab hba.not_gt⟩
  exact hl.eq_of_mem_iff hl' h

theorem least_strict (l : List α) : (least key same l).Pairwise fun a b => key a < key b :=
  (exact_strict l).sublist List.filter_sublist

variable (hkey : Function.Injective key)

include hkey

theorem mem_least {l : List α} {a : α} :
    a ∈ least key same l ↔ a ∈ l ∧ ∀ b ∈ l, same b a = true → key a ≤ key b := by
  rw [least, List.mem_filter, mem_exact hkey, List.all_eq_true]
  simp only [Bool.or_eq_true, Bool.not_eq_true', decide_eq_true_eq, ← Bool.not_eq_true,
    ← imp_iff_not_or]

theorem least_subset (l : List α) : least key same l ⊆ l := fun _ ha => ((mem_least hkey).1 ha).1

/-- Every element is the same as a least one. -/
theorem least_covers {l : List α} (hl : SameOn same l) {a : α} (ha : a ∈ l) :
    ∃ b ∈ least key same l, same a b = true ∧ key b ≤ key a := by
  have hmem (b : α) : b ∈ (exact key l).filter (same a) ↔ b ∈ l ∧ same a b = true := by
    rw [List.mem_filter, mem_exact hkey]
  have hsorted : ((exact key l).filter (same a)).Pairwise fun a b => key a < key b :=
    (exact_strict l).sublist List.filter_sublist
  cases hfilter : (exact key l).filter (same a) with
  | nil =>
    have hself := (hmem a).2 ⟨ha, hl.refl a ha⟩
    rw [hfilter] at hself
    cases hself
  | cons b rest =>
    rw [hfilter] at hsorted hmem
    -- the first one that is the same is the least one
    have hmin {c : α} (hc : c ∈ l) (hac : same a c = true) : key b ≤ key c := by
      rcases List.mem_cons.1 ((hmem c).2 ⟨hc, hac⟩) with rfl | hrest
      · exact le_refl _
      · exact ((List.pairwise_cons.1 hsorted).1 c hrest).le
    obtain ⟨hb, hab⟩ := (hmem b).1 List.mem_cons_self
    refine ⟨b, (mem_least hkey).2 ⟨hb, fun c hc hcb => hmin hc ?_⟩, hab, hmin ha (hl.refl a ha)⟩
    exact hl.trans a ha b hb c hc hab (hl.symm c hc b hb hcb)

/-- **Elements may be dropped beforehand for lesser ones that are the same.** -/
theorem Represents.least_eq {l l' : List α} (h : Represents key same l' l) (hl : SameOn same l) :
    least key same l' = least key same l := by
  refine eq_of_strict (least_strict l') (least_strict l) fun a => ?_
  rw [mem_least hkey, mem_least hkey]
  constructor
  · rintro ⟨ha, hmin⟩
    refine ⟨h.subset ha, fun b hb hba => ?_⟩
    obtain ⟨c, hc, hbc, hle⟩ := h.covers b hb
    have hcb := hl.symm b hb c (h.subset hc) hbc
    exact (hmin c hc (hl.trans c (h.subset hc) b hb a (h.subset ha) hcb hba)).trans hle
  · rintro ⟨ha, hmin⟩
    obtain ⟨b, hb, hab, hle⟩ := h.covers a ha
    have hba := hl.symm a ha b (h.subset hb) hab
    obtain rfl : a = b := hkey (le_antisymm (hmin b (h.subset hb) hba) hle)
    exact ⟨hb, fun c hc => hmin c (h.subset hc)⟩

theorem Represents.least {l l' : List α} (h : Represents key same l' l) (hl : SameOn same l) :
    Represents key same (least key same l') l where
  subset a ha := h.subset (least_subset hkey l' ha)
  covers a ha := by
    obtain ⟨b, hb, hab, hle⟩ := h.covers a ha
    obtain ⟨c, hc, hbc, hle'⟩ := least_covers hkey (hl.subset h.subset) hb
    have hmem := h.subset (least_subset hkey l' hc)
    exact ⟨c, hc, hl.trans a ha b (h.subset hb) c hmem hab hbc, hle'.trans hle⟩

theorem least_congr {l l' : List α} (h : ∀ a, a ∈ l ↔ a ∈ l') :
    least key same l = least key same l' := by
  refine eq_of_strict (least_strict l) (least_strict l') fun a => ?_
  simp only [mem_least hkey, h]

/-! ### Repeats that stand together -/

/-- Every element is dropped for one that all elements sorted between them are the same as. -/
theorem dedupFrom_run {last : α} {l : List α} (hrefl : ∀ a ∈ last :: l, same a a = true)
    (hsorted : (last :: l).Pairwise fun a b => key a ≤ key b) {a : α} (ha : a ∈ last :: l) :
    ∃ b ∈ last :: dedupFrom same last l, key b ≤ key a ∧
      ∀ c ∈ last :: l, key b ≤ key c → key c ≤ key a → same c b = true := by
  induction l generalizing last a with
  | nil =>
    obtain rfl := List.mem_singleton.1 ha
    refine ⟨a, List.mem_cons_self, le_refl _, fun c hc _ _ => ?_⟩
    rw [List.mem_singleton.1 hc]
    exact hrefl a List.mem_cons_self
  | cons x l ih =>
    obtain ⟨hlast, hrest⟩ := List.pairwise_cons.1 hsorted
    obtain ⟨hx, htail⟩ := List.pairwise_cons.1 hrest
    obtain ⟨hrefl_last, hrefl_rest⟩ := List.forall_mem_cons.1 hrefl
    obtain ⟨hrefl_x, hrefl_l⟩ := List.forall_mem_cons.1 hrefl_rest
    unfold dedupFrom
    split_ifs with hsame
    · have hshort : (last :: l).Pairwise fun a b => key a ≤ key b :=
        List.pairwise_cons.2 ⟨fun b hb => hlast b (List.mem_cons_of_mem _ hb), htail⟩
      have hrefl' : ∀ a ∈ last :: l, same a a = true :=
        List.forall_mem_cons.2 ⟨hrefl_last, hrefl_l⟩
      by_cases hax : a = x
      · subst hax
        refine ⟨last, List.mem_cons_self, hlast a List.mem_cons_self, fun c hc _ hca => ?_⟩
        rcases List.mem_cons.1 hc with rfl | hc
        · exact hrefl_last
        · rcases List.mem_cons.1 hc with rfl | hc
          · exact hsame
          · rwa [hkey (le_antisymm hca (hx c hc))]
      · have ha' : a ∈ last :: l := by
          rcases List.mem_cons.1 ha with rfl | ha
          · exact List.mem_cons_self
          · exact List.mem_cons_of_mem _ ((List.mem_cons.1 ha).resolve_left hax)
        obtain ⟨b, hb, hba, hbetween⟩ := ih hrefl' hshort ha'
        refine ⟨b, hb, hba, fun c hc hbc hca => ?_⟩
        rcases List.mem_cons.1 hc with rfl | hc
        · exact hbetween c List.mem_cons_self hbc hca
        rcases List.mem_cons.1 hc with rfl | hc
        · rcases List.mem_cons.1 hb with rfl | hb
          · exact hsame
          · have hle := hx b ((dedupFrom_sublist last l).subset hb)
            rw [hkey (le_antisymm hle hbc)]
            exact hrefl_l b ((dedupFrom_sublist last l).subset hb)
        · exact hbetween c (List.mem_cons_of_mem _ hc) hbc hca
    · rcases List.mem_cons.1 ha with rfl | ha
      · refine ⟨a, List.mem_cons_self, le_refl _, fun c hc hac hca => ?_⟩
        rw [hkey (le_antisymm hca hac)]
        exact hrefl_last
      · obtain ⟨b, hb, hba, hbetween⟩ := ih hrefl_rest hrest ha
        refine ⟨b, List.mem_cons_of_mem _ hb, hba, fun c hc hbc hca => ?_⟩
        rcases List.mem_cons.1 hc with rfl | hc
        · have hmem : b ∈ x :: l := by
            rcases List.mem_cons.1 hb with rfl | hb
            · exact List.mem_cons_self
            · exact List.mem_cons_of_mem _ ((dedupFrom_sublist x l).subset hb)
          rw [hkey (le_antisymm (hlast b hmem) hbc)]
          exact hrefl_rest b hmem
        · exact hbetween c hc hbc hca

theorem sortDedup_run {l : List α} (hrefl : ∀ a ∈ l, same a a = true) {a : α} (ha : a ∈ l) :
    ∃ b ∈ sortDedup key same l, key b ≤ key a ∧
      ∀ c ∈ l, key b ≤ key c → key c ≤ key a → same c b = true := by
  have hmem (x : α) : x ∈ sortByKey key l ↔ x ∈ l := mem_sortByKey key
  have hsorted := sortByKey_sorted key l
  unfold sortDedup
  cases hcons : sortByKey key l with
  | nil => exact absurd ((hmem a).2 ha) (by rw [hcons]; exact List.not_mem_nil)
  | cons x rest =>
    simp only [hcons] at hmem hsorted
    obtain ⟨b, hb, hle, hbetween⟩ :=
      dedupFrom_run hkey (fun a ha => hrefl a ((hmem a).1 ha)) hsorted ((hmem a).2 ha)
    exact ⟨b, hb, hle, fun c hc => hbetween c ((hmem c).2 hc)⟩

theorem sortDedup_strict {l : List α} (hrefl : ∀ a ∈ l, same a a = true) :
    (sortDedup key same l).Pairwise fun a b => key a < key b := by
  rw [← sortDedup_exact hkey hrefl, sortDedup,
    sortByKey_eq_self key ((exact_strict l).imp fun h => h.le)]
  exact (exact_strict l).sublist (dedup_sublist _)

omit hkey in
/-- What stays is not the same as what stays before it. -/
theorem Distinct.exists_before {l : List α} (hd : Distinct same l)
    (hsorted : l.Pairwise fun a b => key a < key b) {a b : α} (ha : a ∈ l) (hb : b ∈ l)
    (hlt : key b < key a) : ∃ c ∈ l, key b ≤ key c ∧ key c < key a ∧ same a c = false := by
  induction l generalizing b with
  | nil => cases ha
  | cons x l ih =>
    obtain ⟨hx, hl⟩ := List.pairwise_cons.1 hsorted
    have hal : a ∈ l := by
      rcases List.mem_cons.1 ha with rfl | ha
      · rcases List.mem_cons.1 hb with rfl | hb
        · exact absurd hlt (lt_irrefl _)
        · exact absurd (hx b hb) hlt.not_gt
      · exact ha
    cases l with
    | nil => cases hal
    | cons y l =>
      obtain ⟨hxy, htail⟩ := List.isChain_cons_cons.1 hd
      rcases List.mem_cons.1 hb with rfl | hb
      · rcases List.mem_cons.1 hal with rfl | hrest
        · exact ⟨b, List.mem_cons_self, le_refl _, hlt, hxy⟩
        · obtain ⟨c, hc, hyc, h⟩ :=
            ih htail hl hal List.mem_cons_self ((List.pairwise_cons.1 hl).1 a hrest)
          exact ⟨c, List.mem_cons_of_mem _ hc, (hx y List.mem_cons_self).le.trans hyc, h⟩
      · obtain ⟨c, hc, h⟩ := ih htail hl hal hb hlt
        exact ⟨c, List.mem_cons_of_mem _ hc, h⟩

/-- **Where repeats stand together, the sort brings the least of them to the front.** -/
theorem sortDedup_eq_least {l : List α} (hl : SameOn same l) (h : Contiguous key same l) :
    sortDedup key same l = least key same l := by
  refine eq_of_strict (sortDedup_strict hkey hl.refl) (least_strict l) fun a => ?_
  rw [mem_least hkey]
  constructor
  · intro ha
    have hmem := mem_of_mem_sortDedup ha
    refine ⟨hmem, fun b hb hba => not_lt.1 fun hlt => ?_⟩
    obtain ⟨first, hfirst, hle, hrun⟩ := sortDedup_run hkey hl.refl hb
    obtain ⟨c, hc, hfc, hca, hne⟩ := (sortDedup_distinct l).exists_before
      (sortDedup_strict hkey hl.refl) ha hfirst (hle.trans_lt hlt)
    have hf := mem_of_mem_sortDedup hfirst
    have hc := mem_of_mem_sortDedup hc
    have hbf := hrun b hb hle (le_refl _)
    have hfa := hl.trans first hf b hb a hmem (hl.symm b hb first hf hbf) hba
    -- what stays before the element is the same as it
    have hcf : same c first = true := by
      rcases hfc.lt_or_eq with hlt | heq
      · exact h first hf a hmem c hc hfa hlt hca
      · rw [hkey heq]
        exact hl.refl c hc
    have hac := hl.symm c hc a hmem (hl.trans c hc first hf a hmem hcf hfa)
    rw [hac] at hne
    cases hne
  · rintro ⟨ha, hmin⟩
    obtain ⟨b, hb, hle, hrun⟩ := sortDedup_run hkey hl.refl ha
    have hmem := mem_of_mem_sortDedup hb
    have hab := hrun a ha hle (le_refl _)
    rw [hkey (le_antisymm (hmin b hmem (hl.symm a ha b hmem hab)) hle)]
    exact hb

/-- **Where something else is sorted between repeats, repeats stay.** -/
theorem exists_same_of_not_contiguous {l : List α} (hl : SameOn same l)
    (h : ¬ Contiguous key same l) : ∃ a ∈ sortDedup key same l, ∃ b ∈ sortDedup key same l,
      key a < key b ∧ same a b = true := by
  simp only [Contiguous, not_forall] at h
  obtain ⟨a, ha, b, hb, c, hc, hab, hac, hcb, hne⟩ := h
  obtain ⟨first, hfirst, hfa, hrun⟩ := sortDedup_run hkey hl.refl ha
  obtain ⟨second, hsecond, hsb, hrun'⟩ := sortDedup_run hkey hl.refl hb
  have hf := mem_of_mem_sortDedup hfirst
  have hs := mem_of_mem_sortDedup hsecond
  have hbs := hrun' b hb hsb (le_refl _)
  have has := hl.trans a ha b hb second hs hab hbs
  have hcs : key c < key second := by
    by_contra hle
    have hcsame := hrun' c hc (not_lt.1 hle) hcb.le
    exact hne (hl.trans c hc second hs a ha hcsame (hl.symm a ha second hs has))
  refine ⟨first, hfirst, second, hsecond, (hfa.trans_lt hac).trans hcs, ?_⟩
  have haf := hrun a ha hfa (le_refl _)
  exact hl.trans first hf a ha second hs (hl.symm a ha first hf haf) has

/-- **Then taking all repeats of one of them apart changes the result.** Of these an element may be
left in their place. -/
theorem exists_regrouped {l : List α} (hl : SameOn same l) (h : ¬ Contiguous key same l) :
    ∃ a ∈ l, (∀ b, sortDedup key same l ≠ [b]) ∧ ∀ group : List α, (∀ b ∈ group, ∀ c ∈ group, b = c) →
      sortDedup key same (group ++ l.filter fun b => !same b a) ≠ sortDedup key same l := by
  obtain ⟨a, ha, b, hb, hlt, hab⟩ := exists_same_of_not_contiguous hkey hl h
  have hal := mem_of_mem_sortDedup ha
  have hbl := mem_of_mem_sortDedup hb
  refine ⟨a, hal, fun c hc => ?_, fun group hgroup heq => ?_⟩
  · rw [hc, List.mem_singleton] at ha hb
    rw [ha, hb] at hlt
    exact lt_irrefl _ hlt
  · -- the two repeats can only come from the group, of which they would be one element
    have hfrom {c : α} (hc : c ∈ sortDedup key same l) (hca : same c a = true) : c ∈ group := by
      rw [← heq] at hc
      refine (List.mem_append.1 (mem_of_mem_sortDedup hc)).resolve_right fun hrest => ?_
      have hnot := (List.mem_filter.1 hrest).2
      rw [hca] at hnot
      cases hnot
    have hba := hl.symm a hal b hbl hab
    rw [hgroup a (hfrom ha (hl.refl a hal)) b (hfrom hb hba)] at hlt
    exact lt_irrefl _ hlt

end SortDedup
