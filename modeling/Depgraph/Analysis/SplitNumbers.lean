import Depgraph.Analysis.BatchNumbers
import Depgraph.Analysis.Split
import Depgraph.Json.Text
import Mathlib.Data.List.Chain

/-!
# The numbers of a split plan

The numbers that a plan gives to the batches of a stage are those that the ledger asks for.

## Main results

* `planStage_numbered`: the batches of a stage are numbered without a gap.
* `planAnalysisSplit_chunks`: the ledger accepts the rows of a stage together and no part of them.
-/

namespace Analysis

open Fallible OrderedMap SortDedup Json Protocol Store

/-! ### Ownership -/

/-- The granules of a stage own each source once. -/
structure Owned (found : List Granule) : Prop where
  disjoint : (found.flatMap (·.paths)).Nodup
  nonempty : ∀ granule ∈ found, granule.paths ≠ []

theorem Owned.perm {found found' : List Granule} (h : Owned found) (hperm : found.Perm found') :
    Owned found' where
  disjoint := (hperm.flatMap_right _).nodup_iff.1 h.disjoint
  nonempty granule hgranule := h.nonempty granule (hperm.mem_iff.2 hgranule)

/-- The granules of a unit own each of its sources once. -/
theorem owned_granules (unit : AnalysisUnit) (granularity : AnalysisSplitGranularity)
    (context : UnitContext) (hnodup : unit.sourcePaths.Nodup) :
    Owned (granules unit granularity context) := by
  cases granularity with
  | file =>
    refine ⟨?_, fun granule hgranule => ?_⟩
    · rw [granules, List.flatMap_map]
      simpa using hnodup
    · obtain ⟨path, -, rfl⟩ := List.mem_map.1 hgranule
      exact List.cons_ne_nil _ _
  | package =>
    have hgroup {root : String} {paths : List String} (hmem : (root, paths) ∈
        (groupBy (fun path => some (packageRootOf path)) unit.sourcePaths).toList) :
        paths = unit.sourcePaths.filter (fun path => some (packageRootOf path) = some root) ∧
          paths ≠ [] := by
      rw [mem_toList, getElem?_groupBy, inhabitedList_eq_some] at hmem
      obtain ⟨hpaths, hne⟩ := hmem
      change paths = _ at hpaths
      exact ⟨hpaths, hpaths ▸ hne⟩
    refine ⟨?_, fun granule hgranule => ?_⟩
    · rw [granules, List.flatMap_map, List.nodup_flatMap]
      constructor
      · rintro ⟨root, paths⟩ hmem
        rw [(hgroup hmem).1]
        exact hnodup.filter _
      · refine (List.pairwise_map.1 keys_nodup).imp_of_mem ?_
        rintro ⟨root, paths⟩ ⟨root', paths'⟩ hmem hmem' hne path hpath hpath'
        rw [(hgroup hmem).1, List.mem_filter, decide_eq_true_eq] at hpath
        rw [(hgroup hmem').1, List.mem_filter, decide_eq_true_eq] at hpath'
        exact hne (Option.some.inj (hpath.2.symm.trans hpath'.2))
    · obtain ⟨group, hmem, rfl⟩ := List.mem_map.1 hgranule
      exact (hgroup hmem).2

/-! ### Batches -/

/-- The batches divide the granules of a stage, in their order. -/
structure Divides (found : List Granule) (batches : List Batch) : Prop where
  all : batches.flatMap (·.granules) = found
  nonempty : batches ≠ []
  filled : batches.length = 1 ∨ ∀ batch ∈ batches, batch.granules ≠ []

/-- What the packing loop keeps. -/
structure Packed (done : List Granule) (packing : Packing) : Prop where
  all : packing.batches.flatMap (·.granules) ++ packing.current = done
  filled : ∀ batch ∈ packing.batches, batch.granules ≠ []
  started : done ≠ [] → packing.current ≠ []

theorem Packed.add {done : List Granule} {packing : Packing} (h : Packed done packing)
    (byteBudget : Bool) (budget : AnalysisSplitBudget) (granule : Granule) :
    Packed (done ++ [granule]) (packing.add byteBudget budget granule) := by
  unfold Packing.add
  dsimp only
  split_ifs with hclose
  · refine ⟨?_, fun batch hbatch => ?_, fun _ => List.cons_ne_nil _ _⟩
    · rw [← h.all, List.flatMap_append, List.flatMap_singleton]
      rfl
    · obtain hbatch | hbatch := List.mem_append.1 hbatch
      · exact h.filled batch hbatch
      · obtain rfl := List.mem_singleton.1 hbatch
        exact hclose.1
  · refine ⟨?_, h.filled, fun _ => List.append_ne_nil_of_right_ne_nil _ (List.cons_ne_nil _ _)⟩
    rw [← h.all, List.append_assoc]

theorem packed_foldl (byteBudget : Bool) (budget : AnalysisSplitBudget) (found : List Granule) :
    Packed found (found.foldl (Packing.add byteBudget budget) ⟨[], [], 0, 0⟩) := by
  induction found using List.reverseRecOn with
  | nil => exact ⟨rfl, fun batch hbatch => absurd hbatch List.not_mem_nil, fun h => absurd rfl h⟩
  | append_singleton found granule ih =>
    rw [List.foldl_append]
    exact ih.add byteBudget budget granule

/-- The packed batches divide the granules. -/
theorem divides_packed (byteBudget : Bool) (budget : AnalysisSplitBudget) {found : List Granule}
    (hne : found ≠ []) :
    let packing := found.foldl (Packing.add byteBudget budget) ⟨[], [], 0, 0⟩
    Divides found (if packing.current = [] then packing.batches
      else packing.batches ++ [.fromGranules packing.current]) := by
  intro packing
  have hpacked : Packed found packing := packed_foldl byteBudget budget found
  rw [if_neg (hpacked.started hne)]
  refine ⟨?_, List.append_ne_nil_of_right_ne_nil _ (List.cons_ne_nil _ _), .inr fun batch hbatch => ?_⟩
  · rw [List.flatMap_append, List.flatMap_singleton]
    exact hpacked.all
  · obtain hbatch | hbatch := List.mem_append.1 hbatch
    · exact hpacked.filled batch hbatch
    · obtain rfl := List.mem_singleton.1 hbatch
      exact hpacked.started hne

/-- A partition divides the granules, in some order. -/
theorem divides_partition (unit : AnalysisUnit) (boundary : AnalysisStageBoundary)
    (byteBudget : Bool) (budget : AnalysisSplitBudget) (context : UnitContext) :
    ∃ found, (granules unit boundary.granularity context).Perm found ∧
      Divides found (partition unit boundary byteBudget budget context) := by
  by_cases hwhole :
      ((granules unit boundary.granularity context).isEmpty || !boundary.splittable) = true
  · refine ⟨_, .refl _, ?_⟩
    rw [partition, if_pos hwhole]
    exact ⟨List.append_nil _, List.cons_ne_nil _ _, .inl rfl⟩
  · have hne : granules unit boundary.granularity context ≠ [] := by
      rintro hempty
      simp [hempty] at hwhole
    rw [partition, if_neg hwhole]
    by_cases horder : byteBudget = true ∧ boundary.stage ≠ .syntaxStage
    · have hperm := sortByKey_perm (granuleKey context)
        (granules unit boundary.granularity context)
      simp only [if_pos horder]
      refine ⟨_, hperm.symm, divides_packed byteBudget budget fun hempty => hne ?_⟩
      exact List.perm_nil.1 (hempty ▸ hperm.symm)
    · simp only [if_neg horder]
      exact ⟨_, .refl _, divides_packed byteBudget budget hne⟩

/-! ### Refinements -/

/-- The number of a batch. -/
def Batch.number (batch : Batch) : Nat × Nat := (batch.batchIndex, batch.batchCount)

/-- What the loop over the refinements keeps. -/
structure Refined (initial : Nat) (found : List Granule) (batches : List Batch) : Prop where
  numbers : Numbered initial (batches.map Batch.number)
  divides : Divides found batches

theorem refined_assign {found : List Granule} {batches : List Batch} (h : Divides found batches) :
    Refined batches.length found (assignInitialBatchNumbers batches) := by
  have hgranules : (assignInitialBatchNumbers batches).map (·.granules) =
      batches.map (·.granules) := by
    rw [assignInitialBatchNumbers, List.map_map]
    change batches.zipIdx.map ((·.granules) ∘ Prod.fst) = _
    rw [← List.map_map, List.zipIdx_map_fst]
  have hlength : (assignInitialBatchNumbers batches).length = batches.length := by
    rw [assignInitialBatchNumbers, List.length_map, List.length_zipIdx]
  refine ⟨?_, ?_, ?_, ?_⟩
  · have hnumbers : (assignInitialBatchNumbers batches).map Batch.number =
        initialNumbers batches.length := by
      rw [assignInitialBatchNumbers, List.map_map, initialNumbers, List.range_eq_range',
        ← List.zipIdx_map_snd 0 batches, List.map_map]
      rfl
    rw [hnumbers]
    exact numbered_initial (List.length_pos_of_ne_nil h.nonempty)
  · rw [← h.all, List.flatMap_def, List.flatMap_def, hgranules]
  · intro hempty
    rw [hempty] at hlength
    exact h.nonempty (List.length_eq_zero_iff.1 hlength.symm)
  · refine h.filled.imp (fun hone => hlength.trans hone) fun hfilled batch hbatch => ?_
    have hmem : batch.granules ∈ batches.map (·.granules) :=
      hgranules ▸ List.mem_map_of_mem hbatch
    obtain ⟨other, hother, heq⟩ := List.mem_map.1 hmem
    exact heq ▸ hfilled other hother

/-- A batch of at least two granules is divided into two that are not empty. -/
theorem splitPoint_bounds {found : List Granule} (h : 2 ≤ found.length) :
    0 < splitPoint found ∧ splitPoint found < found.length := by
  unfold splitPoint
  omega

/-- The halves of a batch have the numbers of a split. -/
theorem splitBatch_eq {initial : Nat} {before after : List Batch} {removed : Batch}
    (h : Numbered initial ((before ++ removed :: after).map Batch.number)) :
    splitBatch (before ++ after) removed =
      [⟨removed.granules.take (splitPoint removed.granules), removed.batchIndex,
        (before ++ removed :: after).length + 1⟩,
      ⟨removed.granules.drop (splitPoint removed.granules), (before ++ removed :: after).length,
        (before ++ removed :: after).length + 1⟩] := by
  rw [List.map_append, List.map_cons] at h
  have hindices : ((before ++ after).map (·.batchIndex) ++ [removed.batchIndex]) =
      (before.map Batch.number ++ after.map Batch.number).map Prod.fst ++ [removed.number.1] := by
    rw [← List.map_append, List.map_map]
    rfl
  obtain ⟨next, hnext⟩ : ∃ next,
      ((before ++ after).map (·.batchIndex) ++ [removed.batchIndex]).max? = some next := by
    refine Option.isSome_iff_exists.1 ?_
    rw [List.isSome_max?_iff]
    exact List.append_ne_nil_of_right_ne_nil _ (List.cons_ne_nil _ _)
  have hlength : next + 1 = (before ++ removed :: after).length := by
    have hsize := h.next_index (hindices ▸ hnext)
    simpa using hsize
  have hcount : removed.batchCount ≤ (before ++ removed :: after).length := by
    have hslot := (h.slot removed.number (by simp)).2
    simpa [Batch.number] using hslot
  unfold splitBatch
  dsimp only
  rw [hnext, Option.getD_some, hlength, max_eq_right (by omega)]

/-- **A split keeps the batches a numbered division of the granules.** -/
theorem Refined.split {initial : Nat} {found : List Granule} {before after : List Batch}
    {removed : Batch} (h : Refined initial found (before ++ removed :: after))
    (htwo : 2 ≤ removed.granules.length) :
    Refined initial found (before ++ splitBatch (before ++ after) removed ++ after) := by
  obtain ⟨hpos, hlt⟩ := splitPoint_bounds htwo
  rw [splitBatch_eq h.numbers]
  refine ⟨?_, ?_, ?_, .inr fun batch hbatch => ?_⟩
  · have hnumbers := h.numbers
    rw [List.map_append, List.map_cons] at hnumbers
    have hsplit := hnumbers.split
    simpa [Batch.number] using hsplit
  · rw [← h.divides.all]
    simp only [List.flatMap_append, List.flatMap_cons, List.flatMap_nil, List.append_nil,
      List.append_assoc]
    rw [← List.append_assoc (removed.granules.take _), List.take_append_drop]
  · simp
  · simp only [List.mem_append, List.mem_cons, List.not_mem_nil, or_false] at hbatch
    have hfilled (other : Batch) (hother : other ∈ before ++ after) : other.granules ≠ [] := by
      obtain hone | hall := h.divides.filled
      · rw [List.length_append, List.length_cons] at hone
        rw [List.eq_nil_of_length_eq_zero (l := before) (by omega),
          List.eq_nil_of_length_eq_zero (l := after) (by omega)] at hother
        exact absurd hother List.not_mem_nil
      · refine hall other ?_
        rw [List.mem_append] at hother ⊢
        exact hother.imp_right (List.mem_cons_of_mem _)
    rcases hbatch with (hbatch | rfl | rfl) | hbatch
    · exact hfilled batch (List.mem_append_left _ hbatch)
    · refine List.ne_nil_of_length_pos ?_
      rw [List.length_take]
      omega
    · refine List.ne_nil_of_length_pos ?_
      rw [List.length_drop]
      omega
    · exact hfilled batch (List.mem_append_right _ hbatch)

/-- A refinement keeps the batches a numbered division of the granules, whatever it names. -/
theorem Refined.refine {initial : Nat} {found : List Granule} {state : Refining}
    (h : Refined initial found state.batches) (idOf : Batch → String) (splittable : Bool)
    (entry : AnalysisSplitRefinement × Nat) :
    Refined initial found (state.refine idOf splittable entry).batches := by
  unfold Refining.refine
  cases hposition : state.batches.findIdx? (fun batch => idOf batch = entry.1.executionUnitId) with
  | none => exact h
  | some position =>
    cases splittable with
    | false => exact h
    | true =>
      cases hremoved : state.batches[position]? with
      | none => simpa [hremoved] using h
      | some removed =>
        simp only [Bool.not_true, Bool.false_eq_true, if_false, hremoved]
        split_ifs with hsmall
        · exact h
        · obtain ⟨hlt, rfl⟩ := List.getElem?_eq_some_iff.1 hremoved
          have hbatches : state.batches.take position ++ state.batches[position] ::
              state.batches.drop (position + 1) = state.batches := by
            rw [List.cons_getElem_drop_succ, List.take_append_drop]
          exact Refined.split (hbatches.symm ▸ h) (not_lt.1 hsmall)

theorem Refined.foldl {initial : Nat} {found : List Granule} {state : Refining}
    (h : Refined initial found state.batches) (idOf : Batch → String) (splittable : Bool)
    (entries : List (AnalysisSplitRefinement × Nat)) :
    Refined initial found (entries.foldl (Refining.refine idOf splittable) state).batches := by
  induction entries generalizing state with
  | nil => exact h
  | cons entry entries ih => exact ih (h.refine idOf splittable entry)

/-! ### Identities -/

theorem hexDigit_injective : ∀ m < 16, ∀ n < 16, hexDigit m = hexDigit n → m = n := by decide

theorem hexDigits_injective {b c : UInt8}
    (h : [hexDigit (b.toNat / 16), hexDigit (b.toNat % 16)] =
      [hexDigit (c.toNat / 16), hexDigit (c.toNat % 16)]) : b = c := by
  have hb : b.toNat < 256 := b.toNat_lt
  have hc : c.toNat < 256 := c.toNat_lt
  rw [List.cons.injEq, List.cons.injEq] at h
  have hhigh := hexDigit_injective _ (by omega) _ (by omega) h.1
  have hlow := hexDigit_injective _ (by omega) _ (by omega) h.2.1
  exact UInt8.toNat_inj.1 (by omega)

/-- A digest is determined by its hexadecimal text. -/
theorem toHex_injective : Function.Injective Digest.toHex := by
  have key (l l' : List UInt8) (h : l.flatMap (fun b =>
      [hexDigit (b.toNat / 16), hexDigit (b.toNat % 16)]) = l'.flatMap (fun b =>
        [hexDigit (b.toNat / 16), hexDigit (b.toNat % 16)])) : l = l' := by
    induction l generalizing l' with
    | nil =>
      cases l' with
      | nil => rfl
      | cons c l' => simp at h
    | cons b l ih =>
      cases l' with
      | nil => simp at h
      | cons c l' =>
        rw [List.flatMap_cons, List.flatMap_cons] at h
        obtain ⟨hhead, htail⟩ := List.append_inj h rfl
        rw [hexDigits_injective hhead, ih l' htail]
  intro d d' h
  have hbytes := key d.bytes d'.bytes (String.ofList_injective h)
  cases d
  cases d'
  cases hbytes
  rfl

theorem utf8_injective : Function.Injective utf8 := by
  intro s t h
  refine String.toByteArray_inj.1 ?_
  exact ByteArray.ext (Array.toList_inj.1 h)

/-- Two values with one identity have one canonical form, unless their texts collide. -/
theorem canonicalValue_eq_of_stableId {S : StableIds} {idNamespace : String} {v w : Value}
    (hcollision : S.sha256 (utf8 (canonicalJson S.floatText v)) =
      S.sha256 (utf8 (canonicalJson S.floatText w)) →
        utf8 (canonicalJson S.floatText v) = utf8 (canonicalJson S.floatText w))
    (h : S.stableIdFromValue idNamespace v = S.stableIdFromValue idNamespace w) :
    canonicalValue v = canonicalValue w := by
  unfold StableIds.stableIdFromValue at h
  have hhex := String.append_right_inj _ |>.1 h
  exact text_injective S.floatText (String.ofList_injective (utf8_injective (hcollision (toHex_injective hhex))))

theorem canonicalItems_strings (values : List String) :
    canonicalItems (values.map .string) = values.map .string := by
  induction values with
  | nil => rfl
  | cons value values ih => simp [canonicalItems, canonicalValue, ih]

/-- Execution units with one identity own the same paths. -/
theorem ownedPaths_eq_of_input {a b : AnalysisExecutionUnit}
    (h : canonicalValue a.input = canonicalValue b.input) : a.ownedPaths = b.ownedPaths := by
  unfold AnalysisExecutionUnit.input executionUnitInput at h
  rw [canonicalValue, canonicalValue, Value.object.injEq] at h
  have hmem : ("ownership", canonicalValue (jsonStrings a.ownedPaths)) ∈
      canonicalMembers [("contract_version", .string "depgraph-analysis-split-plan-v1"),
        ("unit_id", .string b.unitId), ("stage", .string b.stage.asStr),
        ("ownership", jsonStrings b.ownedPaths), ("loader_kind", .string b.loaderKind.asStr),
        ("loader_paths", jsonStrings b.loaderPaths),
        ("reference_depth", .string b.referenceDepth.asStr)] := by
    refine (mem_sortByKey Prod.fst).1 (h ▸ (mem_sortByKey Prod.fst).2 ?_)
    simp [canonicalMembers]
  have harray : canonicalValue (jsonStrings a.ownedPaths) =
      canonicalValue (jsonStrings b.ownedPaths) := by
    simpa [canonicalMembers] using hmem
  simp only [jsonStrings, canonicalValue, canonicalItems_strings, Value.array.injEq] at harray
  exact List.map_injective_iff.2 (fun x y heq => Value.string.inj heq) harray

/-- No two execution units are confused by the hash. -/
def Collisionless (S : StableIds) (units : List AnalysisExecutionUnit) : Prop :=
  ∀ a ∈ units, ∀ b ∈ units, S.sha256 (utf8 (canonicalJson S.floatText a.input)) =
    S.sha256 (utf8 (canonicalJson S.floatText b.input)) →
      utf8 (canonicalJson S.floatText a.input) = utf8 (canonicalJson S.floatText b.input)

/-- The batches of a stage own different paths. -/
theorem Divides.ownedPaths_ne {found : List Granule} {batches : List Batch}
    (h : Divides found batches) (howned : Owned found) :
    batches.Pairwise fun a b => ownedPaths a.granules ≠ ownedPaths b.granules := by
  obtain hone | hfilled := h.filled
  · obtain ⟨batch, rfl⟩ := List.length_eq_one_iff.1 hone
    exact List.pairwise_singleton _ _
  · have hdisjoint := howned.disjoint
    rw [← h.all, List.flatMap_assoc, List.nodup_flatMap] at hdisjoint
    refine hdisjoint.2.imp_of_mem fun {a b} ha _ hab heq => ?_
    obtain ⟨granule, hgranule⟩ := List.exists_mem_of_ne_nil _ (hfilled a ha)
    have hfound : granule ∈ found := by
      rw [← h.all]
      exact List.mem_flatMap.2 ⟨a, ha, hgranule⟩
    obtain ⟨path, hpath⟩ := List.exists_mem_of_ne_nil _ (howned.nonempty granule hfound)
    have hmem : path ∈ a.granules.flatMap (·.paths) :=
      List.mem_flatMap.2 ⟨granule, hgranule, hpath⟩
    refine hab hmem ?_
    rw [← mem_sortByKey id, ← ownedPaths, ← heq, ownedPaths, mem_sortByKey]
    exact hmem

/-! ### A stage -/

/-- The execution units of a stage: numbered without a gap, and each with an identity of its own. -/
structure StageNumbered (S : StableIds) (units : List AnalysisExecutionUnit) : Prop where
  numbers : ∃ initial, Numbered initial (units.map fun unit => (unit.batchIndex, unit.batchCount))
  ids : Collisionless S units → (units.map (·.id)).Nodup
  named : ∀ unit ∈ units, unit.id ≠ ""

/-- **The batches of a stage are numbered without a gap**, whatever the refinements name. -/
theorem planStage_numbered (S : StableIds) (boundary : AnalysisAdapterBoundary)
    (input : AnalysisSplitInput) (declared : AnalysisStageBoundary) (unit : AnalysisUnit)
    (context : UnitContext) (group : Option ContextGroup) (hnodup : unit.sourcePaths.Nodup) :
    StageNumbered S (planStage S boundary input declared unit context group).executionUnits := by
  unfold planStage
  dsimp only
  generalize (promoteWholeContext S unit boundary declared input context group).1.getD declared =
    stageBoundary
  obtain ⟨found, hperm, hdivides⟩ :=
    divides_partition unit stageBoundary boundary.loaderScope input.budget context
  have howned := (owned_granules unit stageBoundary.granularity context hnodup).perm hperm
  have hrefined : Refined _ found (applyRefinements S unit stageBoundary input context group
      (assignInitialBatchNumbers (partition unit stageBoundary boundary.loaderScope input.budget
        context))).batches :=
    Refined.foldl (refined_assign hdivides) _ _ _
  generalize (applyRefinements S unit stageBoundary input context group _).batches = batches
    at hrefined ⊢
  generalize (partition unit stageBoundary boundary.loaderScope input.budget context).length =
    initial at hrefined
  refine ⟨⟨initial, ?_⟩, fun hcollisions => ?_, fun executionUnit hunit => ?_⟩
  · rw [List.map_map]
    exact hrefined.numbers
  · rw [List.map_map]
    refine List.pairwise_map.2 ((hrefined.divides.ownedPaths_ne howned).imp_of_mem ?_)
    intro a b ha hb hne heq
    refine hne ?_
    have hinput := canonicalValue_eq_of_stableId
      (hcollisions _ (List.mem_map_of_mem ha) _ (List.mem_map_of_mem hb)) heq
    exact ownedPaths_eq_of_input hinput
  · obtain ⟨batch, -, rfl⟩ := List.mem_map.1 hunit
    exact fun hempty => by simp [buildExecutionUnit, StableIds.stableIdFromValue] at hempty

/-! ### The plan -/

/-- The units of the one part of a list that has a key. -/
theorem filter_flatMap_key {T U K : Type} [DecidableEq K] {parts : List T} {units : T → List U}
    {keyOf : U → K} {key : T → K} (hnodup : (parts.map key).Nodup)
    (hkey : ∀ part ∈ parts, ∀ unit ∈ units part, keyOf unit = key part) (k : K) :
    (parts.flatMap units).filter (fun unit => keyOf unit = k) = [] ∨
      ∃ part ∈ parts, (parts.flatMap units).filter (fun unit => keyOf unit = k) = units part := by
  induction parts with
  | nil => exact .inl rfl
  | cons part parts ih =>
    rw [List.map_cons, List.nodup_cons] at hnodup
    have hrest := ih hnodup.2 fun other hother => hkey other (List.mem_cons_of_mem _ hother)
    have hfirst := hkey part List.mem_cons_self
    rw [List.flatMap_cons, List.filter_append]
    by_cases hk : key part = k
    · refine .inr ⟨part, List.mem_cons_self, ?_⟩
      have hnone : (parts.flatMap units).filter (fun unit => keyOf unit = k) = [] := by
        refine List.filter_eq_nil_iff.2 fun unit hunit => ?_
        obtain ⟨other, hother, hunit⟩ := List.mem_flatMap.1 hunit
        rw [decide_eq_true_eq, hkey other (List.mem_cons_of_mem _ hother) unit hunit, ← hk]
        exact fun heq => hnodup.1 (heq ▸ List.mem_map_of_mem hother)
      rw [hnone, List.append_nil]
      exact List.filter_eq_self.2 fun unit hunit => decide_eq_true ((hfirst unit hunit).trans hk)
    · have hnone : (units part).filter (fun unit => keyOf unit = k) = [] := by
        refine List.filter_eq_nil_iff.2 fun unit hunit => ?_
        rw [decide_eq_true_eq, hfirst unit hunit]
        exact hk
      rw [hnone, List.nil_append]
      refine hrest.imp_right ?_
      rintro ⟨other, hother, heq⟩
      exact ⟨other, List.mem_cons_of_mem _ hother, heq⟩

/-- The loop over the boundaries validates each of them. -/
theorem validate_of_seeBoundary {boundaries : List AnalysisAdapterBoundary}
    {seen seen' : List AnalysisAdapter} (h : boundaries.foldlM seeBoundary seen = .ok seen')
    {boundary : AnalysisAdapterBoundary} (hmem : boundary ∈ boundaries) :
    boundary.validate = .ok () := by
  induction boundaries generalizing seen with
  | nil => cases hmem
  | cons first boundaries ih =>
    rw [List.foldlM_cons] at h
    obtain ⟨next, hfirst, hrest⟩ := bind_eq_ok.1 h
    obtain rfl | hmem := List.mem_cons.1 hmem
    · unfold seeBoundary at hfirst
      simp only [bind_eq_ok, check_eq_ok] at hfirst
      obtain ⟨u, hvalidate, -⟩ := hfirst
      exact hvalidate
    · exact ih hrest hmem

/-- The stages of a valid boundary are in their order. -/
theorem stages_ordered {boundary : AnalysisAdapterBoundary} (h : boundary.validate = .ok ()) :
    boundary.stages.Pairwise fun left right => left.stage ≠ right.stage := by
  unfold AnalysisAdapterBoundary.validate at h
  simp only [bind_eq_ok, check_eq_ok, exists_const] at h
  obtain ⟨-, -, -, hchain, -⟩ := h
  have htrans : (boundary.stages.map fun stage => stage.stage.rank).IsChain (· < ·) :=
    (List.isChain_map _).2 hchain
  have hpairwise := List.pairwise_map.1 (List.isChain_iff_pairwise.1 htrans)
  exact hpairwise.imp fun hlt heq => absurd (heq ▸ hlt) (lt_irrefl _)

/-- The unit and the stage of a turn. -/
def StageTask.key (task : StageTask) : String × AnalysisStage :=
  (task.unit.id, task.declared.stage)

theorem mem_stageTasks {input : AnalysisSplitInput} {units : List AnalysisUnit}
    {adapter : AnalysisAdapter} {task : StageTask} (h : task ∈ stageTasks input units adapter) :
    task.unit ∈ units ∧ task.unit.adapter = adapter := by
  unfold stageTasks at h
  split at h
  · cases h
  · obtain ⟨declared, -, hunit⟩ := List.mem_flatMap.1 h
    obtain ⟨unit, hmem, rfl⟩ := List.mem_map.1 hunit
    rw [List.mem_filter, Bool.and_eq_true, decide_eq_true_eq] at hmem
    exact ⟨hmem.1, hmem.2.2⟩

/-- No stage of a unit is planned twice. -/
theorem stageTasks_nodup {input : AnalysisSplitInput} {units : List AnalysisUnit}
    (hids : (units.map (·.id)).Nodup)
    (hvalid : ∀ boundary ∈ input.boundaries, boundary.validate = .ok ()) :
    (([.rust, .go, .web].flatMap (stageTasks input units)).map StageTask.key).Nodup := by
  rw [List.map_flatMap, List.nodup_flatMap]
  constructor
  · intro adapter _
    unfold stageTasks
    split
    · exact List.nodup_nil
    · rename_i boundary hfound
      have hordered := stages_ordered (hvalid boundary (List.mem_of_find?_eq_some hfound))
      rw [List.map_flatMap, List.nodup_flatMap]
      constructor
      · intro declared _
        rw [List.map_map]
        have hsome : (units.filter fun unit =>
            unit.executable && decide (unit.adapter = adapter)).Pairwise fun a b => a.id ≠ b.id :=
          (List.pairwise_map.1 hids).sublist List.filter_sublist
        refine List.pairwise_map.2 (hsome.imp fun hne heq => hne ?_)
        exact congrArg Prod.fst heq
      · refine hordered.imp fun {left right} hne => ?_
        intro key hleft hright
        simp only [List.map_map] at hleft hright
        obtain ⟨unit, -, rfl⟩ := List.mem_map.1 hleft
        obtain ⟨unit', -, heq⟩ := List.mem_map.1 hright
        exact hne (congrArg Prod.snd heq).symm
  · have hadapters : [AnalysisAdapter.rust, .go, .web].Nodup := by decide
    refine hadapters.imp fun {adapter adapter'} hne => ?_
    intro key hkey hkey'
    obtain ⟨task, htask, rfl⟩ := List.mem_map.1 hkey
    obtain ⟨task', htask', heq⟩ := List.mem_map.1 hkey'
    obtain ⟨hmem, hadapter⟩ := mem_stageTasks htask
    obtain ⟨hmem', hadapter'⟩ := mem_stageTasks htask'
    have hunit := List.inj_on_of_nodup_map hids hmem' hmem (congrArg Prod.fst heq)
    exact hne (hadapter.symm.trans ((congrArg _ hunit).symm.trans hadapter'))

/-- The ledger rows of a stage of a unit: one for each execution unit, with its identity and its
number, and a context. -/
structure LedgerRows (units : List AnalysisExecutionUnit)
    (rows : List AnalysisUnitLedgerRecord) : Prop where
  carries : rows.map (fun row => (row.chunkId, row.chunkIndex, row.chunkCount)) =
    units.map fun unit => (unit.id, some unit.batchIndex, some unit.batchCount)
  context : ∀ row ∈ rows, row.contextPaths ≠ []

/-- The rows of a numbered stage carry all its numbers. -/
theorem StageNumbered.carriesAll {S : StableIds} {units : List AnalysisExecutionUnit}
    (h : StageNumbered S units) (hcollisions : Collisionless S units)
    {rows : List AnalysisUnitLedgerRecord} (hrows : LedgerRows units rows) :
    CarriesAll rows (units.map fun unit => (unit.batchIndex, unit.batchCount)) := by
  have hids : rows.map (·.chunkId) = units.map (·.id) := by
    have hfst := congrArg (List.map Prod.fst) hrows.carries
    rw [List.map_map, List.map_map] at hfst
    exact hfst
  refine
    { numbers := ?_
      ids := hids ▸ h.ids hcollisions
      named := fun row hrow => ?_
      context := hrows.context }
  · have hsnd := congrArg (List.map Prod.snd) hrows.carries
    rw [List.map_map, List.map_map] at hsnd
    rw [List.map_map]
    exact hsnd
  · have hmem : row.chunkId ∈ units.map (·.id) := hids ▸ List.mem_map_of_mem hrow
    obtain ⟨unit, hunit, heq⟩ := List.mem_map.1 hmem
    exact heq ▸ h.named unit hunit

/-- A promoted stage is the same stage. -/
theorem stage_promoted (S : StableIds) (unit : AnalysisUnit) (boundary : AnalysisAdapterBoundary)
    (declared : AnalysisStageBoundary) (input : AnalysisSplitInput) (context : UnitContext)
    (group : Option ContextGroup) :
    ((promoteWholeContext S unit boundary declared input context group).1.getD declared).stage =
      declared.stage := by
  unfold promoteWholeContext
  dsimp only
  split_ifs <;> rfl

/-- **Every stage of every unit of a plan is numbered.** -/
theorem planAnalysisSplit_numbered {S : StableIds} {units : List AnalysisUnit}
    {input : AnalysisSplitInput} {contextOf : AnalysisUnit → UnitContext}
    {groupOf : AnalysisUnit → Option ContextGroup} {plan : AnalysisSplitPlan}
    (h : planAnalysisSplit S units input contextOf groupOf = .ok plan) (unitId : String)
    (stage : AnalysisStage) : plan.executionUnitsFor unitId stage = [] ∨
      StageNumbered S (plan.executionUnitsFor unitId stage) := by
  unfold planAnalysisSplit at h
  simp only [bind_eq_ok, check_eq_ok, exists_const] at h
  obtain ⟨canonical, hcanonical, u, -, -, seen, hseen, -, -, hplan⟩ := h
  obtain rfl := Except.ok.inj hplan
  unfold canonicalUnits at hcanonical
  simp only [bind_eq_ok, check_eq_ok, exists_const] at hcanonical
  obtain ⟨hnodup, hcanonical⟩ := hcanonical
  have hcanonical := (Except.ok.inj hcanonical).symm
  have hids : (canonical.map (·.id)).Nodup := by
    rw [hcanonical, List.map_map]
    exact hnodup
  have hsources : ∀ unit ∈ canonical, unit.sourcePaths.Nodup := by
    intro unit hunit
    rw [hcanonical] at hunit
    obtain ⟨original, -, rfl⟩ := List.mem_map.1 hunit
    exact nodup_btreeSet
  have htasks := stageTasks_nodup hids fun boundary hboundary => validate_of_seeBoundary hseen
    hboundary
  -- The execution units of a turn name its unit and its stage.
  have hkey : ∀ task ∈ [AnalysisAdapter.rust, .go, .web].flatMap (stageTasks input canonical),
      ∀ unit ∈ (planStage S task.boundary input task.declared task.unit (contextOf task.unit)
        (groupOf task.unit)).executionUnits, (unit.unitId, unit.stage) = task.key := by
    intro task _ unit hunit
    obtain ⟨batch, -, rfl⟩ := List.mem_map.1 hunit
    exact Prod.ext rfl (stage_promoted _ _ _ _ _ _ _)
  have hfilter := filter_flatMap_key htasks hkey (unitId, stage)
  have hunits (planned : List AnalysisExecutionUnit) :
      AnalysisSplitPlan.executionUnitsFor ⟨planned, []⟩ unitId stage =
        planned.filter fun unit => (unit.unitId, unit.stage) = (unitId, stage) :=
    List.filter_congr fun unit _ => by simp [Prod.ext_iff]
  change AnalysisSplitPlan.executionUnitsFor ⟨_, []⟩ unitId stage = [] ∨
    StageNumbered S (AnalysisSplitPlan.executionUnitsFor ⟨_, []⟩ unitId stage)
  rw [List.flatMap_map, hunits]
  refine hfilter.imp_right ?_
  rintro ⟨task, htask, heq⟩
  rw [heq]
  refine planStage_numbered S _ _ _ _ _ _ (hsources task.unit ?_)
  obtain ⟨adapter, -, hmem⟩ := List.mem_flatMap.1 htask
  exact (mem_stageTasks hmem).1

/-- **The ledger accepts the rows of a stage together, in any order, and no proper part of them.** -/
theorem planAnalysisSplit_chunks {S : StableIds} {units : List AnalysisUnit}
    {input : AnalysisSplitInput} {contextOf : AnalysisUnit → UnitContext}
    {groupOf : AnalysisUnit → Option ContextGroup} {plan : AnalysisSplitPlan}
    (h : planAnalysisSplit S units input contextOf groupOf = .ok plan)
    (hcollisions : Collisionless S plan.executionUnits) (unitId : String) (stage : AnalysisStage)
    {rows : List AnalysisUnitLedgerRecord} (hne : rows ≠ [])
    (hrows : LedgerRows (plan.executionUnitsFor unitId stage) rows) :
    (∀ rows', rows.Perm rows' → validChunks rows' = .ok ()) ∧
      ∀ part, part.Subperm rows → part.length < rows.length → validChunks part ≠ .ok () := by
  obtain hnone | hnumbered := planAnalysisSplit_numbered h unitId stage
  · have hcarries := hrows.carries
    rw [hnone, List.map_nil, List.map_eq_nil_iff] at hcarries
    exact absurd hcarries hne
  · have hsome : Collisionless S (plan.executionUnitsFor unitId stage) := by
      intro a ha b hb
      exact hcollisions a (List.mem_of_mem_filter ha) b (List.mem_of_mem_filter hb)
    have hcarries := hnumbered.carriesAll hsome hrows
    obtain ⟨initial, hnumbers⟩ := hnumbered.numbers
    constructor
    · intro rows' hperm
      exact validChunks_iff.2 ((hcarries.completeChunks hnumbers).perm hperm)
    · intro part hpart hproper hvalid
      exact hcarries.not_completeChunks hnumbers hpart hproper (validChunks_iff.1 hvalid)

namespace SplitSample

/-- A hash that tells the texts of the sample apart, which differ in their lengths. -/
def stableIds : StableIds :=
  ⟨.plain, fun bytes => ⟨List.replicate 31 0 ++ [UInt8.ofNat bytes.length], by
    rw [List.length_append, List.length_replicate, List.length_singleton]⟩⟩

def unit : AnalysisUnit where
  id := "unit"
  adapter := .web
  executable := true
  unitRoot := "."
  sourcePaths := ["ccc.ts", "bb.ts", "a.ts"]

/-- A stage that parses its own files. -/
def stage : AnalysisStageBoundary where
  stage := .syntaxStage
  loaderKind := .files
  referenceDepth := .pathsOnly
  granularity := .file
  outputSplittable := true
  inputSplittable := true
  stagedBodies := false

/-- The execution unit of the first two files. -/
def firstId : String :=
  "analysis-execution-unit:sha256:00000000000000000000000000000000000000000000000000000000000000ca"

/-- Two files for a batch, a refinement of the first batch, and one of an execution unit that is not
there. -/
def input : AnalysisSplitInput where
  budget := ⟨2, 2, 100, 1000, 60, 1024⟩
  boundaries := [⟨"web", .web, false, [stage]⟩]
  refinements := [⟨firstId, "worker_timeout"⟩, ⟨"analysis-execution-unit:stale", "worker_timeout"⟩]

def context : UnitContext where
  contextPaths := ["a.ts", "bb.ts", "ccc.ts"]
  cyclePaths := []
  size := fun _ => 10
  packageRank := fun _ => none

def plan : AnalysisSplitPlan :=
  (planAnalysisSplit stableIds [unit] input (fun _ => context) fun _ => none).toOption.getD
    ⟨[], []⟩

def row (unit : AnalysisExecutionUnit) : AnalysisUnitLedgerRecord where
  contractVersion := "depgraph-analysis-unit-v2"
  unitId := unit.unitId
  adapter := "web"
  unitRoot := "."
  stage := unit.stage.asStr
  chunkId := unit.id
  chunkIndex := some unit.batchIndex
  chunkCount := some unit.batchCount
  status := "completed"
  sourcePaths := unit.ownedPaths
  contextPaths := ["a.ts", "bb.ts", "ccc.ts"]
  contextFingerprint := some "context"
  unknownDependencies := false

end SplitSample

/-- A stage of three files in two batches, the first of which has been split: the rows of its halves
count three batches, and the other row two. -/
theorem planAnalysisSplit_chunks_sample :
    (SplitSample.plan.executionUnitsFor "unit" .syntaxStage).map (·.batchCount) = [3, 3, 2] ∧
    validChunks ((SplitSample.plan.executionUnitsFor "unit" .syntaxStage).map SplitSample.row) =
        .ok () ∧
      validChunks (((SplitSample.plan.executionUnitsFor "unit" .syntaxStage).map
        SplitSample.row).take 2) ≠ .ok () := by
  have hcounts : (SplitSample.plan.executionUnitsFor "unit" .syntaxStage).map (·.batchCount) =
      [3, 3, 2] := by
    decide +kernel
  have hlength : (SplitSample.plan.executionUnitsFor "unit" .syntaxStage).length = 3 := by
    rw [← List.length_map (·.batchCount), hcounts]
    rfl
  have hplan : planAnalysisSplit SplitSample.stableIds [SplitSample.unit] SplitSample.input
      (fun _ => SplitSample.context) (fun _ => none) = .ok SplitSample.plan := by
    have hok : (planAnalysisSplit SplitSample.stableIds [SplitSample.unit] SplitSample.input
        (fun _ => SplitSample.context) (fun _ => none)).isOk = true := by
      decide +kernel
    unfold SplitSample.plan
    revert hok
    cases planAnalysisSplit SplitSample.stableIds [SplitSample.unit] SplitSample.input
        (fun _ => SplitSample.context) (fun _ => none) with
    | ok plan => exact fun _ => rfl
    | error error => exact fun hok => absurd hok Bool.false_ne_true
  have hcollisions : Collisionless SplitSample.stableIds SplitSample.plan.executionUnits := by
    unfold Collisionless
    decide +kernel
  have hrows : LedgerRows (SplitSample.plan.executionUnitsFor "unit" .syntaxStage)
      ((SplitSample.plan.executionUnitsFor "unit" .syntaxStage).map SplitSample.row) := by
    refine ⟨by rw [List.map_map]; rfl, fun row hrow => ?_⟩
    obtain ⟨unit, -, rfl⟩ := List.mem_map.1 hrow
    exact List.cons_ne_nil _ _
  have hne : (SplitSample.plan.executionUnitsFor "unit" .syntaxStage).map SplitSample.row ≠ [] := by
    rw [← List.length_pos_iff_ne_nil, List.length_map, hlength]
    decide
  obtain ⟨hall, hpart⟩ :=
    planAnalysisSplit_chunks hplan hcollisions "unit" .syntaxStage hne hrows
  refine ⟨hcounts, hall _ (.refl _), hpart _ (List.take_sublist _ _).subperm ?_⟩
  rw [List.length_take, List.length_map, hlength]
  decide

end Analysis
