import Depgraph.Store.Rename

/-!
# The pairs of a rename

* `renameSignals_lookup`: a pair has the signals of the calls that go through it.
* `renameSignals_swap`: the other direction gives the same pairs the same signals.
* `kind_eq`: the nodes of a pair are of one kind.
-/

namespace Store

open Json Protocol Fallible SortDedup OrderedMap Std

variable {F : FloatText} {sides : RenameSides}

/-- The sides of the other direction. -/
def RenameSides.swap (sides : RenameSides) : RenameSides := ⟨sides.added, sides.removed⟩

/-- The pair in the other direction. -/
def swapPair (pair : IndexPair sides) : IndexPair sides.swap :=
  toLex ((ofLex pair).2, (ofLex pair).1)

theorem swapPair_injective : Function.Injective (@swapPair sides) := by
  intro p q h
  have h := congrArg ofLex h
  exact Prod.ext (Prod.mk.inj h).2 (Prod.mk.inj h).1

/-! ### Pairs -/

/-- The indices of the nodes with a key. -/
def RenameSide.indices (side : RenameSide)
    (key : NodeRecord → NodeRenameEvidence → Option String) (k : String) :
    List (Fin side.length) :=
  (List.finRange side.length).filter fun i => side.keyAt key i = some k

theorem RenameSide.byKey_lookup (side : RenameSide)
    (key : NodeRecord → NodeRenameEvidence → Option String) (k : String) :
    (side.byKey key)[k]? = inhabitedList (side.indices key k) :=
  getElem?_groupBy (side.keyAt key) _ k

theorem RenameSide.mem_indices {side : RenameSide}
    {key : NodeRecord → NodeRenameEvidence → Option String} {k : String} {i : Fin side.length} :
    i ∈ side.indices key k ↔ side.keyAt key i = some k := by
  rw [indices, List.mem_filter, decide_eq_true_eq, and_iff_right (List.mem_finRange i)]

/-- The pairs of a key are not too many. -/
def FewPairs (sides : RenameSides) (m : Matcher) (k : String) : Prop :=
  (sides.removed.indices m.key k).length * (sides.added.indices m.key k).length ≤
    maxRenameCandidatePairsPerKey

/-- **A call goes through the pairs of nodes with one key.** -/
theorem mem_matchedPairs {m : Matcher} {pair : IndexPair sides} :
    pair ∈ matchedPairs sides m ↔ ∃ k, sides.removed.keyAt m.key (ofLex pair).1 = some k ∧
      sides.added.keyAt m.key (ofLex pair).2 = some k ∧ FewPairs sides m k := by
  rw [matchedPairs, List.mem_flatMap]
  constructor
  · rintro ⟨⟨k, removedIndices⟩, hmem, hpair⟩
    rw [mem_toList, RenameSide.byKey_lookup] at hmem
    obtain ⟨hindices, -⟩ := inhabitedList_eq_some.1 hmem
    dsimp only at hindices hpair
    subst hindices
    rw [RenameSide.byKey_lookup] at hpair
    split at hpair
    · cases hpair
    · next addedIndices hadded =>
      obtain ⟨rfl, -⟩ := inhabitedList_eq_some.1 hadded
      split_ifs at hpair with hmany
      · cases hpair
      · obtain ⟨i, hi, hpair⟩ := List.mem_flatMap.1 hpair
        obtain ⟨j, hj, rfl⟩ := List.mem_map.1 hpair
        exact ⟨k, RenameSide.mem_indices.1 hi, RenameSide.mem_indices.1 hj, Nat.not_lt.1 hmany⟩
  · rintro ⟨k, hremoved, hadded, hfew⟩
    have hremoved := RenameSide.mem_indices.2 hremoved
    have hadded := RenameSide.mem_indices.2 hadded
    refine ⟨(k, sides.removed.indices m.key k), ?_, ?_⟩
    · rw [mem_toList, RenameSide.byKey_lookup, inhabitedList_eq_some]
      exact ⟨rfl, List.ne_nil_of_mem hremoved⟩
    · have hlookup : (sides.added.byKey m.key)[k]? = some (sides.added.indices m.key k) := by
        rw [RenameSide.byKey_lookup, inhabitedList_eq_some]
        exact ⟨rfl, List.ne_nil_of_mem hadded⟩
      simp only [hlookup]
      rw [if_neg (Nat.not_lt.2 hfew), List.mem_flatMap]
      exact ⟨_, hremoved, List.mem_map.2 ⟨_, hadded, rfl⟩⟩

theorem mem_matchedPairs_swap {m : Matcher} {pair : IndexPair sides} :
    swapPair pair ∈ matchedPairs sides.swap m ↔ pair ∈ matchedPairs sides m := by
  rw [mem_matchedPairs, mem_matchedPairs]
  refine exists_congr fun k => ?_
  rw [and_left_comm]
  refine and_congr_right fun _ => and_congr_right fun _ => ?_
  rw [FewPairs, FewPairs, Nat.mul_comm]
  rfl

/-! ### Signals -/

theorem MatchSignals.add_add (signals : MatchSignals) (strength : MatchStrength)
    (reason : String) :
    (signals.add strength reason).add strength reason = signals.add strength reason := by
  have hstrength : ∀ current : Option MatchStrength,
      (current.elim strength fun current => current.max strength).max strength =
        current.elim strength fun current => current.max strength := by
    rintro (_ | _ | _ | _) <;> cases strength <;> rfl
  have hreasons : (signals.reasons.insert reason).insert reason = signals.reasons.insert reason := by
    refine ExtTreeSet.ext_mem fun other => ?_
    rw [mem_insert, or_iff_right_of_imp]
    rintro rfl
    exact mem_insert.2 (Or.inl rfl)
  rw [add, add, hreasons]
  exact congrArg (MatchSignals.mk · _) (congrArg some (hstrength _))

/-- What a call makes of the signals of a pair that it goes through. -/
def Matcher.signal (m : Matcher) (entry : Option MatchSignals) : Option MatchSignals :=
  some ((entry.getD .default).add m.strength m.reason)

theorem Matcher.signal_signal (m : Matcher) (entry : Option MatchSignals) :
    m.signal (m.signal entry) = m.signal entry :=
  congrArg some (MatchSignals.add_add _ _ _)

theorem addSignals_lookup (m : Matcher) (pairs : List (IndexPair sides))
    (signals : ExtTreeMap (IndexPair sides) MatchSignals) (pair : IndexPair sides) :
    (pairs.foldl (addSignal m) signals)[pair]? =
      if pair ∈ pairs then m.signal signals[pair]? else signals[pair]? := by
  induction pairs generalizing signals with
  | nil => rfl
  | cons p pairs ih =>
    have hhead : (addSignal m signals p)[pair]? =
        if pair = p then m.signal signals[p]? else signals[pair]? := getElem?_alter
    rw [List.foldl_cons, ih, hhead]
    by_cases hp : pair = p
    · subst hp
      rw [if_pos rfl, if_pos List.mem_cons_self, m.signal_signal, ite_self]
    · rw [if_neg hp]
      simp only [List.mem_cons, hp, false_or]

/-- The signals of a pair after calls some of which go through it. -/
def signalsOf (through : Matcher → Prop) [DecidablePred through] (calls : List Matcher)
    (entry : Option MatchSignals) : Option MatchSignals :=
  calls.foldl (fun entry m => if through m then m.signal entry else entry) entry

/-- **A pair has the signals of the calls that go through it.** -/
theorem addMatchSignals_lookup (calls : List Matcher)
    (signals : ExtTreeMap (IndexPair sides) MatchSignals) (pair : IndexPair sides) :
    (calls.foldl (addMatchSignal sides) signals)[pair]? =
      signalsOf (fun m => pair ∈ matchedPairs sides m) calls signals[pair]? := by
  induction calls generalizing signals with
  | nil => rfl
  | cons m calls ih =>
    rw [List.foldl_cons, ih, addMatchSignal, addSignals_lookup]
    rfl

theorem renameSignals_lookup (pair : IndexPair sides) :
    (renameSignals F sides)[pair]? =
      signalsOf (fun m => pair ∈ matchedPairs sides m) (matchers F) none := by
  rw [renameSignals, addMatchSignals_lookup, ExtTreeMap.getElem?_empty]

theorem signalsOf_congr {through through' : Matcher → Prop} [DecidablePred through]
    [DecidablePred through'] (h : ∀ m, through m ↔ through' m) (calls : List Matcher)
    (entry : Option MatchSignals) : signalsOf through calls entry = signalsOf through' calls entry := by
  simp only [signalsOf, h]

/-- **A pair has the same signals in the other direction.** -/
theorem renameSignals_swap (pair : IndexPair sides) :
    (renameSignals F sides.swap)[swapPair pair]? = (renameSignals F sides)[pair]? := by
  rw [renameSignals_lookup, renameSignals_lookup]
  exact signalsOf_congr (fun _ => mem_matchedPairs_swap) _ _

/-- What the signals of a pair are made of. -/
structure Supported (through : Matcher → Prop) (calls : List Matcher) (signals : MatchSignals) :
    Prop where
  strength : signals.strength.isSome = true
  reasons : ∀ reason ∈ signals.reasons, ∃ m ∈ calls, m.reason = reason
  through : ∃ m ∈ calls, through m

theorem signalsOf_supported {through : Matcher → Prop} [DecidablePred through]
    {calls done : List Matcher} (hcalls : calls ⊆ done) {entry : Option MatchSignals}
    (hentry : ∀ signals ∈ entry, Supported through done signals) :
    ∀ signals ∈ signalsOf through calls entry, Supported through done signals := by
  induction calls generalizing entry with
  | nil => exact hentry
  | cons m calls ih =>
    obtain ⟨hm, hcalls⟩ := List.cons_subset.1 hcalls
    refine ih hcalls ?_
    show ∀ signals ∈ if through m then m.signal entry else entry, Supported through done signals
    split_ifs with hthrough
    · rintro signals hsignals
      obtain rfl := Option.some.inj hsignals
      refine ⟨rfl, fun reason hreason => ?_, m, hm, hthrough⟩
      rcases mem_insert.1 hreason with rfl | hreason
      · exact ⟨m, hm, rfl⟩
      · cases entry with
        | none => exact absurd hreason ExtTreeSet.not_mem_empty
        | some signals => exact (hentry signals rfl).reasons reason hreason
    · exact hentry

theorem renameSignals_supported {pair : IndexPair sides} {signals : MatchSignals}
    (h : (renameSignals F sides)[pair]? = some signals) :
    Supported (fun m => pair ∈ matchedPairs sides m) (matchers F) signals := by
  rw [renameSignals_lookup] at h
  exact signalsOf_supported (List.Subset.refl _) (by simp) signals h

/-! ### Kinds -/

theorem mem_canonicalMembers {members : List (String × Value)} {member : String × Value}
    (h : member ∈ canonicalMembers members) : ∃ m ∈ members, m.1 = member.1 := by
  induction members with
  | nil => cases h
  | cons m members ih =>
    rcases List.mem_cons.1 h with rfl | h
    · exact ⟨m, List.mem_cons_self, rfl⟩
    · obtain ⟨other, hother, hkey⟩ := ih h
      exact ⟨other, List.mem_cons_of_mem _ hother, hkey⟩

/-- A text that is the text of a node, with members of other names than the kind's. -/
def KeyOf (F : FloatText) (node : NodeRecord) (k : String) : Prop :=
  ∃ members, (∀ m ∈ members, m.1 ≠ "kind") ∧ keyText F node members = k

/-- The text of a key determines the kind. -/
theorem KeyOf.kind_eq {node node' : NodeRecord} {k : String} (h : KeyOf F node k)
    (h' : KeyOf F node' k) : node.kind = node'.kind := by
  obtain ⟨members, hmembers, rfl⟩ := h
  obtain ⟨members', -, htext⟩ := h'
  have hvalue := text_injective F (String.ofList_injective htext)
  rw [canonicalValue, canonicalValue] at hvalue
  have hmem : ("kind", Value.string node'.kind) ∈
      sortByKey Prod.fst (canonicalMembers (("kind", .string node'.kind) :: members')) :=
    (mem_sortByKey _).2 List.mem_cons_self
  rw [Value.object.inj hvalue, mem_sortByKey] at hmem
  rcases List.mem_cons.1 hmem with hkind | hmem
  · exact (Value.string.inj (Prod.mk.inj hkind).2).symm
  · obtain ⟨m, hm, hkey⟩ := mem_canonicalMembers hmem
    exact absurd hkey (hmembers m hm)

/-- Every key is the text of an object with the kind of the node. -/
theorem matchers_keyOf {m : Matcher} (hm : m ∈ matchers F) {node : NodeRecord}
    {evidence : NodeRenameEvidence} {k : String} (h : m.key node evidence = some k) :
    KeyOf F node k := by
  simp only [matchers, List.mem_cons, List.not_mem_nil, or_false] at hm
  rcases hm with rfl | rfl | rfl | rfl | rfl
  · simp only [fileContentKey, Option.bind_eq_bind, Option.bind_eq_some_iff, Option.pure_def,
      Option.some.injEq] at h
    obtain ⟨-, -, owner, -, hash, -, htext⟩ := h
    exact ⟨_, by simp, htext⟩
  · simp only [semanticFingerprintKey, Option.bind_eq_bind, Option.bind_eq_some_iff,
      Option.pure_def, Option.some.injEq] at h
    obtain ⟨-, -, owner, -, fingerprint, -, shape, -, htext⟩ := h
    exact ⟨_, by simp, htext⟩
  · simp only [semanticSourceContentKey, Option.bind_eq_bind, Option.bind_eq_some_iff,
      Option.pure_def, Option.some.injEq] at h
    obtain ⟨-, -, owner, -, hash, -, shape, -, htext⟩ := h
    exact ⟨_, by simp, htext⟩
  · simp only [semanticSourceAnchorKey, Option.bind_eq_bind, Option.bind_eq_some_iff,
      Option.pure_def, Option.some.injEq] at h
    obtain ⟨-, -, span, -, owner, -, shape, -, path, -, line, -, column, -, htext⟩ := h
    exact ⟨_, by simp, htext⟩
  · simp only [localOrAnonymousSpanKey, Option.bind_eq_bind, Option.bind_eq_some_iff,
      Option.pure_def, Option.some.injEq] at h
    obtain ⟨-, -, owner, -, shape, -, path, -, htext⟩ := h
    exact ⟨_, by simp, htext⟩

/-- **The nodes of a pair are of one kind.** -/
theorem kind_eq {pair : IndexPair sides} {signals : MatchSignals}
    (h : (renameSignals F sides)[pair]? = some signals) :
    (sides.removed.get (ofLex pair).1).1.kind = (sides.added.get (ofLex pair).2).1.kind := by
  obtain ⟨m, hm, hpair⟩ := (renameSignals_supported h).through
  obtain ⟨k, hremoved, hadded, -⟩ := mem_matchedPairs.1 hpair
  exact (matchers_keyOf hm hremoved).kind_eq (matchers_keyOf hm hadded)

/-! ### Degrees -/

theorem mem_pairsOf {pair : IndexPair sides} :
    pair ∈ pairsOf F sides ↔ ∃ signals, (renameSignals F sides)[pair]? = some signals := by
  rw [pairsOf, ExtTreeMap.mem_keys, mem_iff]

/-- The entries of the other direction. -/
theorem signalEntries_swap :
    (signalEntries F sides.swap).Perm
      ((signalEntries F sides).map fun entry => (swapPair entry.1, entry.2)) := by
  have hinjective : Function.Injective
      fun entry : IndexPair sides × MatchSignals => (swapPair entry.1, entry.2) := by
    intro a b h
    exact Prod.ext (swapPair_injective (Prod.mk.inj h).1) (Prod.mk.inj h).2
  refine (List.perm_ext_iff_of_nodup keys_nodup.of_map
    (keys_nodup.of_map.map hinjective)).2 fun entry => ?_
  rw [mem_toList, List.mem_map]
  constructor
  · intro h
    refine ⟨(swapPair entry.1, entry.2), ?_, rfl⟩
    rw [mem_toList]
    exact (renameSignals_swap (swapPair entry.1)).symm.trans h
  · rintro ⟨entry, h, rfl⟩
    rw [mem_toList] at h
    exact (renameSignals_swap entry.1).trans h

theorem pairsOf_swap : (pairsOf F sides.swap).Perm ((pairsOf F sides).map swapPair) := by
  have h := (@signalEntries_swap F sides).map Prod.fst
  rw [List.map_map] at h
  unfold signalEntries at h
  rw [pairsOf, pairsOf, ← ExtTreeMap.map_fst_toList_eq_keys, ← ExtTreeMap.map_fst_toList_eq_keys,
    List.map_map]
  exact h

theorem removedDegree_swap (pair : IndexPair sides) :
    removedDegree (pairsOf F sides.swap) (ofLex (swapPair pair)).1 =
      addedDegree (pairsOf F sides) (ofLex pair).2 := by
  unfold removedDegree addedDegree
  rw [pairsOf_swap.countP_eq, List.countP_map]
  rfl

theorem addedDegree_swap (pair : IndexPair sides) :
    addedDegree (pairsOf F sides.swap) (ofLex (swapPair pair)).2 =
      removedDegree (pairsOf F sides) (ofLex pair).1 := by
  unfold removedDegree addedDegree
  rw [pairsOf_swap.countP_eq, List.countP_map]
  rfl

theorem isUnique_swap (pair : IndexPair sides) :
    isUnique (pairsOf F sides.swap) (swapPair pair) = isUnique (pairsOf F sides) pair := by
  simp only [isUnique, removedDegree_swap, addedDegree_swap, and_comm]

end Store
