import Depgraph.Store.SnapshotDiff

/-!
# Ambiguous renames

A promoted pair has no other partners among the pairs that `add_match_signal` goes through. A key with
too many pairs is not gone through at all, so the partners that a node has under such a key are
forgotten. `SoleMatch` is what the promotion of a pair depends on, `Unambiguous` what it should depend
on, and the two differ just where a promoted node has an oversized key.
-/

namespace Store

open Json Protocol Fallible SortDedup OrderedMap Std

section

variable {F : FloatText} {sides : RenameSides}

/-- The two nodes have a key of the call in common. -/
def SharesKey (sides : RenameSides) (m : Matcher) (i : Fin sides.removed.length)
    (j : Fin sides.added.length) : Prop :=
  ∃ k, sides.removed.keyAt m.key i = some k ∧ sides.added.keyAt m.key j = some k

/-- The two nodes have a key of the call in common that does not have too many pairs. -/
def SharesSmallKey (sides : RenameSides) (m : Matcher) (i : Fin sides.removed.length)
    (j : Fin sides.added.length) : Prop :=
  ∃ k, sides.removed.keyAt m.key i = some k ∧ sides.added.keyAt m.key j = some k ∧
    FewPairs sides m k

/-- No other removed node shares a key with the added node, no other added node shares one with the
removed node, and the two share a strong one. -/
structure Partners (F : FloatText) (sides : RenameSides)
    (shares : Matcher → Fin sides.removed.length → Fin sides.added.length → Prop)
    (i : Fin sides.removed.length) (j : Fin sides.added.length) : Prop where
  removed : ∀ m ∈ matchers F, ∀ other, shares m other j → other = i
  added : ∀ m ∈ matchers F, ∀ other, shares m i other → other = j
  strong : ∃ m ∈ matchers F, MatchStrength.high.rank ≤ m.strength.rank ∧ shares m i j

/-- The pair is unambiguous under all five keys. -/
def Unambiguous (F : FloatText) (sides : RenameSides) : Fin sides.removed.length →
    Fin sides.added.length → Prop :=
  Partners F sides (SharesKey sides)

/-- The pair is unambiguous under the keys that do not have too many pairs. -/
def SoleMatch (F : FloatText) (sides : RenameSides) : Fin sides.removed.length →
    Fin sides.added.length → Prop :=
  Partners F sides (SharesSmallKey sides)

theorem SharesSmallKey.sharesKey {m : Matcher} {i : Fin sides.removed.length}
    {j : Fin sides.added.length} (h : SharesSmallKey sides m i j) : SharesKey sides m i j := by
  obtain ⟨k, hremoved, hadded, -⟩ := h
  exact ⟨k, hremoved, hadded⟩

/-! ### The strength of a pair -/

/-- An entry whose strength is at least of this rank. -/
def Reaches (rank : Nat) (entry : Option MatchSignals) : Prop :=
  ∃ signals ∈ entry, ∃ strength ∈ signals.strength, rank ≤ strength.rank

theorem MatchStrength.le_rank_max {rank : Nat} {a b : MatchStrength} :
    rank ≤ (a.max b).rank ↔ rank ≤ a.rank ∨ rank ≤ b.rank := by
  unfold MatchStrength.max
  split_ifs <;> omega

theorem Matcher.reaches_signal {m : Matcher} {rank : Nat} {entry : Option MatchSignals} :
    Reaches rank (m.signal entry) ↔ Reaches rank entry ∨ rank ≤ m.strength.rank := by
  have hadded (signals : MatchSignals) : Reaches rank (some (signals.add m.strength m.reason)) ↔
      (∃ strength ∈ signals.strength, rank ≤ strength.rank) ∨ rank ≤ m.strength.rank := by
    cases hstrength : signals.strength with
    | none => simp [Reaches, MatchSignals.add, hstrength]
    | some strength =>
      simp [Reaches, MatchSignals.add, hstrength, MatchStrength.le_rank_max]
  unfold Matcher.signal
  rw [hadded]
  cases entry with
  | none => simp [Reaches, MatchSignals.default]
  | some signals => simp [Reaches]

/-- **A pair is as strong as the strongest call that goes through it.** -/
theorem reaches_signalsOf {through : Matcher → Prop} [DecidablePred through] {rank : Nat}
    {calls : List Matcher} {entry : Option MatchSignals} :
    Reaches rank (signalsOf through calls entry) ↔
      Reaches rank entry ∨ ∃ m ∈ calls, through m ∧ rank ≤ m.strength.rank := by
  induction calls generalizing entry with
  | nil => simp [signalsOf]
  | cons m calls ih =>
    change Reaches rank (signalsOf through calls (if through m then m.signal entry else entry)) ↔ _
    rw [ih]
    by_cases hthrough : through m
    · rw [if_pos hthrough, Matcher.reaches_signal, or_assoc]
      simp [hthrough]
    · rw [if_neg hthrough]
      simp [hthrough]

theorem sharesSmallKey_iff {m : Matcher} {i : Fin sides.removed.length}
    {j : Fin sides.added.length} :
    toLex (i, j) ∈ matchedPairs sides m ↔ SharesSmallKey sides m i j :=
  mem_matchedPairs

theorem reaches_renameSignals {rank : Nat} {i : Fin sides.removed.length}
    {j : Fin sides.added.length} :
    Reaches rank (renameSignals F sides)[toLex (i, j)]? ↔
      ∃ m ∈ matchers F, SharesSmallKey sides m i j ∧ rank ≤ m.strength.rank := by
  rw [renameSignals_lookup, reaches_signalsOf]
  simp only [sharesSmallKey_iff]
  simp [Reaches]

theorem mem_pairsOf_iff {i : Fin sides.removed.length} {j : Fin sides.added.length} :
    toLex (i, j) ∈ pairsOf F sides ↔ ∃ m ∈ matchers F, SharesSmallKey sides m i j := by
  have hreaches := @reaches_renameSignals F sides 0 i j
  simp only [Nat.zero_le, and_true] at hreaches
  rw [mem_pairsOf, ← hreaches]
  constructor
  · rintro ⟨signals, hsignals⟩
    obtain ⟨strength, hstrength⟩ :=
      Option.isSome_iff_exists.1 (renameSignals_supported hsignals).strength
    exact ⟨signals, hsignals, strength, hstrength, Nat.zero_le _⟩
  · rintro ⟨signals, hsignals, -⟩
    exact ⟨signals, hsignals⟩

/-! ### The pairs of a promoted node -/

theorem countP_eq_one_iff {α β : Type} [DecidableEq α] [DecidableEq β] {l : List α} (hl : l.Nodup)
    (f : α → β) {p : α} (hp : p ∈ l) :
    l.countP (fun q => f q = f p) = 1 ↔ ∀ q ∈ l, f q = f p → q = p := by
  constructor
  · intro hone q hq hsame
    rw [List.countP_eq_length_filter, List.length_eq_one_iff] at hone
    obtain ⟨r, hr⟩ := hone
    have hmem {x : α} (hx : x ∈ l) (hfx : f x = f p) : x = r := by
      have : x ∈ l.filter fun q => f q = f p := List.mem_filter.2 ⟨hx, decide_eq_true hfx⟩
      rw [hr] at this
      exact List.mem_singleton.1 this
    rw [hmem hq hsame, hmem hp rfl]
  · intro honly
    rw [← List.count_eq_one_of_mem hl hp, List.count]
    refine List.countP_congr fun q hq => ?_
    rw [decide_eq_true_eq, beq_iff_eq]
    exact ⟨honly q hq, fun hqp => by rw [hqp]⟩

theorem pairsOf_nodup : (pairsOf F sides).Nodup := by
  rw [pairsOf, ← ExtTreeMap.map_fst_toList_eq_keys]
  exact keys_nodup

/-- A pair is unique when its nodes have no other partners under small keys. -/
theorem isUnique_iff {i : Fin sides.removed.length} {j : Fin sides.added.length}
    (hpair : toLex (i, j) ∈ pairsOf F sides) :
    isUnique (pairsOf F sides) (toLex (i, j)) = true ↔
      (∀ m ∈ matchers F, ∀ other, SharesSmallKey sides m other j → other = i) ∧
      ∀ m ∈ matchers F, ∀ other, SharesSmallKey sides m i other → other = j := by
  rw [isUnique, decide_eq_true_eq]
  unfold removedDegree addedDegree
  rw [countP_eq_one_iff pairsOf_nodup (fun pair => (ofLex pair).1) hpair,
    countP_eq_one_iff pairsOf_nodup (fun pair => (ofLex pair).2) hpair]
  constructor
  · rintro ⟨hadded, hremoved⟩
    refine ⟨fun m hm other hother => ?_, fun m hm other hother => ?_⟩
    · exact congrArg (fun pair => (ofLex pair).1)
        (hremoved (toLex (other, j)) (mem_pairsOf_iff.2 ⟨m, hm, hother⟩) rfl)
    · exact congrArg (fun pair => (ofLex pair).2)
        (hadded (toLex (i, other)) (mem_pairsOf_iff.2 ⟨m, hm, hother⟩) rfl)
  · rintro ⟨hremoved, hadded⟩
    refine ⟨fun pair hmem hsame => ?_, fun pair hmem hsame => ?_⟩
    · obtain ⟨m, hm, hshares⟩ := mem_pairsOf_iff.1 (show toLex ((ofLex pair).1, (ofLex pair).2) ∈
        pairsOf F sides from hmem)
      rw [show (ofLex pair).1 = i from hsame] at hshares
      exact congrArg toLex (Prod.ext hsame (hadded m hm _ hshares))
    · obtain ⟨m, hm, hshares⟩ := mem_pairsOf_iff.1 (show toLex ((ofLex pair).1, (ofLex pair).2) ∈
        pairsOf F sides from hmem)
      rw [show (ofLex pair).2 = j from hsame] at hshares
      exact congrArg toLex (Prod.ext (hremoved m hm _ hshares) hsame)

/-! ### Promoted pairs -/

/-- The rename is about the two nodes. -/
structure NodeRename.Of (sides : RenameSides) (rename : NodeRename)
    (i : Fin sides.removed.length) (j : Fin sides.added.length) : Prop where
  before : (rename.before, rename.oldEvidence) = sides.removed.get i
  after : (rename.after, rename.newEvidence) = sides.added.get j

/-- A rename is about a sole match. -/
theorem soleMatch_of_promoted {rename : NodeRename} (h : rename ∈ promoted (records F sides)) :
    ∃ i j, rename.Of sides i j ∧ SoleMatch F sides i j := by
  obtain ⟨record, hrecord, rfl⟩ := List.mem_map.1 h
  obtain ⟨hrecord, hpromoted⟩ := List.mem_filter.1 hrecord
  obtain ⟨entry, hentry, hrecord⟩ := List.mem_filterMap.1 hrecord
  obtain ⟨strength, ambiguous, hstrength, -, rfl⟩ := renameOf_eq_ok.1 (toOption_eq_some.1 hrecord)
  have hlookup := mem_toList.1 hentry
  obtain ⟨hunique, hhigh⟩ := Bool.and_eq_true _ _ ▸ hpromoted
  have hpair : entry.1 ∈ pairsOf F sides := mem_pairsOf.2 ⟨_, hlookup⟩
  obtain ⟨hremoved, hadded⟩ := (isUnique_iff hpair).1 hunique
  have hreaches : Reaches MatchStrength.high.rank (renameSignals F sides)[entry.1]? :=
    ⟨entry.2, hlookup, strength, hstrength, of_decide_eq_true hhigh⟩
  obtain ⟨m, hm, hshares, hrank⟩ := reaches_renameSignals.1 hreaches
  exact ⟨(ofLex entry.1).1, (ofLex entry.1).2, ⟨rfl, rfl⟩, hremoved, hadded, m, hm, hrank, hshares⟩

/-- A sole match is promoted. -/
theorem promoted_of_soleMatch {i : Fin sides.removed.length} {j : Fin sides.added.length}
    (h : SoleMatch F sides i j) : ∃ rename ∈ promoted (records F sides), rename.Of sides i j := by
  obtain ⟨hremoved, hadded, m, hm, hrank, hshares⟩ := h
  obtain ⟨signals, hsignals, strength, hstrength, hhigh⟩ :=
    reaches_renameSignals.2 ⟨m, hm, hshares, hrank⟩
  have hpair := mem_pairsOf.2 ⟨signals, hsignals⟩
  obtain ⟨record, hrecord⟩ := renameOf_ok hsignals
  obtain ⟨strength', ambiguous, hstrength', -, rfl⟩ := renameOf_eq_ok.1 hrecord
  obtain rfl := Option.some.inj (hstrength'.symm.trans hstrength)
  refine ⟨_, List.mem_map.2 ⟨_, List.mem_filter.2 ⟨List.mem_filterMap.2
    ⟨(toLex (i, j), signals), mem_toList.2 hsignals, toOption_eq_some.2 hrecord⟩, ?_⟩, rfl⟩, rfl, rfl⟩
  exact Bool.and_eq_true _ _ ▸ ⟨(isUnique_iff hpair).2 ⟨hremoved, hadded⟩, decide_eq_true hhigh⟩

/-! ### Forgotten partners -/

/-- No node of a sole match has a key with too many pairs. -/
def NoneForgotten (F : FloatText) (sides : RenameSides) : Prop :=
  ∀ i j, SoleMatch F sides i j → ∀ m ∈ matchers F, ∀ k,
    sides.removed.keyAt m.key i = some k ∨ sides.added.keyAt m.key j = some k → FewPairs sides m k

theorem RenameSide.indices_nodup (side : RenameSide)
    (key : NodeRecord → NodeRenameEvidence → Option String) (k : String) :
    (side.indices key k).Nodup :=
  (List.nodup_finRange _).filter _

/-- Two lists without repetitions that pair off two elements at most have few pairs. -/
theorem length_mul_length_le {α β : Type} {as : List α} {bs : List β} (has : as.Nodup)
    (hbs : bs.Nodup) {a : α} {b : β} (h : ∀ x ∈ as, ∀ y ∈ bs, x = a ∧ y = b) :
    as.length * bs.length ≤ 1 := by
  rcases as with _ | ⟨x, _ | ⟨x', as⟩⟩
  · simp
  · rcases bs with _ | ⟨y, _ | ⟨y', bs⟩⟩
    · simp
    · simp
    · have hy := (h x (by simp) y (by simp)).2
      have hy' := (h x (by simp) y' (by simp)).2
      simp [hy, hy'] at hbs
  · rcases bs with _ | ⟨y, bs⟩
    · simp
    · have hx := (h x (by simp) y (by simp)).1
      have hx' := (h x' (by simp) y (by simp)).1
      simp [hx, hx'] at has

/-- The keys of an unambiguous pair have few pairs. -/
theorem Unambiguous.fewPairs {i : Fin sides.removed.length} {j : Fin sides.added.length}
    (h : Unambiguous F sides i j) {m : Matcher} (hm : m ∈ matchers F) {k : String}
    (hkey : sides.removed.keyAt m.key i = some k ∨ sides.added.keyAt m.key j = some k) :
    FewPairs sides m k := by
  have honly : ∀ x ∈ sides.removed.indices m.key k, ∀ y ∈ sides.added.indices m.key k,
      x = i ∧ y = j := by
    intro x hx y hy
    rw [RenameSide.mem_indices] at hx hy
    rcases hkey with hkey | hkey
    · obtain rfl := h.added m hm y ⟨k, hkey, hy⟩
      exact ⟨h.removed m hm x ⟨k, hx, hy⟩, rfl⟩
    · obtain rfl := h.removed m hm x ⟨k, hx, hkey⟩
      exact ⟨rfl, h.added m hm y ⟨k, hx, hy⟩⟩
  have hpairs := length_mul_length_le (sides.removed.indices_nodup m.key k)
    (sides.added.indices_nodup m.key k) honly
  exact hpairs.trans (by decide)

/-- A sole match none of whose keys has too many pairs is unambiguous. -/
theorem SoleMatch.unambiguous {i : Fin sides.removed.length} {j : Fin sides.added.length}
    (h : SoleMatch F sides i j)
    (hfew : ∀ m ∈ matchers F, ∀ k,
      sides.removed.keyAt m.key i = some k ∨ sides.added.keyAt m.key j = some k →
        FewPairs sides m k) : Unambiguous F sides i j := by
  refine ⟨?_, ?_, ?_⟩
  · rintro m hm other ⟨k, hother, hadded⟩
    exact h.removed m hm other ⟨k, hother, hadded, hfew m hm k (Or.inr hadded)⟩
  · rintro m hm other ⟨k, hremoved, hother⟩
    exact h.added m hm other ⟨k, hremoved, hother, hfew m hm k (Or.inl hremoved)⟩
  · obtain ⟨m, hm, hrank, hshares⟩ := h.strong
    exact ⟨m, hm, hrank, hshares.sharesKey⟩

/-- A rename is about one unambiguous pair at most. -/
theorem NodeRename.Of.eq_of_unambiguous {rename : NodeRename} {i i' : Fin sides.removed.length}
    {j j' : Fin sides.added.length} (h : rename.Of sides i j) (h' : rename.Of sides i' j')
    (hunambiguous : Unambiguous F sides i' j') {m : Matcher} (hm : m ∈ matchers F)
    (hshares : SharesKey sides m i j) : i = i' ∧ j = j' := by
  obtain ⟨k, hremoved, hadded⟩ := hshares
  have hremoved' : sides.removed.keyAt m.key i' = some k := by
    rw [← hremoved, RenameSide.keyAt, RenameSide.keyAt, ← h.before, ← h'.before]
  have hadded' : sides.added.keyAt m.key j' = some k := by
    rw [← hadded, RenameSide.keyAt, RenameSide.keyAt, ← h.after, ← h'.after]
  exact ⟨hunambiguous.removed m hm i ⟨k, hremoved, hadded'⟩,
    hunambiguous.added m hm j ⟨k, hremoved', hadded⟩⟩

/-- **All renames are unambiguous just when no promoted node has a key with too many pairs.** -/
theorem detectNodeRenames_unambiguous_iff (F : FloatText) (nodes : RecordDiff NodeRecord)
    (fromRecords toRecords : ExtTreeMap String (List EvidenceRecord))
    (fromHashes toHashes : ExtTreeMap String String) :
    ∃ detected, detectNodeRenames F nodes fromRecords toRecords fromHashes toHashes =
        .ok detected ∧
      ((∀ rename ∈ detected.renames, ∃ i j,
          rename.Of (renameSides nodes fromRecords toRecords fromHashes toHashes) i j ∧
          Unambiguous F (renameSides nodes fromRecords toRecords fromHashes toHashes) i j) ↔
        NoneForgotten F (renameSides nodes fromRecords toRecords fromHashes toHashes)) := by
  refine ⟨_, detectNodeRenames_eq, ?_⟩
  change (∀ rename ∈ promoted (records F _), _) ↔ _
  constructor
  · intro hall i j hsole m hm k hkey
    obtain ⟨rename, hrename, hof⟩ := promoted_of_soleMatch hsole
    obtain ⟨i', j', hof', hunambiguous⟩ := hall rename hrename
    obtain ⟨strong, hstrong, -, hshares⟩ := hsole.strong
    obtain ⟨rfl, rfl⟩ := hof.eq_of_unambiguous hof' hunambiguous hstrong hshares.sharesKey
    exact hunambiguous.fewPairs hm hkey
  · intro hnone rename hrename
    obtain ⟨i, j, hof, hsole⟩ := soleMatch_of_promoted hrename
    exact ⟨i, j, hof, hsole.unambiguous (hnone i j hsole)⟩

/-- A promoted record is a rename that is detected. -/
theorem exists_rename {nodes : RecordDiff NodeRecord}
    {fromRecords toRecords : ExtTreeMap String (List EvidenceRecord)}
    {fromHashes toHashes : ExtTreeMap String String} {P : NodeRename → Prop}
    (h : ∃ rename ∈ promoted (records F (renameSides nodes fromRecords toRecords fromHashes
      toHashes)), P rename) :
    ∃ detected, detectNodeRenames F nodes fromRecords toRecords fromHashes toHashes =
      .ok detected ∧ ∃ rename ∈ detected.renames, P rename :=
  ⟨_, detectNodeRenames_eq, h⟩

end

/-! ### A forgotten group -/

namespace RenameSample

/-- What all symbols of the sample have in common: they stand at one place of one file. -/
def shared : List (String × Value) :=
  [("package", .string "p"),
    ("canonical_identity", .object [("identity_kind", .string "function")]),
    ("source_path", .string "src/lib.rs"),
    ("source_span", .object [("start_line", .number (.int 1)), ("start_column", .number (.int 1))])]

/-- The fingerprint of two of the symbols. -/
def fingerprint : String × Value :=
  ("semantic_hash", .string ("sha256:" ++ String.ofList (List.replicate 64 '0')))

theorem plain_distinct : (Value.object shared).distinctKeys = true := by decide +kernel

theorem marked_distinct : (Value.object (shared ++ [fingerprint])).distinctKeys = true := by
  decide +kernel

/-- A symbol without a fingerprint. -/
def plain (id : String) : NodeRecord := ⟨id, "symbol", "", "f", ⟨.object shared, plain_distinct⟩⟩

/-- A symbol with the fingerprint. -/
def marked (id : String) : NodeRecord :=
  ⟨id, "symbol", "", "f", ⟨.object (shared ++ [fingerprint]), marked_distinct⟩⟩

/-- One symbol is renamed, and 4096 symbols at the same place are removed. -/
def nodes : RecordDiff NodeRecord where
  added := [marked "symbol:new"]
  removed := marked "symbol:old" :: (List.range 4096).map fun n => plain ("symbol:" ++ toString n)
  changed := []

/-- A node with its evidence. -/
def withEvidence (node : NodeRecord) : NodeRecord × NodeRenameEvidence :=
  (node, renameEvidence node none ∅)

/-- The two sides, with the evidence of the nodes. -/
def bothSides : RenameSides where
  removed := nodes.removed.map withEvidence
  added := nodes.added.map withEvidence

theorem renameSides_nodes : renameSides nodes ∅ ∅ ∅ ∅ = bothSides := by
  simp [renameSides, bothSides, withEvidence]

/-- The place of the symbols. -/
def anchor : Option String :=
  semanticSourceAnchorKey .plain (plain "") (withEvidence (plain "")).2

theorem anchor_plain (id : String) :
    semanticSourceAnchorKey .plain (plain id) (withEvidence (plain id)).2 = anchor := by rfl

theorem anchor_marked (id : String) :
    semanticSourceAnchorKey .plain (marked id) (withEvidence (marked id)).2 = anchor := by rfl

theorem anchor_isSome : anchor.isSome = true := by decide +kernel

theorem fingerprint_plain (id : String) :
    semanticFingerprintKey .plain (plain id) (withEvidence (plain id)).2 = none := by rfl

theorem fingerprint_marked (id : String) :
    semanticFingerprintKey .plain (marked id) (withEvidence (marked id)).2 =
      semanticFingerprintKey .plain (marked "") (withEvidence (marked "")).2 := by rfl

theorem fingerprint_isSome :
    (semanticFingerprintKey .plain (marked "") (withEvidence (marked "")).2).isSome = true := by
  decide +kernel

/-- The renamed symbol before the change. -/
def old : Fin bothSides.removed.length := ⟨0, by simp [bothSides, nodes]⟩

/-- Another symbol at its place. -/
def copy : Fin bothSides.removed.length := ⟨1, by simp [bothSides, nodes]⟩

/-- The renamed symbol after the change. -/
def new : Fin bothSides.added.length := ⟨0, by simp [bothSides, nodes]⟩

theorem get_removed (i : Fin bothSides.removed.length) :
    (i = old ∧ bothSides.removed.get i = withEvidence (marked "symbol:old")) ∨
      ∃ id, bothSides.removed.get i = withEvidence (plain id) := by
  rcases i with ⟨_ | n, hn⟩
  · exact Or.inl ⟨rfl, rfl⟩
  · exact Or.inr ⟨"symbol:" ++ toString n, by simp [bothSides, nodes]⟩

theorem eq_new (j : Fin bothSides.added.length) : j = new := by
  have hlength : bothSides.added.length = 1 := rfl
  exact Fin.ext (by have := j.isLt; simp only [new]; omega)

/-- All symbols stand at the same place. -/
theorem anchor_removed (i : Fin bothSides.removed.length) :
    bothSides.removed.keyAt (semanticSourceAnchorKey .plain) i = anchor := by
  unfold RenameSide.keyAt
  rcases get_removed i with ⟨-, hget⟩ | ⟨id, hget⟩
  · rw [hget]
    exact anchor_marked _
  · rw [hget]
    exact anchor_plain _

/-- The symbols at the place of the renamed one are too many. -/
theorem not_fewPairs {m : Matcher} (hm : m.key = semanticSourceAnchorKey .plain) {k : String}
    (hk : anchor = some k) : ¬ FewPairs bothSides m k := by
  have hremoved : (bothSides.removed.indices m.key k).length = 4097 := by
    have hall : bothSides.removed.indices m.key k = List.finRange bothSides.removed.length := by
      refine List.filter_eq_self.2 fun i _ => decide_eq_true ?_
      rw [hm, anchor_removed, hk]
    rw [hall, List.length_finRange]
    simp [bothSides, nodes]
  have hadded : 0 < (bothSides.added.indices m.key k).length := by
    refine List.length_pos_of_mem (RenameSide.mem_indices.2 (?_ : _ = _) : new ∈ _)
    rw [hm, ← hk]
    exact anchor_marked _
  unfold FewPairs maxRenameCandidatePairsPerKey
  rw [hremoved]
  omega

/-- The renamed symbol has no other keys than its fingerprint and its place. -/
theorem eq_old {m : Matcher} (hm : m ∈ matchers .plain) {i : Fin bothSides.removed.length}
    (h : SharesSmallKey bothSides m i new) : i = old := by
  obtain ⟨k, hremoved, hadded, hfew⟩ := h
  simp only [matchers, List.mem_cons, List.not_mem_nil, or_false] at hm
  rcases hm with rfl | rfl | rfl | rfl | rfl
  · cases hadded
  · rcases get_removed i with ⟨hi, -⟩ | ⟨id, hget⟩
    · exact hi
    · unfold RenameSide.keyAt at hremoved
      rw [hget] at hremoved
      cases (fingerprint_plain id).symm.trans hremoved
  · cases hadded
  · rw [anchor_removed] at hremoved
    exact absurd hfew (not_fewPairs rfl hremoved)
  · cases hadded

/-- The fingerprint singles out the renamed symbol. -/
theorem soleMatch : SoleMatch .plain bothSides old new := by
  refine ⟨fun m hm i h => eq_old hm h, fun m hm j _ => eq_new j, ?_⟩
  obtain ⟨k, hk⟩ := Option.isSome_iff_exists.1 fingerprint_isSome
  refine ⟨⟨semanticFingerprintKey .plain, .exact,
    "same_semantic_fingerprint_identity_shape_and_package"⟩, by simp [matchers], by decide, k,
    (fingerprint_marked _).trans hk, (fingerprint_marked _).trans hk, ?_⟩
  have hremoved : ∀ i ∈ bothSides.removed.indices (semanticFingerprintKey .plain) k, ∀ j ∈
      bothSides.added.indices (semanticFingerprintKey .plain) k, i = old ∧ j = new := by
    intro i hi j _
    rw [RenameSide.mem_indices] at hi
    rcases get_removed i with ⟨hi', -⟩ | ⟨id, hget⟩
    · exact ⟨hi', eq_new j⟩
    · unfold RenameSide.keyAt at hi
      rw [hget] at hi
      cases (fingerprint_plain id).symm.trans hi
  exact (length_mul_length_le (RenameSide.indices_nodup _ _ _) (RenameSide.indices_nodup _ _ _)
    hremoved).trans (by decide)

/-- The other symbols share the place with the renamed one. -/
theorem not_unambiguous : ¬ Unambiguous .plain bothSides old new := by
  intro h
  obtain ⟨k, hk⟩ := Option.isSome_iff_exists.1 anchor_isSome
  have hcopy := h.removed ⟨semanticSourceAnchorKey .plain, .high,
    "same_source_anchor_semantic_identity_shape_and_package"⟩ (by simp [matchers]) copy
    ⟨k, (anchor_removed copy).trans hk, (anchor_marked _).trans hk⟩
  exact absurd (congrArg Fin.val hcopy) (by decide)

/-- The renamed symbol is promoted nevertheless. -/
theorem promoted_ambiguous : ∃ rename ∈ promoted (records .plain bothSides),
    ¬ ∃ i j, rename.Of bothSides i j ∧ Unambiguous .plain bothSides i j := by
  obtain ⟨rename, hrename, hof⟩ := promoted_of_soleMatch soleMatch
  refine ⟨rename, hrename, ?_⟩
  rintro ⟨i, j, hof', hunambiguous⟩
  obtain ⟨strong, hstrong, -, hshares⟩ := soleMatch.strong
  obtain ⟨rfl, rfl⟩ := hof.eq_of_unambiguous hof' hunambiguous hstrong hshares.sharesKey
  exact not_unambiguous hunambiguous

end RenameSample

open RenameSample in
/-- A rename is found although 4096 other removed symbols share a key with its new node. -/
theorem detectNodeRenames_forgets :
    ∃ detected, detectNodeRenames .plain nodes ∅ ∅ ∅ ∅ = .ok detected ∧
      ∃ rename ∈ detected.renames, ¬ ∃ i j,
        rename.Of (renameSides nodes ∅ ∅ ∅ ∅) i j ∧
        Unambiguous .plain (renameSides nodes ∅ ∅ ∅ ∅) i j := by
  have h := promoted_ambiguous
  rw [← renameSides_nodes] at h
  exact exists_rename h

end Store
