import Depgraph.Query.Trails

/-!
# The answers of a source

The search from a source stages, for each target that a trail of the query leads to, one row: that of
a shortest such trail and, of these, of the one with the least edge identities. The rows come by
depth and, at one depth, by target.
-/

namespace Query

open Json Protocol OrderedMap Metered LeastUnderKey Std
open Store hiding GraphSnapshot

namespace Executor

variable {E : Executor}

/-! ### Layers -/

section Order

variable {source : String} {path path' : List EdgeRecord} {witness witness' : Witness}

/-- Lists of one length that differ are compared before what follows. -/
theorem compare_append_of_lt {l l' : List String} (hlength : l.length = l'.length)
    (h : compare l l' = .lt) (m m' : List String) : compare (l ++ m) (l' ++ m') = .lt := by
  induction l generalizing l' with
  | nil =>
    obtain rfl : l' = [] := List.length_eq_zero_iff.1 hlength.symm
    cases h
  | cons a l ih =>
    cases l' with
    | nil => cases hlength
    | cons b l' =>
      rw [List.cons_append, List.cons_append, List.compare_cons_cons] at *
      cases hab : compare a b with
      | lt => rfl
      | eq =>
        rw [hab] at h
        exact ih (Nat.succ.inj hlength) h
      | gt =>
        rw [hab] at h
        cases h

theorem witnessOrder_eq (left right : Witness) : witnessOrder left right =
    (compare left.edgeIds right.edgeIds).then (compare left.nodeIds right.nodeIds) := rfl

/-- A witness that is not greater has edge identities that are not. -/
theorem IsWitness.compare_isLE (h : E.IsWitness source path witness)
    (h' : E.IsWitness source path' witness') (hle : (witnessOrder witness witness').isLE) :
    (compare (path.map EdgeRecord.id) (path'.map EdgeRecord.id)).isLE := by
  rw [witnessOrder_eq, h.edgeIds, h'.edgeIds] at hle
  cases hcmp : compare (path.map EdgeRecord.id) (path'.map EdgeRecord.id) with
  | lt => rfl
  | eq => rfl
  | gt =>
    rw [hcmp] at hle
    cases hle

/-- The same edge after trails of one length leaves them in their order. -/
theorem IsWitness.extended_isLE (h : E.IsWitness source path witness)
    (h' : E.IsWitness source path' witness') {node node' : String}
    (htrail : E.Trail source path node) (htrail' : E.Trail source path' node')
    (hlength : path.length = path'.length) (hle : (witnessOrder witness witness').isLE)
    (edge : EdgeRecord) :
    (witnessOrder (E.extended witness edge) (E.extended witness' edge)).isLE := by
  cases hcmp : compare witness.edgeIds witness'.edgeIds with
  | lt =>
    have hlt : compare (E.extended witness edge).edgeIds (E.extended witness' edge).edgeIds = .lt :=
      compare_append_of_lt (by rw [h.length, h'.length, hlength]) hcmp _ _
    rw [witnessOrder_eq, hlt]
    rfl
  | eq =>
    have hids := LawfulEqOrd.eq_of_compare hcmp
    rw [h.edgeIds, h'.edgeIds] at hids
    obtain rfl := htrail.eq_of_ids htrail' hids
    rw [h.unique h']
    exact ReflCmp.isLE_rfl
  | gt =>
    rw [witnessOrder_eq, hcmp] at hle
    cases hle

end Order

/-- The witnesses of the trails of one length. -/
def Reached (E : Executor) (source : String) (depth : Nat) (witness : Witness) : Prop :=
  ∃ path node, E.Trail source path node ∧ path.length = depth ∧ E.IsWitness source path witness

/-- A layer holds, for each state at a depth, the least of the witnesses in it. -/
def Layer (E : Executor) (source : String) (depth : Nat)
    (layer : ExtTreeMap StateKey Witness) : Prop :=
  KeepsLeast StateKey.fromWitness witnessOrder (E.Reached source depth) layer

/-- The edge goes on from the witness. -/
def GoesOn (E : Executor) (witness : Witness) (edge : EdgeRecord) : Prop :=
  edge ∈ E.outgoing witness.lastNode ∧ edge.id ∉ witness.usedEdges ∧ E.leadsTo edge ∈ E.nodes

theorem GoesOn.trail (hE : E.WellFormed) {source node : String} {path : List EdgeRecord}
    {witness : Witness} {edge : EdgeRecord} (h : E.GoesOn witness edge)
    (htrail : E.Trail source path node) (hwitness : E.IsWitness source path witness) :
    E.Trail source (path ++ [edge]) (E.leadsTo edge) := by
  obtain ⟨hout, hnew, hnode⟩ := h
  rw [hwitness.lastNode htrail, hE.outgoing] at hout
  exact .snoc (hout.2 ▸ htrail) hout.1 (fun hmem => hnew ((hwitness.usedEdges _).2 hmem)) hnode

theorem ensures_enterState {items : Witness → Prop} {next : ExtTreeMap StateKey Witness}
    (h : KeepsLeast StateKey.fromWitness witnessOrder items next) (candidate : Witness) :
    Ensures (E.enterState next candidate) (KeepsLeast StateKey.fromWitness witnessOrder
      fun w => items w ∨ w = candidate) := by
  have hkept := h.keepLess candidate
  exact .ite (fun _ => .after fun _ => .pure hkept) fun _ => .pure hkept

theorem ensures_expandEdge {items : Witness → Prop} {next : ExtTreeMap StateKey Witness}
    (h : KeepsLeast StateKey.fromWitness witnessOrder items next) {witness : Witness}
    {edge : EdgeRecord} (hedge : edge ∈ E.outgoing witness.lastNode) :
    Ensures (E.expandEdge witness next edge) (KeepsLeast StateKey.fromWitness witnessOrder
      fun w => items w ∨ E.GoesOn witness edge ∧ w = E.extended witness edge) := by
  unfold expandEdge
  refine .after fun _ => .ite (fun hskip => .pure (h.congr fun w => ?_)) fun hgo => ?_
  · refine ⟨.inl, fun hw => hw.resolve_right fun ⟨⟨_, hnew, hnode⟩, _⟩ => ?_⟩
    exact hskip.elim hnew fun hmissing => hmissing hnode
  · have hgoes : E.GoesOn witness edge :=
      ⟨hedge, fun hused => hgo (.inl hused), not_not.1 fun hmissing => hgo (.inr hmissing)⟩
    refine (ensures_extendWitness witness edge).bind fun candidate hcandidate => ?_
    refine (ensures_enterState h candidate).mono fun next hnext => hnext.congr fun w => ?_
    rw [hcandidate, and_iff_right hgoes]

theorem ensures_expandState {items : Witness → Prop} {next : ExtTreeMap StateKey Witness}
    (h : KeepsLeast StateKey.fromWitness witnessOrder items next) (witness : Witness) :
    Ensures (E.expandState next witness) (KeepsLeast StateKey.fromWitness witnessOrder
      fun w => items w ∨ ∃ edge, E.GoesOn witness edge ∧ w = E.extended witness edge) := by
  unfold expandState
  refine .after fun _ => ?_
  have hloop := KeepsLeast.foldlM (f := E.expandEdge witness) h fun edge hedge before known hknown =>
    ensures_expandEdge hknown hedge
  refine hloop.mono fun next hnext => hnext.congr fun w => ?_
  exact or_congr Iff.rfl (exists_congr fun edge => ⟨fun h => h.2, fun h => ⟨h.1.1, h⟩⟩)

/-- **The next layer.** A trail need only be extended where it is the least in its state, since those
in one state go on alike. -/
theorem Layer.next (hE : E.WellFormed) {source : String} {depth : Nat}
    {current : ExtTreeMap StateKey Witness} (h : E.Layer source depth current) :
    Ensures ((values current).foldlM E.expandState ∅) (E.Layer source (depth + 1)) := by
  have hloop := KeepsLeast.foldlM (f := E.expandState) (l := values current) KeepsLeast.empty
    fun witness _ before known hknown => ensures_expandState hknown witness
  refine hloop.mono fun next hnext => hnext.of_covered ?_ ?_
  · rintro w (⟨⟨⟩⟩ | ⟨witness, hwitness, edge, hgoes, rfl⟩)
    obtain ⟨path, node, htrail, hlength, hpath⟩ := h.mem_values hwitness
    refine ⟨path ++ [edge], E.leadsTo edge, hgoes.trail hE htrail hpath, ?_, hpath.extended hE edge⟩
    rw [List.length_append, hlength]
    rfl
  · rintro w ⟨path, node, htrail, hlength, hpath⟩
    cases htrail with
    | start => cases hlength
    | @snoc path edge htrail known new node =>
      rw [List.length_append] at hlength
      -- the least witness in the state of the trail before its last edge
      obtain ⟨witness, hwitness⟩ := htrail.exists_witness hE
      obtain ⟨least, hleast, ⟨path', node', htrail', hlength', hpath'⟩, hkey, hle⟩ :=
        h.exists_le ⟨path, _, htrail, Nat.succ.inj hlength, hwitness⟩
      obtain ⟨rfl, hlengths, hmem⟩ := hpath'.of_key_eq hwitness htrail' htrail hkey
      -- trails in one state use the same edges, so the last one is new to the least one too
      have hgoes : E.GoesOn least edge := by
        refine ⟨?_, fun hused => new ?_, node⟩
        · rw [hpath'.lastNode htrail', hE.outgoing]
          exact ⟨known, rfl⟩
        · rw [hpath'.usedEdges, List.mem_map] at hused
          obtain ⟨used, hused, hid⟩ := hused
          exact List.mem_map.2 ⟨used, (hmem used).1 hused, hid⟩
      have hextended := hwitness.extended hE edge
      rw [hpath.unique hextended]
      refine ⟨E.extended least edge,
        .inr ⟨least, OrderedMap.mem_values.2 ⟨_, hleast⟩, edge, hgoes, rfl⟩, ?_, ?_⟩
      · refine (hpath'.extended hE edge).key_eq hextended (hgoes.trail hE htrail' hpath')
          (.snoc htrail known new node) ?_ fun other => ?_
        · rw [List.length_append, List.length_append, hlengths]
        · rw [List.mem_append, List.mem_append, hmem]
      · exact hpath'.extended_isLE hwitness htrail' htrail hlengths hle edge

/-! ### Answers -/

/-- A trail to a target that the query matches. -/
structure Matches (E : Executor) (source target : NodeRecord) (path : List EdgeRecord) : Prop where
  trail : E.Trail source.id path target.id
  known : E.nodes[target.id]? = some target
  kind : E.targetKindMatches target = true
  minDepth : E.query.matchClause.relationship.minDepth ≤ path.length
  maxDepth : path.length ≤ E.query.matchClause.relationship.maxDepth
  clause : E.whereHolds source target path = true

/-- The trail of the row for a target: a shortest one, with the least edge identities of these. -/
structure IsAnswer (E : Executor) (source target : NodeRecord) (path : List EdgeRecord) :
    Prop where
  isMatch : E.Matches source target path
  shortest : ∀ other, E.Matches source target other → path.length ≤ other.length
  least : ∀ other, E.Matches source target other → other.length = path.length →
    (compare (path.map EdgeRecord.id) (other.map EdgeRecord.id)).isLE

/-- The row of a target and a trail. -/
def IsRow (E : Executor) (S : StableIds) (source : NodeRecord)
    (answer : NodeRecord × List EdgeRecord) (row : List Value) : Prop :=
  ∃ witness, E.IsWitness source.id answer.2 witness ∧
    E.projectRow S source answer.1 witness = .ok row

/-- By depth and, at one depth, by target. -/
def Before (a b : NodeRecord × List EdgeRecord) : Prop :=
  a.2.length < b.2.length ∨ a.2.length = b.2.length ∧ a.1.id < b.1.id

/-- The rows, when the answers with a property have been staged. -/
structure Answered (E : Executor) (S : StableIds) (source : NodeRecord)
    (selected : List EdgeRecord → Prop) (before rows : List (List Value))
    (answers : List (NodeRecord × List EdgeRecord)) (made : List (List Value)) : Prop where
  mem_iff : ∀ target path,
    (target, path) ∈ answers ↔ E.IsAnswer source target path ∧ selected path
  order : answers.Pairwise Before
  projected : List.Forall₂ (E.IsRow S source) answers made
  rows : rows = made.foldl E.stage before

section Staging

variable {source : NodeRecord}

/-- The targets that were met before a depth. -/
def Resolved (E : Executor) (source : NodeRecord) (depth : Nat) (resolved : ExtTreeSet String) :
    Prop :=
  ∀ id, id ∈ resolved ↔
    ∃ target path, target.id = id ∧ E.Matches source target path ∧ path.length < depth

/-- The witness is that of a trail of some length that matches, and its target is new. -/
def NewMatch (E : Executor) (source : NodeRecord) (depth : Nat) (resolved : ExtTreeSet String)
    (witness : Witness) : Prop :=
  witness.lastNode ∉ resolved ∧ ∃ target path, E.Trail source.id path target.id ∧
    E.IsWitness source.id path witness ∧ path.length = depth ∧
    E.nodes[target.id]? = some target ∧ E.targetKindMatches target = true ∧
    E.whereHolds source target path = true

/-- A witness is noted as a match. -/
def noted (E : Executor) (source : NodeRecord) (resolved : ExtTreeSet String) (witness : Witness) :
    Bool :=
  decide (witness.lastNode ∉ resolved) && (E.nodes[witness.lastNode]?).any fun target =>
    E.targetKindMatches target && E.whereMatches source target witness

theorem noteMatch_eq (hE : E.WellFormed) (resolved : ExtTreeSet String)
    (found : ExtTreeMap String Witness) (witness : Witness) :
    E.noteMatch source resolved found witness =
      (if E.noted source resolved witness then some witness else none).elim found fun witness =>
        keepLess witnessOrder found witness.lastNode witness := by
  unfold noteMatch noted
  by_cases hmem : witness.lastNode ∈ resolved
  · rw [if_pos hmem, decide_eq_false (not_not.2 hmem), Bool.false_and]
    rfl
  · rw [if_neg hmem, decide_eq_true hmem, Bool.true_and]
    cases hnode : E.nodes[witness.lastNode]? with
    | none => rfl
    | some target =>
      have hid := hE.nodes _ _ hnode
      rw [Option.any_some]
      dsimp only
      cases E.targetKindMatches target <;> cases E.whereMatches source target witness
      · rfl
      · rfl
      · rfl
      · rw [hid]
        rfl

/-- The witness of a trail is noted as the clause says. -/
theorem noted_iff (hE : E.WellFormed) {resolved : ExtTreeSet String} {witness : Witness}
    {path : List EdgeRecord} {node : String} (htrail : E.Trail source.id path node)
    (hwitness : E.IsWitness source.id path witness) :
    E.noted source resolved witness = true ↔ node ∉ resolved ∧ ∃ target,
      E.nodes[node]? = some target ∧ E.targetKindMatches target = true ∧
        E.whereHolds source target path = true := by
  rw [noted, hwitness.lastNode htrail, Bool.and_eq_true, decide_eq_true_iff, Option.any_eq_true]
  simp only [Bool.and_eq_true, whereMatches_eq hE htrail hwitness]

/-- **The matches of a layer.** For each target, the least of all trails is among those kept, as the
trails in one state match alike. -/
theorem Layer.found (hE : E.WellFormed) {depth : Nat} {current : ExtTreeMap StateKey Witness}
    (h : E.Layer source.id depth current) (resolved : ExtTreeSet String) :
    KeepsLeast Witness.lastNode witnessOrder (E.NewMatch source depth resolved)
      ((values current).foldl (E.noteMatch source resolved) ∅) := by
  have hloop := KeepsLeast.foldl (f := E.noteMatch source resolved)
    (fun known t => noteMatch_eq hE resolved known t) (values current)
  refine hloop.of_covered ?_ ?_
  · rintro w ⟨witness, hwitness, hnoted⟩
    split_ifs at hnoted with hif
    obtain rfl := Option.some.inj hnoted
    obtain ⟨path, node, htrail, hlength, hpath⟩ := h.mem_values hwitness
    obtain ⟨hnew, target, hnode, hkind, hclause⟩ := (noted_iff hE htrail hpath).1 hif
    obtain rfl := hE.nodes _ _ hnode
    exact ⟨hpath.lastNode htrail ▸ hnew, target, path, htrail, hpath, hlength, hnode, hkind, hclause⟩
  · rintro w ⟨hnew, target, path, htrail, hpath, hlength, hnode, hkind, hclause⟩
    rw [hpath.lastNode htrail] at hnew
    obtain ⟨least, hleast, ⟨path', node', htrail', hlength', hpath'⟩, hkey, hle⟩ :=
      h.exists_le ⟨path, _, htrail, hlength, hpath⟩
    obtain ⟨rfl, hlengths, hmem⟩ := hpath'.of_key_eq hpath htrail' htrail hkey
    -- the clause does not look at the order of the edges
    rw [← whereHolds_congr hmem hlengths] at hclause
    have hnoted := (noted_iff hE htrail' hpath').2 ⟨hnew, target, hnode, hkind, hclause⟩
    refine ⟨least, ⟨least, OrderedMap.mem_values.2 ⟨_, hleast⟩, if_pos hnoted⟩, ?_, hle⟩
    rw [hpath'.lastNode htrail', hpath.lastNode htrail]

/-- The answer of an entry of the matches. -/
structure IsAnswerOf (E : Executor) (source : NodeRecord) (entry : String × Witness)
    (answer : NodeRecord × List EdgeRecord) : Prop where
  target : E.nodes[entry.1]? = some answer.1
  trail : E.Trail source.id answer.2 entry.1
  witness : E.IsWitness source.id answer.2 entry.2

theorem IsAnswerOf.unique {entry : String × Witness} {answer other : NodeRecord × List EdgeRecord}
    (h : E.IsAnswerOf source entry answer) (h' : E.IsAnswerOf source entry other) :
    other = answer := by
  have htarget := Option.some.inj (h.target.symm.trans h'.target)
  have hpath := h.trail.eq_of_ids h'.trail (h.witness.edgeIds.symm.trans h'.witness.edgeIds)
  exact Prod.ext htarget.symm hpath.symm

theorem ensures_stageMatch {S : StableIds} (staged : Staged) {entry : String × Witness}
    {answer : NodeRecord × List EdgeRecord} (h : E.IsAnswerOf source entry answer) :
    Ensures (E.stageMatch S source staged entry) fun next => ∃ row,
      E.IsRow S source answer row ∧
        next = ⟨staged.resolved.insert entry.1, E.stage staged.rows row⟩ := by
  unfold stageMatch
  rw [h.target]
  dsimp only
  cases hrow : E.projectRow S source answer.1 entry.2 with
  | error e => exact .fail
  | ok row => exact .after fun _ => .pure ⟨row, ⟨entry.2, h.witness, hrow⟩, rfl⟩

/-- Every match of a layer is the answer of an entry. -/
theorem Layer.exists_isAnswerOf (hE : E.WellFormed) {depth : Nat}
    {current : ExtTreeMap StateKey Witness} (h : E.Layer source.id depth current)
    (resolved : ExtTreeSet String) (entry : String × Witness)
    (hentry : entry ∈ ((values current).foldl (E.noteMatch source resolved) ∅).toList) :
    ∃ answer, E.IsAnswerOf source entry answer := by
  obtain ⟨id, witness⟩ := entry
  obtain ⟨⟨-, target, path, htrail, hpath, -, hnode, -⟩, hkey, -⟩ :=
    (h.found hE resolved).least (mem_toList.1 hentry)
  rw [hpath.lastNode htrail] at hkey
  subst hkey
  exact ⟨(target, path), hnode, htrail, hpath⟩

/-- The answers of a depth are the entries of the matches that are new there. -/
theorem exists_isAnswerOf_iff (hE : E.WellFormed) {depth : Nat} {resolved : ExtTreeSet String}
    {found : ExtTreeMap String Witness}
    (h : KeepsLeast Witness.lastNode witnessOrder (E.NewMatch source depth resolved) found)
    (hresolved : E.Resolved source depth resolved)
    (hmin : E.query.matchClause.relationship.minDepth ≤ depth)
    (hmax : depth ≤ E.query.matchClause.relationship.maxDepth)
    (target : NodeRecord) (path : List EdgeRecord) :
    (∃ entry ∈ found.toList, E.IsAnswerOf source entry (target, path)) ↔
      E.IsAnswer source target path ∧ path.length = depth := by
  have newMatch {other : List EdgeRecord} (hother : E.Matches source target other)
      (hlength : other.length = depth) (hnew : target.id ∉ resolved) :
      ∃ witness, E.IsWitness source.id other witness ∧
        E.NewMatch source depth resolved witness := by
    obtain ⟨witness, hwitness⟩ := hother.trail.exists_witness hE
    refine ⟨witness, hwitness, hwitness.lastNode hother.trail ▸ hnew, target, other, hother.trail,
      hwitness, hlength, hother.known, hother.kind, hother.clause⟩
  constructor
  · rintro ⟨⟨id, witness⟩, hentry, hanswer⟩
    obtain ⟨⟨hnew, target', path', htrail', hpath', hlength, hnode, hkind, hclause⟩, hkey, hle⟩ :=
      h.least (mem_toList.1 hentry)
    have hid := hpath'.lastNode htrail'
    rw [hkey] at hid hnew
    obtain rfl : target' = target :=
      Option.some.inj (hnode.symm.trans (hid ▸ hanswer.target))
    obtain rfl : path' = path := htrail'.eq_of_ids hanswer.trail
      (hpath'.edgeIds.symm.trans hanswer.witness.edgeIds)
    refine ⟨⟨⟨htrail', hnode, hkind, hlength ▸ hmin, hlength ▸ hmax, hclause⟩, ?_, ?_⟩, hlength⟩
    · intro other hother
      -- a shorter match would have resolved the target before
      by_contra hlt
      exact hnew ((hresolved id).2 ⟨target', other, hid.symm, hother, by omega⟩)
    · intro other hother hsame
      obtain ⟨witness', hwitness', hnew'⟩ := newMatch hother (hsame.trans hlength) (hid ▸ hnew)
      refine hpath'.compare_isLE hwitness' (hle witness' hnew' ?_)
      rw [hwitness'.lastNode hother.trail, hid]
  · rintro ⟨hanswer, hlength⟩
    have hnew : target.id ∉ resolved := by
      intro hmem
      obtain ⟨target', other, hid, hother, hlt⟩ := (hresolved _).1 hmem
      obtain rfl : target' = target :=
        Option.some.inj (hother.known.symm.trans (hid ▸ hanswer.isMatch.known))
      have hshortest := hanswer.shortest other hother
      omega
    obtain ⟨witness, hwitness, hnewMatch⟩ := newMatch hanswer.isMatch hlength hnew
    obtain ⟨least, hleast, ⟨-, target', path', htrail', hpath', hlength', hnode, hkind, hclause⟩,
      hkey, hle⟩ := h.exists_le hnewMatch
    rw [hwitness.lastNode hanswer.isMatch.trail] at hkey hleast
    rw [hpath'.lastNode htrail'] at hkey
    obtain rfl : target' = target := by
      rw [hkey, hanswer.isMatch.known] at hnode
      exact (Option.some.inj hnode).symm
    have hother : E.Matches source target' path' :=
      ⟨htrail', hnode, hkind, hlength' ▸ hmin, hlength' ▸ hmax, hclause⟩
    -- each of the two trails is the least
    have hids : path'.map EdgeRecord.id = path.map EdgeRecord.id :=
      LawfulEqOrd.eq_of_compare (OrientedCmp.isLE_antisymm (hpath'.compare_isLE hwitness hle)
        (hanswer.least path' hother (hlength'.trans hlength.symm)))
    obtain rfl := htrail'.eq_of_ids hanswer.isMatch.trail hids
    exact ⟨(target'.id, least), mem_toList.2 hleast, hnode, htrail', hpath'⟩

theorem Answered.congr {S : StableIds} {selected selected' : List EdgeRecord → Prop}
    {before rows made : List (List Value)} {answers : List (NodeRecord × List EdgeRecord)}
    (h : E.Answered S source selected before rows answers made)
    (hselected : ∀ target path, E.IsAnswer source target path → (selected path ↔ selected' path)) :
    E.Answered S source selected' before rows answers made :=
  { h with
    mem_iff := fun target path => by rw [h.mem_iff, and_congr_right (hselected target path)] }

/-- The loop over the matches of a layer. -/
theorem ensures_stageLoop (hE : E.WellFormed) {S : StableIds} {found : List (String × Witness)}
    (staged : Staged)
    (hanswer : ∀ entry ∈ found, ∃ answer, E.IsAnswerOf source entry answer) :
    Ensures (found.foldlM (E.stageMatch S source) staged) fun next => ∃ answers made,
      (∀ answer, answer ∈ answers ↔ ∃ entry ∈ found, E.IsAnswerOf source entry answer) ∧
      answers.map (fun answer => answer.1.id) = found.map Prod.fst ∧
      List.Forall₂ (E.IsRow S source) answers made ∧
      next.rows = made.foldl E.stage staged.rows ∧
      ∀ id, id ∈ next.resolved ↔ id ∈ staged.resolved ∨ id ∈ found.map Prod.fst := by
  refine Ensures.foldlM (motive := fun (done : List (String × Witness)) (next : Staged) =>
    ∃ answers made,
    (∀ answer, answer ∈ answers ↔ ∃ entry ∈ done, E.IsAnswerOf source entry answer) ∧
    answers.map (fun answer => answer.1.id) = done.map Prod.fst ∧
    List.Forall₂ (E.IsRow S source) answers made ∧
    next.rows = made.foldl E.stage staged.rows ∧
    ∀ id, id ∈ next.resolved ↔ id ∈ staged.resolved ∨ id ∈ done.map Prod.fst) ?_ ?_
  · exact ⟨[], [], by simp, rfl, .nil, rfl, by simp⟩
  · rintro done entry acc hdone ⟨answers, made, hmem, hids, hprojected, hrows, hresolved⟩
    have hentry : entry ∈ found := hdone.subset (List.mem_append_right _ List.mem_cons_self)
    obtain ⟨answer, hanswer⟩ := hanswer entry hentry
    refine (ensures_stageMatch acc hanswer).mono ?_
    rintro next ⟨row, hrow, rfl⟩
    refine ⟨answers ++ [answer], made ++ [row], fun other => ?_, ?_,
      List.rel_append hprojected (.cons hrow .nil), ?_, fun id => ?_⟩
    · have hother : E.IsAnswerOf source entry other ↔ other = answer :=
        ⟨hanswer.unique, fun h => h ▸ hanswer⟩
      simp only [List.mem_append, List.mem_singleton, hmem, or_and_right, exists_or,
        exists_eq_left, hother]
    · rw [List.map_append, List.map_append, hids, List.map_singleton, List.map_singleton,
        hE.nodes _ _ hanswer.target]
    · rw [hrows, List.foldl_append]
      rfl
    · rw [OrderedMap.mem_insert, hresolved, List.map_append, List.mem_append, List.map_singleton,
        List.mem_singleton, or_comm, or_assoc]

/-- **Staging a layer** adds the answers of its depth. -/
theorem Layer.stage (hE : E.WellFormed) {S : StableIds} {depth : Nat}
    {current : ExtTreeMap StateKey Witness} (h : E.Layer source.id depth current) {staged : Staged}
    (hresolved : E.Resolved source depth staged.resolved)
    (hmin : E.query.matchClause.relationship.minDepth ≤ depth)
    (hmax : depth ≤ E.query.matchClause.relationship.maxDepth)
    {before : List (List Value)} {answers : List (NodeRecord × List EdgeRecord)}
    {made : List (List Value)}
    (hanswered : E.Answered S source (·.length < depth) before staged.rows answers made) :
    Ensures (E.stageLayer S source current staged) fun next =>
      E.Resolved source (depth + 1) next.resolved ∧ ∃ answers made,
        E.Answered S source (·.length < depth + 1) before next.rows answers made := by
  have hfound := h.found hE staged.resolved
  have hiff := exists_isAnswerOf_iff hE hfound hresolved hmin hmax
  refine (ensures_stageLoop hE staged (h.exists_isAnswerOf hE staged.resolved)).mono ?_
  rintro next ⟨new, newMade, hmem, hids, hprojected, hrows, hnext⟩
  have hnew (target : NodeRecord) (path : List EdgeRecord) :
      (target, path) ∈ new ↔ E.IsAnswer source target path ∧ path.length = depth := by
    rw [hmem, hiff]
  refine ⟨fun id => ?_, answers ++ new, made ++ newMade, fun target path => ?_, ?_,
    List.rel_append hanswered.projected hprojected, ?_⟩
  · rw [hnext]
    constructor
    · rintro (hid | hid)
      · obtain ⟨target, path, hid, hmatch, hlt⟩ := (hresolved id).1 hid
        exact ⟨target, path, hid, hmatch, hlt.trans (Nat.lt_succ_self _)⟩
      · rw [← hids, List.mem_map] at hid
        obtain ⟨⟨target, path⟩, hanswer, rfl⟩ := hid
        obtain ⟨hanswer, hlength⟩ := (hnew target path).1 hanswer
        exact ⟨target, path, rfl, hanswer.isMatch, hlength ▸ Nat.lt_succ_self _⟩
    · rintro ⟨target, path, rfl, hmatch, hlt⟩
      -- a target is resolved by its first match
      by_cases hold : target.id ∈ staged.resolved
      · exact .inl hold
      · right
        obtain ⟨witness, hwitness⟩ := hmatch.trail.exists_witness hE
        have hlast := hwitness.lastNode hmatch.trail
        have hlength : path.length = depth := by
          by_contra hne
          exact hold ((hresolved _).2 ⟨target, path, rfl, hmatch, by omega⟩)
        obtain ⟨least, hleast, -⟩ := hfound.exists_le ⟨hlast ▸ hold, target, path, hmatch.trail,
          hwitness, hlength, hmatch.known, hmatch.kind, hmatch.clause⟩
        rw [hlast] at hleast
        exact List.mem_map.2 ⟨(target.id, least), mem_toList.2 hleast, rfl⟩
  · rw [List.mem_append, hanswered.mem_iff, hnew, ← and_or_left, ← Nat.le_iff_lt_or_eq,
      Nat.lt_succ_iff]
  · have hlengths : ∀ answer ∈ new, answer.2.length = depth := fun answer hanswer =>
      ((hnew answer.1 answer.2).1 hanswer).2
    refine List.pairwise_append.2 ⟨hanswered.order, ?_, fun a ha b hb => .inl ?_⟩
    · have hsorted : (new.map fun answer => answer.1.id).Pairwise fun a b => a < b := by
        rw [hids, List.pairwise_map]
        exact ExtTreeMap.ordered_keys_toList.imp compare_lt_iff_lt.1
      refine (List.pairwise_map.1 hsorted).imp_of_mem fun ha hb hlt => .inr ⟨?_, hlt⟩
      rw [hlengths _ ha, hlengths _ hb]
    · rw [hlengths b hb]
      exact ((hanswered.mem_iff a.1 a.2).1 ha).2
  · rw [hrows, hanswered.rows, List.foldl_append]

/-- A depth of the loop, which stages its layer unless it is too short. -/
theorem ensures_stageAt (hE : E.WellFormed) {S : StableIds} {depth : Nat}
    {current : ExtTreeMap StateKey Witness} (h : E.Layer source.id depth current) {staged : Staged}
    (hresolved : E.Resolved source depth staged.resolved)
    (hmax : depth ≤ E.query.matchClause.relationship.maxDepth)
    {before : List (List Value)} {answers : List (NodeRecord × List EdgeRecord)}
    {made : List (List Value)}
    (hanswered : E.Answered S source (·.length < depth) before staged.rows answers made) :
    Ensures (E.stageAt S source depth current staged) fun next =>
      E.Resolved source (depth + 1) next.resolved ∧ ∃ answers made,
        E.Answered S source (·.length < depth + 1) before next.rows answers made := by
  refine .ite (fun hmin => h.stage hE hresolved hmin hmax hanswered) fun hmin => .pure ?_
  -- nothing matches below the minimal depth
  have hlt {target : NodeRecord} {path : List EdgeRecord} (hmatch : E.Matches source target path) :
      path.length < depth ↔ path.length < depth + 1 := by
    have hmatch := hmatch.minDepth
    omega
  refine ⟨fun id => ?_, answers, made, hanswered.congr fun target path hanswer => hlt hanswer.isMatch⟩
  rw [hresolved]
  exact exists_congr fun target => exists_congr fun path =>
    and_congr_right fun _ => and_congr_right fun hmatch => hlt hmatch

end Staging

/-- **The search from a source stages one row for each answer, and no other.** -/
theorem ensures_layers (hE : E.WellFormed) {S : StableIds} {source : NodeRecord} (left depth : Nat)
    (hdepth : depth + left = E.query.matchClause.relationship.maxDepth)
    {current : ExtTreeMap StateKey Witness} (h : E.Layer source.id depth current) {staged : Staged}
    (hresolved : E.Resolved source depth staged.resolved)
    {before : List (List Value)} {answers : List (NodeRecord × List EdgeRecord)}
    {made : List (List Value)}
    (hanswered : E.Answered S source (·.length < depth) before staged.rows answers made) :
    Ensures (E.layers S source left depth current staged) fun rows =>
      ∃ answers made, E.Answered S source (fun _ => True) before rows answers made := by
  induction left generalizing depth current staged answers made with
  | zero =>
    rw [layers]
    refine .after fun _ => (ensures_stageAt hE h hresolved (by omega) hanswered).bind ?_
    rintro next ⟨-, answers, made, hnext⟩
    refine .pure ⟨answers, made, hnext.congr fun target path hanswer => ?_⟩
    have hmax := hanswer.isMatch.maxDepth
    exact iff_true_intro (by omega)
  | succ left ih =>
    rw [layers]
    refine .after fun _ => (ensures_stageAt hE h hresolved (by omega) hanswered).bind ?_
    rintro staged ⟨hresolved, answers, made, hanswered⟩
    refine (h.next hE).bind fun next hnext => .ite (fun hempty => ?_) fun _ =>
      ih (depth + 1) (by omega) hnext hresolved hanswered
    -- no trail is longer
    refine .pure ⟨answers, made, hanswered.congr fun target path hanswer => iff_true_intro ?_⟩
    by_contra hlong
    obtain ⟨path', node', htrail', hlength⟩ :=
      hanswer.isMatch.trail.shorter (Nat.le_of_not_lt hlong)
    obtain ⟨witness, hwitness⟩ := htrail'.exists_witness hE
    have hheld := hnext.held ⟨path', node', htrail', hlength, hwitness⟩
    rw [ExtTreeMap.isEmpty_iff.1 hempty, ExtTreeMap.getElem?_empty] at hheld
    cases hheld

/-- The layer of a source. -/
theorem Layer.ofSource (source : NodeRecord) :
    E.Layer source.id 0 ((∅ : ExtTreeMap StateKey Witness).insert
      (StateKey.fromWitness (Witness.ofSource source)) (Witness.ofSource source)) := by
  have hempty : KeepsLeast StateKey.fromWitness witnessOrder (fun _ : Witness => False) ∅ := .empty
  have hone := hempty.keepLess (Witness.ofSource source)
  rw [keepLess, ExtTreeMap.getElem?_empty] at hone
  refine hone.congr fun witness => ⟨?_, ?_⟩
  · rintro (⟨⟨⟩⟩ | rfl)
    exact ⟨[], source.id, .start, rfl, .start⟩
  · rintro ⟨path, node, -, hlength, hpath⟩
    obtain rfl := List.length_eq_zero_iff.1 hlength
    exact .inr (hpath.unique .start)

theorem ensures_runSource (hE : E.WellFormed) (S : StableIds) (source : NodeRecord)
    (before : List (List Value)) :
    Ensures (E.runSource S before source) fun rows =>
      ∃ answers made, E.Answered S source (fun _ => True) before rows answers made := by
  have hresolved : E.Resolved source 0 ∅ := fun id => by simp
  have hanswered : E.Answered S source (·.length < 0) before before [] [] :=
    ⟨by simp, .nil, .nil, rfl⟩
  exact .after fun _ => ensures_layers hE _ 0 (Nat.zero_add _) (Layer.ofSource source) hresolved
    hanswered

end Executor

end Query
