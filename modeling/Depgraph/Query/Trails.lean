import Depgraph.Query.Execute

/-!
# Trails

What the executor of a bounded query looks for, in terms of paths: a trail uses each edge once, and
`whereHolds` says what the `where` clause means for it. `IsWitness` ties a witness of the search to
its trail; the search is right to keep one witness for each state because the sites, the existential
bits and the truth of the clause depend on the set of the edges alone.
-/

namespace Query

open Json Protocol OrderedMap Metered LeastUnderKey Std
open Store hiding GraphSnapshot

namespace Executor

variable (E : Executor)

/-- The node to which an edge leads. -/
def leadsTo (edge : EdgeRecord) : String :=
  traversedNodeId edge E.query.matchClause.relationship.direction

/-- The indexes are those of a snapshot and a query with a bit for each existential predicate. -/
structure WellFormed : Prop where
  nodes : KeyedBy NodeRecord.id E.nodes
  sites : KeyedBy SiteRecord.id E.sites
  outgoing : ∀ {node : String} {edge : EdgeRecord}, edge ∈ E.outgoing node ↔
    E.edges[edge.id]? = some edge ∧
      metNodeId edge E.query.matchClause.relationship.direction = node
  somePredicates : E.somePredicates = E.query.whereClause.elim [] collectSomePredicates
  few : E.somePredicates.length ≤ 64

/-- A path from a node, by its edges; it uses no edge twice. -/
inductive Trail (source : String) : List EdgeRecord → String → Prop
  | start : Trail source [] source
  | snoc {path : List EdgeRecord} {edge : EdgeRecord}
      (trail : Trail source path (metNodeId edge E.query.matchClause.relationship.direction))
      (known : E.edges[edge.id]? = some edge) (new : edge.id ∉ path.map EdgeRecord.id)
      (node : E.leadsTo edge ∈ E.nodes) : Trail source (path ++ [edge]) (E.leadsTo edge)

/-! ### The meaning of the clause -/

/-- The site of an edge. -/
def siteOf (edge : EdgeRecord) : Option SiteRecord := edge.siteId.bind fun id => E.sites[id]?

/-- An existential predicate, on a site and evidence. -/
def brings (site : Option SiteRecord) (evidence : List EvidenceRecord)
    (predicate : TypedQuantifierPredicate) : Bool :=
  match predicate.binding.entityType with
  | .site => site.any fun site =>
      evaluateEntityExpression E.floatText (.site site) predicate.expression
  | .evidence => evidence.any fun evidence =>
      evaluateEntityExpression E.floatText (.evidence evidence) predicate.expression
  | _ => false

/-- The evidence of an edge and of a site. -/
def evidenceWith (edge : EdgeRecord) (site : Option SiteRecord) : List EvidenceRecord :=
  E.evidenceOf "edge" edge.id ++ site.elim [] fun site => E.evidenceOf "site" site.id

/-- The site or the evidence of an edge meets an existential predicate. -/
def meets (predicate : TypedQuantifierPredicate) (edge : EdgeRecord) : Bool :=
  E.brings (E.siteOf edge) (E.evidenceWith edge (E.siteOf edge)) predicate

section Holds

variable (source target : NodeRecord) (path : List EdgeRecord)

/-- A scalar predicate about the source, the target or the path. -/
def scalarHolds (predicate : TypedScalarPredicate) : Bool :=
  let clause := E.query.matchClause
  evaluateScalarPredicate E.floatText predicate
    (if predicate.field.binding = clause.source.binding.name then .node source
    else if predicate.field.binding = clause.target.binding.name then .node target
    else .path none path.length (directionName clause.relationship.direction))

mutual

/-- The truth of an expression for a path. -/
def holds : TypedExpression → Bool
  | .or terms => anyHolds terms
  | .and terms => allHold terms
  | .not inner => !holds inner
  | .scalar predicate => E.scalarHolds source target path predicate
  | .quantifier predicate =>
    match predicate.binding.entityType with
    | .edge => path.all fun edge =>
        evaluateEntityExpression E.floatText (.edge edge) predicate.expression
    | .site | .evidence => path.any (E.meets predicate)
    | _ => false

def anyHolds : List TypedExpression → Bool
  | [] => false
  | term :: terms => holds term || anyHolds terms

def allHold : List TypedExpression → Bool
  | [] => true
  | term :: terms => holds term && allHold terms

end

/-- The truth of the `where` clause for a path. -/
def whereHolds : Bool := E.query.whereClause.all (E.holds source target path)

end Holds

variable {E}

/-- The truth of an expression depends on the set of the edges and on their number. -/
theorem holds_congr {source target : NodeRecord} {path path' : List EdgeRecord}
    (hmem : ∀ edge, edge ∈ path ↔ edge ∈ path') (hlength : path.length = path'.length)
    (expression : TypedExpression) :
    E.holds source target path expression = E.holds source target path' expression := by
  induction expression using TypedExpression.ind with
  | or terms ih =>
    rw [holds, holds]
    induction terms with
    | nil => rfl
    | cons term terms ihs =>
      rw [anyHolds, anyHolds, ih term List.mem_cons_self,
        ihs fun term hterm => ih term (List.mem_cons_of_mem _ hterm)]
  | and terms ih =>
    rw [holds, holds]
    induction terms with
    | nil => rfl
    | cons term terms ihs =>
      rw [allHold, allHold, ih term List.mem_cons_self,
        ihs fun term hterm => ih term (List.mem_cons_of_mem _ hterm)]
  | not inner ih => rw [holds, holds, ih]
  | scalar predicate => rw [holds, holds, scalarHolds, scalarHolds, hlength]
  | quantifier predicate =>
    rw [holds, holds]
    cases predicate.binding.entityType with
    | edge => exact Bool.eq_iff_iff.2 (by simp only [List.all_eq_true, hmem])
    | site => exact Bool.eq_iff_iff.2 (by simp only [List.any_eq_true, hmem])
    | evidence => exact Bool.eq_iff_iff.2 (by simp only [List.any_eq_true, hmem])
    | node => rfl
    | path => rfl

theorem whereHolds_congr {source target : NodeRecord} {path path' : List EdgeRecord}
    (hmem : ∀ edge, edge ∈ path ↔ edge ∈ path') (hlength : path.length = path'.length) :
    E.whereHolds source target path = E.whereHolds source target path' := by
  rw [whereHolds, whereHolds, funext (holds_congr hmem hlength)]

/-! ### Facts about trails -/

section Trail

variable {source node : String} {path path' : List EdgeRecord}

theorem Trail.known (h : E.Trail source path node) {edge : EdgeRecord} (hedge : edge ∈ path) :
    E.edges[edge.id]? = some edge := by
  induction h with
  | start => cases hedge
  | snoc _ known _ _ ih =>
    rcases List.mem_append.1 hedge with hedge | hedge
    · exact ih hedge
    · obtain rfl := List.mem_singleton.1 hedge
      exact known

/-- The edges of two trails are compared by their identities. -/
theorem Trail.mem_iff {source' node' : String} (h : E.Trail source path node)
    (h' : E.Trail source' path' node')
    (hids : ∀ id, id ∈ path.map EdgeRecord.id ↔ id ∈ path'.map EdgeRecord.id) (edge : EdgeRecord) :
    edge ∈ path ↔ edge ∈ path' := by
  have half {l l' : List EdgeRecord} (hl : ∀ e ∈ l, E.edges[e.id]? = some e)
      (hl' : ∀ e ∈ l', E.edges[e.id]? = some e)
      (hids : ∀ id, id ∈ l.map EdgeRecord.id → id ∈ l'.map EdgeRecord.id) (he : edge ∈ l) :
      edge ∈ l' := by
    obtain ⟨edge', hedge', hid⟩ := List.mem_map.1 (hids _ (List.mem_map_of_mem he))
    have hknown := hl' edge' hedge'
    rw [hid, hl edge he] at hknown
    exact Option.some.inj hknown ▸ hedge'
  exact ⟨half (fun _ => h.known) (fun _ => h'.known) fun id => (hids id).1,
    half (fun _ => h'.known) (fun _ => h.known) fun id => (hids id).2⟩

/-- A trail is known by the identities of its edges. -/
theorem Trail.eq_of_ids {source' node' : String} (h : E.Trail source path node)
    (h' : E.Trail source' path' node')
    (hids : path.map EdgeRecord.id = path'.map EdgeRecord.id) : path = path' := by
  have hall : path.map (fun edge => E.edges[edge.id]?) = path'.map fun edge => E.edges[edge.id]? := by
    have hmap := congrArg (List.map fun id => E.edges[id]?) hids
    rwa [List.map_map, List.map_map] at hmap
  rw [List.map_congr_left fun edge => h.known, List.map_congr_left fun edge => h'.known] at hall
  exact List.map_injective_iff.2 (Option.some_injective _) hall

/-- The last node of a trail. -/
theorem Trail.getLast? (h : E.Trail source path node) :
    (source :: path.map E.leadsTo).getLast? = some node := by
  cases h with
  | start => rfl
  | snoc _ _ _ _ => rw [List.map_append, ← List.cons_append]; exact List.getLast?_concat ..

/-- A longer trail goes on from a shorter one. -/
theorem Trail.shorter (h : E.Trail source path node) {n : Nat} (hn : n ≤ path.length) :
    ∃ path' node', E.Trail source path' node' ∧ path'.length = n := by
  induction h with
  | start => exact ⟨[], source, .start, (Nat.le_zero.1 hn).symm⟩
  | @snoc path edge trail known new node ih =>
    rcases Nat.lt_or_ge path.length n with hlt | hle
    · rw [List.length_append] at hn
      have hlength : (path ++ [edge]).length = n := by
        rw [List.length_append]
        exact Nat.le_antisymm hlt hn
      exact ⟨path ++ [edge], _, .snoc trail known new node, hlength⟩
    · exact ih hle

end Trail

/-! ### Witnesses of trails -/

/-- The witness of a path from a node. -/
structure IsWitness (E : Executor) (source : String) (path : List EdgeRecord) (witness : Witness) :
    Prop where
  nodeIds : witness.nodeIds = source :: path.map E.leadsTo
  edgeIds : witness.edgeIds = path.map EdgeRecord.id
  usedEdges : ∀ id, id ∈ witness.usedEdges ↔ id ∈ path.map EdgeRecord.id
  siteIds : ∀ id, id ∈ witness.siteIds ↔ ∃ edge ∈ path, edge.siteId = some id ∧ id ∈ E.sites
  existentialBits : ∀ i, witness.existentialBits.testBit i =
    E.somePredicates[i]?.any fun predicate => path.any (E.meets predicate)

section IsWitness

variable {source : String} {path path' : List EdgeRecord} {witness witness' : Witness}

theorem IsWitness.start : E.IsWitness source [] ⟨[source], [], ∅, ∅, 0⟩ where
  nodeIds := rfl
  edgeIds := rfl
  usedEdges id := by simp
  siteIds id := by simp
  existentialBits i := by cases E.somePredicates[i]? <;> simp

theorem IsWitness.length (h : E.IsWitness source path witness) :
    witness.edgeIds.length = path.length := by
  rw [h.edgeIds, List.length_map]

theorem IsWitness.lastNode (h : E.IsWitness source path witness) {node : String}
    (htrail : E.Trail source path node) : witness.lastNode = node := by
  rw [Witness.lastNode, h.nodeIds, htrail.getLast?]
  rfl

/-- Two paths with the same edges have the same sites. -/
theorem IsWitness.siteIds_eq (h : E.IsWitness source path witness)
    (h' : E.IsWitness source path' witness') (hmem : ∀ edge, edge ∈ path ↔ edge ∈ path') :
    witness.siteIds = witness'.siteIds := by
  refine ExtTreeSet.ext_mem fun id => ?_
  rw [h.siteIds, h'.siteIds]
  simp only [hmem]

/-- Two paths with the same edges have the same bits. -/
theorem IsWitness.existentialBits_eq (h : E.IsWitness source path witness)
    (h' : E.IsWitness source path' witness') (hmem : ∀ edge, edge ∈ path ↔ edge ∈ path') :
    witness.existentialBits = witness'.existentialBits := by
  refine Nat.eq_of_testBit_eq fun i => ?_
  rw [h.existentialBits, h'.existentialBits]
  congr 1
  funext predicate
  exact Bool.eq_iff_iff.2 (by simp only [List.any_eq_true, hmem])

/-- Two paths with the same edges use the same ones. -/
theorem IsWitness.usedEdges_eq (h : E.IsWitness source path witness)
    (h' : E.IsWitness source path' witness') (hmem : ∀ edge, edge ∈ path ↔ edge ∈ path') :
    witness.usedEdges = witness'.usedEdges := by
  refine ExtTreeSet.ext_mem fun id => ?_
  rw [h.usedEdges, h'.usedEdges, List.mem_map, List.mem_map]
  simp only [hmem]

/-- A path has one witness. -/
theorem IsWitness.unique (h : E.IsWitness source path witness)
    (h' : E.IsWitness source path witness') : witness = witness' := by
  have hnodes := h.nodeIds.trans h'.nodeIds.symm
  have hedges := h.edgeIds.trans h'.edgeIds.symm
  have hused := h.usedEdges_eq h' fun _ => Iff.rfl
  have hsites := h.siteIds_eq h' fun _ => Iff.rfl
  have hbits := h.existentialBits_eq h' fun _ => Iff.rfl
  cases witness
  cases witness'
  subst hnodes hedges hused hsites hbits
  rfl

/-- Trails to one node with the same edges are in one state. -/
theorem IsWitness.key_eq (h : E.IsWitness source path witness)
    (h' : E.IsWitness source path' witness') {node : String} (htrail : E.Trail source path node)
    (htrail' : E.Trail source path' node) (hlength : path.length = path'.length)
    (hmem : ∀ edge, edge ∈ path ↔ edge ∈ path') :
    StateKey.fromWitness witness = StateKey.fromWitness witness' := by
  rw [StateKey.fromWitness, StateKey.fromWitness, h.lastNode htrail, h'.lastNode htrail', h.length,
    h'.length, hlength, h.existentialBits_eq h' hmem, h.usedEdges_eq h' hmem]

/-- Trails in one state lead to one node, with the same edges. -/
theorem IsWitness.of_key_eq (h : E.IsWitness source path witness)
    (h' : E.IsWitness source path' witness') {node node' : String}
    (htrail : E.Trail source path node) (htrail' : E.Trail source path' node')
    (hkey : StateKey.fromWitness witness = StateKey.fromWitness witness') :
    node = node' ∧ path.length = path'.length ∧ ∀ edge, edge ∈ path ↔ edge ∈ path' := by
  rw [StateKey.fromWitness, StateKey.fromWitness, h.lastNode htrail, h'.lastNode htrail', h.length,
    h'.length] at hkey
  obtain ⟨hnode, hlength, -, hused⟩ := StateKey.mk.inj hkey
  refine ⟨hnode, hlength, htrail.mem_iff htrail' fun id => ?_⟩
  rw [← h.usedEdges, ← h'.usedEdges, ← ExtTreeSet.mem_toList, hused, ExtTreeSet.mem_toList]

end IsWitness

/-! ### Extending a witness -/

variable (E)

/-- The bits with those of the predicates that are met. -/
def withBits (site : Option SiteRecord) (evidence : List EvidenceRecord) :
    Nat → Nat → List TypedQuantifierPredicate → Nat
  | _, bits, [] => bits
  | index, bits, predicate :: predicates =>
    withBits site evidence (index + 1)
      (if bits.testBit (index % 64) then bits
      else if E.brings site evidence predicate then bits ||| 2 ^ (index % 64) else bits) predicates

/-- The witness with one more edge. -/
def extended (witness : Witness) (edge : EdgeRecord) : Witness :=
  let site := E.newSite witness.siteIds edge
  { nodeIds := witness.nodeIds ++ [E.leadsTo edge]
    edgeIds := witness.edgeIds ++ [edge.id]
    usedEdges := witness.usedEdges.insert edge.id
    siteIds := site.elim witness.siteIds fun site => witness.siteIds.insert site.id
    existentialBits := E.withBits site (E.evidenceWith edge site) 0 witness.existentialBits
      E.somePredicates }

variable {E}

theorem ensures_anyEvidence (expression : TypedEntityExpression) (evidence : List EvidenceRecord) :
    Ensures (E.anyEvidence expression evidence) (· = evidence.any fun evidence =>
      evaluateEntityExpression E.floatText (.evidence evidence) expression) := by
  induction evidence with
  | nil => exact .pure rfl
  | cons item rest ih =>
    rw [anyEvidence, List.any_cons]
    refine .after fun _ => .ite (fun hitem => .pure ?_) fun hitem => ih.mono fun matched h => ?_
    · rw [hitem, Bool.true_or]
    · rw [h, Bool.eq_false_iff.2 hitem, Bool.false_or]

theorem ensures_matchPredicate (site : Option SiteRecord) (evidence : List EvidenceRecord)
    (predicate : TypedQuantifierPredicate) :
    Ensures (E.matchPredicate site evidence predicate) (· = E.brings site evidence predicate) := by
  unfold matchPredicate brings
  cases predicate.binding.entityType with
  | site =>
    cases site with
    | none => exact .pure rfl
    | some site => exact .after fun _ => .pure rfl
  | evidence => exact ensures_anyEvidence _ _
  | node => exact .pure rfl
  | path => exact .pure rfl
  | edge => exact .pure rfl

theorem ensures_matchPredicates (site : Option SiteRecord) (evidence : List EvidenceRecord)
    (index bits : Nat) (predicates : List TypedQuantifierPredicate) :
    Ensures (E.matchPredicates site evidence index bits predicates)
      (· = E.withBits site evidence index bits predicates) := by
  induction predicates generalizing index bits with
  | nil => exact .pure rfl
  | cons predicate predicates ih =>
    rw [matchPredicates, withBits]
    refine .ite (fun hbit => ?_) fun hbit => ?_
    · rw [if_pos hbit]
      exact ih _ _
    · rw [if_neg hbit]
      refine (ensures_matchPredicate site evidence predicate).bind fun matched hmatched => ?_
      rw [hmatched]
      exact ih _ _

theorem ensures_extendWitness (witness : Witness) (edge : EdgeRecord) :
    Ensures (E.extendWitness witness edge (E.leadsTo edge)) (· = E.extended witness edge) := by
  refine (ensures_matchPredicates _ _ _ _ _).bind fun bits hbits => .pure ?_
  rw [hbits]
  rfl

/-- A bit is set from before, or as its predicate is met. -/
theorem testBit_withBits (site : Option SiteRecord) (evidence : List EvidenceRecord)
    (index bits : Nat) (predicates : List TypedQuantifierPredicate)
    (hfew : index + predicates.length ≤ 64) (i : Nat) :
    (E.withBits site evidence index bits predicates).testBit i = (bits.testBit i ||
      decide (index ≤ i) && predicates[i - index]?.any (E.brings site evidence)) := by
  induction predicates generalizing index bits with
  | nil => simp [withBits]
  | cons predicate predicates ih =>
    rw [List.length_cons] at hfew
    rw [withBits, ih _ _ (by omega), Nat.mod_eq_of_lt (by omega)]
    rcases Nat.lt_trichotomy i index with hlt | rfl | hlt
    · have hne : index ≠ i := by omega
      rw [decide_eq_false (by omega), decide_eq_false (by omega), Bool.false_and, Bool.false_and]
      split_ifs <;> simp [Nat.testBit_or, hne]
    · rw [decide_eq_false (by omega), Bool.false_and, Bool.or_false, decide_eq_true (Nat.le_refl i),
        Bool.true_and, Nat.sub_self, List.getElem?_cons_zero, Option.any_some]
      split_ifs with hbit hbrings <;> simp_all [Nat.testBit_or]
    · have hne : index ≠ i := by omega
      rw [decide_eq_true (by omega), decide_eq_true (by omega), Bool.true_and, Bool.true_and,
        show i - index = i - (index + 1) + 1 by omega, List.getElem?_cons_succ]
      split_ifs <;> simp [Nat.testBit_or, hne]

/-- What an edge brings, of itself or by its site. -/
theorem brings_evidenceWith (site : Option SiteRecord) (edge : EdgeRecord)
    (predicate : TypedQuantifierPredicate) :
    E.brings site (E.evidenceWith edge site) predicate =
      (E.brings none (E.evidenceWith edge none) predicate ||
        site.any fun site =>
          E.brings (some site) (E.evidenceOf "site" site.id) predicate) := by
  cases site with
  | none => rw [Option.any_none, Bool.or_false]
  | some site =>
    unfold brings evidenceWith
    cases predicate.binding.entityType with
    | evidence => simp only [Option.elim, List.append_nil, List.any_append, Option.any_some]
    | site => rfl
    | node => rfl
    | path => rfl
    | edge => rfl

/-- The site of an edge that the witness has not met yet, or one that it has. -/
theorem newSite_cases (siteIds : ExtTreeSet String) (edge : EdgeRecord) :
    E.newSite siteIds edge = E.siteOf edge ∨
      E.newSite siteIds edge = none ∧ ∃ id ∈ siteIds, edge.siteId = some id := by
  unfold newSite siteOf
  cases hid : edge.siteId with
  | none => exact .inl rfl
  | some id =>
    by_cases hmem : id ∈ siteIds
    · exact .inr ⟨if_pos hmem, id, hmem, rfl⟩
    · exact .inl (if_neg hmem)

/-- The witness of a trail with one more edge. -/
theorem IsWitness.extended (hE : E.WellFormed) {source : String} {path : List EdgeRecord}
    {witness : Witness} (h : E.IsWitness source path witness) (edge : EdgeRecord) :
    E.IsWitness source (path ++ [edge]) (E.extended witness edge) where
  nodeIds := by
    rw [Executor.extended, h.nodeIds, List.map_append]
    rfl
  edgeIds := by
    rw [Executor.extended, h.edgeIds, List.map_append]
    rfl
  usedEdges id := by
    rw [Executor.extended, OrderedMap.mem_insert, h.usedEdges, List.map_append, List.mem_append,
      or_comm, List.map_singleton, List.mem_singleton]
  siteIds id := by
    have hsplit : (∃ e ∈ path ++ [edge], e.siteId = some id ∧ id ∈ E.sites) ↔
        id ∈ witness.siteIds ∨ edge.siteId = some id ∧ id ∈ E.sites := by
      simp only [h.siteIds, List.mem_append, List.mem_singleton, or_and_right, exists_or,
        exists_eq_left]
    rw [hsplit, Executor.extended]
    rcases E.newSite_cases witness.siteIds edge with hnew | ⟨hnew, known, hknown, hid⟩
    · rw [hnew]
      cases hid : edge.siteId with
      | none => simp [siteOf, hid]
      | some known =>
        rw [siteOf, hid, Option.bind_some]
        cases hsite : E.sites[known]? with
        | none =>
          simp only [Option.elim, Option.some.injEq]
          refine ⟨.inl, fun hid => hid.resolve_right ?_⟩
          rintro ⟨rfl, hmem⟩
          exact not_mem_iff.2 hsite hmem
        | some site =>
          simp only [Option.elim, Option.some.injEq, OrderedMap.mem_insert, hE.sites _ _ hsite]
          rw [or_comm]
          exact or_congr Iff.rfl ⟨fun hid => ⟨hid.symm, hid ▸ mem_iff.2 ⟨site, hsite⟩⟩,
            fun hid => hid.1.symm⟩
    -- the site is known, so it is among those of the path already
    · rw [hnew, hid]
      refine ⟨.inl, ?_⟩
      rintro (hmem | ⟨hsome, -⟩)
      · exact hmem
      · exact Option.some.inj hsome ▸ hknown
  existentialBits i := by
    rw [Executor.extended, testBit_withBits _ _ _ _ _ (by rw [Nat.zero_add]; exact hE.few),
      h.existentialBits, Nat.sub_zero, decide_eq_true (Nat.zero_le i), Bool.true_and]
    cases E.somePredicates[i]? with
    | none => rfl
    | some predicate =>
      rw [Option.any_some, Option.any_some, Option.any_some, List.any_append, List.any_cons,
        List.any_nil, Bool.or_false, meets]
      rcases E.newSite_cases witness.siteIds edge with hnew | ⟨hnew, known, hknown, hid⟩
      · rw [hnew]
      -- what the known site brings, it has brought to an earlier edge
      · obtain ⟨earlier, hearlier, hid', -⟩ := (h.siteIds known).1 hknown
        have hsite : E.siteOf edge = E.siteOf earlier := by rw [siteOf, siteOf, hid, hid']
        have hmeets : ((E.siteOf edge).any fun site =>
            E.brings (some site) (E.evidenceOf "site" site.id) predicate) = true →
            path.any (E.meets predicate) = true := by
          intro hbrings
          refine List.any_eq_true.2 ⟨earlier, hearlier, ?_⟩
          rw [meets, brings_evidenceWith, ← hsite, hbrings, Bool.or_true]
        rw [hnew, brings_evidenceWith (E.siteOf edge)]
        cases hany : path.any (E.meets predicate) with
        | true => rw [Bool.true_or, Bool.true_or]
        | false =>
          rw [hany, Bool.false_eq_true, imp_false, Bool.not_eq_true] at hmeets
          rw [hmeets, Bool.or_false]

theorem Trail.exists_witness (hE : E.WellFormed) {source : String} {path : List EdgeRecord}
    {node : String} (h : E.Trail source path node) : ∃ witness, E.IsWitness source path witness := by
  induction h with
  | start => exact ⟨_, .start⟩
  | snoc _ _ _ _ ih =>
    obtain ⟨witness, hwitness⟩ := ih
    exact ⟨_, hwitness.extended hE _⟩

/-! ### Expressions on a witness -/

section Evaluate

variable {source target : NodeRecord} {path : List EdgeRecord} {witness : Witness}

/-- The bits from an index on are those of the predicates. -/
def BitsFrom (E : Executor) (path : List EdgeRecord) (witness : Witness) (index : Nat)
    (predicates : List TypedQuantifierPredicate) : Prop :=
  ∀ i predicate, predicates[i]? = some predicate →
    witness.existentialBits.testBit ((index + i) % 64) = path.any (E.meets predicate)

theorem BitsFrom.left {index : Nat} {predicates predicates' : List TypedQuantifierPredicate}
    (h : E.BitsFrom path witness index (predicates ++ predicates')) :
    E.BitsFrom path witness index predicates := fun i predicate hi =>
  h i predicate (by rw [List.getElem?_append_left (List.getElem?_eq_some_iff.1 hi).1, hi])

theorem BitsFrom.right {index : Nat} {predicates predicates' : List TypedQuantifierPredicate}
    (h : E.BitsFrom path witness index (predicates ++ predicates')) :
    E.BitsFrom path witness (index + predicates.length) predicates' := fun i predicate hi => by
  rw [Nat.add_assoc]
  refine h _ predicate ?_
  rw [List.getElem?_append_right (Nat.le_add_right _ _), Nat.add_sub_cancel_left, hi]

/-- An expression, on a witness with the bits of its predicates. -/
theorem evaluateExpression_eq (hedges : ∀ edge ∈ path, E.edges[edge.id]? = some edge)
    (h : E.IsWitness source.id path witness) (expression : TypedExpression) (index : Nat)
    (hbits : E.BitsFrom path witness index (collectSomePredicates expression)) :
    E.evaluateExpression source target witness index expression =
      (E.holds source target path expression,
        index + (collectSomePredicates expression).length) := by
  induction expression using TypedExpression.ind generalizing index with
  | or terms ih =>
    suffices ∀ matched, E.evaluateOr source target witness index matched terms =
        (matched || E.anyHolds source target path terms,
          index + (collectFromTerms terms).length) by
      rw [evaluateExpression, holds, collectSomePredicates, this, Bool.false_or]
    rw [collectSomePredicates] at hbits
    induction terms generalizing index with
    | nil => simp [evaluateOr, anyHolds, collectFromTerms]
    | cons term terms ihs =>
      intro matched
      rw [collectFromTerms] at hbits
      rw [evaluateOr, ih term List.mem_cons_self index hbits.left]
      dsimp only
      rw [ihs (fun term hterm => ih term (List.mem_cons_of_mem _ hterm)) _ hbits.right, anyHolds,
        collectFromTerms, List.length_append, Bool.or_assoc, Nat.add_assoc]
  | and terms ih =>
    suffices ∀ matched, E.evaluateAnd source target witness index matched terms =
        (matched && E.allHold source target path terms,
          index + (collectFromTerms terms).length) by
      rw [evaluateExpression, holds, collectSomePredicates, this, Bool.true_and]
    rw [collectSomePredicates] at hbits
    induction terms generalizing index with
    | nil => simp [evaluateAnd, allHold, collectFromTerms]
    | cons term terms ihs =>
      intro matched
      rw [collectFromTerms] at hbits
      rw [evaluateAnd, ih term List.mem_cons_self index hbits.left]
      dsimp only
      rw [ihs (fun term hterm => ih term (List.mem_cons_of_mem _ hterm)) _ hbits.right, allHold,
        collectFromTerms, List.length_append, Bool.and_assoc, Nat.add_assoc]
  | not inner ih =>
    rw [collectSomePredicates] at hbits
    rw [evaluateExpression, ih index hbits, holds, collectSomePredicates]
  | scalar predicate =>
    rw [evaluateExpression, holds, evaluateTopScalar, scalarHolds, h.length]
    rfl
  | quantifier predicate =>
    rw [evaluateExpression, holds]
    rw [collectSomePredicates] at hbits ⊢
    have hbit (hsome : predicate.isSome = true) :
        witness.existentialBits.testBit (index % 64) = path.any (E.meets predicate) := by
      rw [if_pos hsome] at hbits
      exact hbits 0 predicate rfl
    unfold TypedQuantifierPredicate.isSome at hbit ⊢
    cases hentity : predicate.binding.entityType with
    | edge =>
      have hall : E.everyEdge witness predicate.expression = path.all fun edge =>
          evaluateEntityExpression E.floatText (.edge edge) predicate.expression := by
        rw [everyEdge, h.edgeIds, List.all_map, Bool.eq_iff_iff, List.all_eq_true, List.all_eq_true]
        refine forall₂_congr fun edge hedge => ?_
        rw [Function.comp_apply, hedges edge hedge, Option.any_some]
      exact Prod.ext hall rfl
    | site =>
      rw [hentity] at hbit
      exact Prod.ext (hbit rfl) rfl
    | evidence =>
      rw [hentity] at hbit
      exact Prod.ext (hbit rfl) rfl
    | node => rfl
    | path => rfl

/-- **The `where` clause is evaluated to its truth for the trail.** -/
theorem whereMatches_eq (hE : E.WellFormed) {node : String} (htrail : E.Trail source.id path node)
    (h : E.IsWitness source.id path witness) :
    E.whereMatches source target witness = E.whereHolds source target path := by
  unfold whereMatches whereHolds
  cases hclause : E.query.whereClause with
  | none => rfl
  | some expression =>
    have hpredicates : E.somePredicates = collectSomePredicates expression := by
      rw [hE.somePredicates, hclause]
      rfl
    have hbits : E.BitsFrom path witness 0 (collectSomePredicates expression) := by
      intro i predicate hi
      rw [← hpredicates] at hi
      have hlt : i < 64 := (List.getElem?_eq_some_iff.1 hi).1.trans_le hE.few
      rw [Nat.zero_add, Nat.mod_eq_of_lt hlt, h.existentialBits, hi, Option.any_some]
    exact congrArg Prod.fst (evaluateExpression_eq (fun _ => htrail.known) h expression 0 hbits)

end Evaluate

end Executor

end Query
