import Depgraph.Health.Unused
import Depgraph.Protocol.CanonicalValue

/-!
# Grouped build conditions

The states of a Go file are kept for groups of profiles that conditions cannot tell apart: a condition
is evaluated once for a group, and only the profiles whose state is not the default are kept. Here they
are compared with the state of the file under each profile on its own.
-/

namespace Health

open Json Protocol Store SortDedup OrderedMap Std Lookup

variable (L : Libraries)

/-! ### One profile on its own -/

/-- The source text of a build constraint that is not blank. -/
def hasBuildConstraint (node : NodeRecord) : Bool :=
  (stringProperty node "build_constraint").any fun constraint => trimText constraint ≠ ""

/-- The edges that a profile has into the file. -/
def ownEdges (incoming : List EdgeRecord) (profileId : String) : List EdgeRecord :=
  incoming.filter fun edge => edge.profileId = profileId ∧ edge.kind = "contains"

/-- `go_file_condition_state`, the evaluation of one profile. -/
def goFileConditionState (profiles : List ProfileRecord) (node : NodeRecord)
    (incoming : List EdgeRecord) (profileId : String) : GoConditionState :=
  let own := ownEdges incoming profileId
  if own.any fun edge => hasBuildConstraint node && goConditionIsAlways L edge.condition then .unknown
  else if own ≠ [] then
    combineGoConditionStates (own.map fun edge =>
      goConditionState L profiles edge.condition edge.profileId)
  else if hasBuildConstraint node then .unknown
  else .true

/-- The derived decoder of conditions finds members by their names: values that differ in the order of
members decode to equal conditions, or none of them does. -/
def DecodesByName : Prop :=
  ∀ v w : Proper, canonicalValue v.value = canonicalValue w.value →
    Option.Rel (fun c d => c.beq d = true) (L.decodeCondition v) (L.decodeCondition w)

/-! ### Profiles that conditions cannot tell apart -/

/-- Two profiles with one environment, but for the order of members, and the same features. -/
structure Alike (p q : ProfileRecord) : Prop where
  environment : canonicalValue p.environment.value = canonicalValue q.environment.value
  features : ∀ feature, feature ∈ p.features ↔ feature ∈ q.features

theorem profileString_alike {p q : ProfileRecord} (h : Alike p q) (key : String) :
    profileString p key = profileString q key := getStr_of_canonicalValue h.environment key

theorem evaluateGoBuildTag_alike {p q : ProfileRecord} (h : Alike p q) (key : String) :
    evaluateGoBuildTag key p = evaluateGoBuildTag key q := by
  have hfeature (tag : String) : p.features.contains tag = q.features.contains tag := by
    rw [Bool.eq_iff_iff, List.contains_iff_mem, List.contains_iff_mem, h.features]
  simp only [evaluateGoBuildTag, profileString_alike h, hfeature]

/-- A test that equal values pass alike has one result. -/
theorem environmentState_alike {p q : ProfileRecord} (h : Alike p q) (key : String)
    {test test' : Value → Bool}
    (htest : ∀ a b : Proper, canonicalValue a.value = canonicalValue b.value →
      test a.value = test' b.value) :
    environmentState p key test = environmentState q key test' := by
  rw [environmentState, environmentState]
  have hrel := get_rel h.environment key
  generalize p.environment.get key = a at *
  generalize q.environment.get key = b at *
  cases hrel with
  | none => rfl
  | some hvalue => rw [Option.elim_some, Option.elim_some, htest _ _ hvalue]

theorem any_of_beqItems {vs ws : List Value} (h : beqItems vs ws = true)
    (h' : beqItems ws vs = true) {test test' : Value → Bool}
    (htest : ∀ v w : Value, v.beq w = true → w.beq v = true → test v = test' w) :
    vs.any test = ws.any test' := by
  induction vs generalizing ws with
  | nil =>
    cases ws with
    | nil => rfl
    | cons w ws => simp [beqItems] at h
  | cons v vs ih =>
    cases ws with
    | nil => simp [beqItems] at h
    | cons w ws =>
      rw [beqItems, Bool.and_eq_true] at h h'
      rw [List.any_cons, List.any_cons, htest v w h.1 h'.1, ih h.2 h'.2]

/-- **Equal conditions have one state under profiles that are alike.** -/
theorem evaluateGoCondition_alike {p q : ProfileRecord} (h : Alike p q) (depth : Nat)
    (c d : Condition) (hcd : c.beq d = true) (hdc : d.beq c = true) :
    evaluateGoCondition p depth c = evaluateGoCondition q depth d := by
  have heach (cs : List Condition)
      (ih : ∀ c ∈ cs, ∀ depth d, c.beq d = true → d.beq c = true →
        evaluateGoCondition p depth c = evaluateGoCondition q depth d) :
      ∀ (ds : List Condition) (depth : Nat), Condition.beqEach cs ds = true →
        Condition.beqEach ds cs = true →
        evaluateGoConditions p depth cs = evaluateGoConditions q depth ds := by
    induction cs with
    | nil =>
      intro ds depth hcs _
      cases ds with
      | nil => rfl
      | cons => simp [Condition.beqEach] at hcs
    | cons c cs ihcs =>
      intro ds depth hcs hds
      cases ds with
      | nil => simp [Condition.beqEach] at hcs
      | cons d ds =>
        rw [Condition.beqEach, Bool.and_eq_true] at hcs hds
        rw [evaluateGoConditions, evaluateGoConditions, ih c List.mem_cons_self depth d hcs.1 hds.1,
          ihcs (fun c hc => ih c (List.mem_cons_of_mem _ hc)) ds depth hcs.2 hds.2]
  induction c generalizing d depth with
  | all cs ih =>
    cases d with
    | all ds =>
      rw [Condition.beq] at hcd hdc
      rw [evaluateGoCondition, evaluateGoCondition,
        heach cs (fun c hc depth d => ih c hc depth d) ds (depth + 1) hcd hdc]
    | _ => simp [Condition.beq] at hcd
  | any cs ih =>
    cases d with
    | any ds =>
      rw [Condition.beq] at hcd hdc
      rw [evaluateGoCondition, evaluateGoCondition,
        heach cs (fun c hc depth d => ih c hc depth d) ds (depth + 1) hcd hdc]
    | _ => simp [Condition.beq] at hcd
  | not c ih =>
    cases d with
    | not d =>
      rw [Condition.beq] at hcd hdc
      rw [evaluateGoCondition, evaluateGoCondition, ih (depth + 1) d hcd hdc]
    | _ => simp [Condition.beq] at hcd
  | eq k v =>
    cases d with
    | eq l w =>
      rw [Condition.beq, Bool.and_eq_true, beq_iff_eq] at hcd hdc
      obtain ⟨rfl, hvw⟩ := hcd
      rw [evaluateGoCondition, evaluateGoCondition]
      refine if_congr Iff.rfl rfl (environmentState_alike h k fun a b hab => ?_)
      obtain ⟨hforth, hback⟩ := beq_both_of_canonicalValue hab
      exact Bool.eq_iff_iff.2
        ⟨fun hav => b.value.beq_trans _ _ hback (a.value.beq_trans _ _ hav hvw),
          fun hbw => a.value.beq_trans _ _ hforth (b.value.beq_trans _ _ hbw hdc.2)⟩
    | _ => simp [Condition.beq] at hcd
  | isIn k vs =>
    cases d with
    | isIn l ws =>
      rw [Condition.beq, Bool.and_eq_true, beq_iff_eq] at hcd hdc
      obtain ⟨rfl, hvw⟩ := hcd
      rw [evaluateGoCondition, evaluateGoCondition]
      refine if_congr Iff.rfl rfl (environmentState_alike h k fun a b hab => ?_)
      obtain ⟨hforth, hback⟩ := beq_both_of_canonicalValue hab
      refine any_of_beqItems hvw hdc.2 fun v w hvw hwv => Bool.eq_iff_iff.2 ⟨fun hva => ?_, fun hwb => ?_⟩
      · exact w.beq_trans _ _ hwv (v.beq_trans _ _ hva hforth)
      · exact v.beq_trans _ _ hvw (w.beq_trans _ _ hwb hback)
    | _ => simp [Condition.beq] at hcd
  | defined k =>
    cases d with
    | defined l =>
      rw [Condition.beq, beq_iff_eq] at hcd
      subst hcd
      rw [evaluateGoCondition, evaluateGoCondition, evaluateGoBuildTag_alike h]
    | _ => simp [Condition.beq] at hcd

theorem isEmptyObject_of_canonicalValue {v w : Value} (h : canonicalValue v = canonicalValue w) :
    (asObject v).any List.isEmpty = (asObject w).any List.isEmpty := by
  cases v with
  | object ms =>
    cases w with
    | object ns =>
      have hlength := (canonicalMembers_perm h).length_eq
      rw [canonicalMembers_eq_map, canonicalMembers_eq_map, List.length_map, List.length_map] at hlength
      cases ms <;> cases ns <;> first | rfl | cases hlength
    | _ => simp [canonicalValue] at h
  | _ => cases w <;> first | rfl | simp [canonicalValue] at h

theorem parseGoCondition_rel {L : Libraries} (hdecode : DecodesByName L) {v w : Proper}
    (h : canonicalValue v.value = canonicalValue w.value) :
    Option.Rel (fun c d => c.beq d = true) (parseGoCondition L v) (parseGoCondition L w) := by
  rw [parseGoCondition, parseGoCondition, isEmptyObject_of_canonicalValue h]
  split
  · exact .some rfl
  · exact hdecode v w h

theorem alike_of_key {L : Libraries} {p q : ProfileRecord}
    (h : goConditionKey L (some p) = goConditionKey L (some q)) : Alike p q := by
  have hparts := (Prod.mk.inj (toLex_inj.1 (Prod.mk.inj (toLex_inj.1 h)).2))
  refine ⟨canonicalValue_of_canonicalJson hparts.1, fun feature => ?_⟩
  rw [← mem_exact Function.injective_id (l := p.features), hparts.2, mem_exact Function.injective_id]

/-- **Profiles of one group and conditions with one canonical text have one state.** -/
theorem goConditionState_congr {L : Libraries} (hdecode : DecodesByName L)
    {profiles : List ProfileRecord} {p q : String}
    (hkey : goConditionKey L (profileById profiles p) = goConditionKey L (profileById profiles q))
    {v w : Proper}
    (htext : canonicalJson L.floatText v.value = canonicalJson L.floatText w.value) :
    goConditionState L profiles v p = goConditionState L profiles w q := by
  have hvalue := canonicalValue_of_canonicalJson htext
  have hforth := parseGoCondition_rel hdecode hvalue
  have hback := parseGoCondition_rel hdecode hvalue.symm
  rw [goConditionState, goConditionState]
  cases hp : profileById profiles p with
  | none =>
    cases hq : profileById profiles q with
    | none => rfl
    | some q =>
      rw [hp, hq] at hkey
      cases (Prod.mk.inj (toLex_inj.1 hkey)).1
  | some p =>
    cases hq : profileById profiles q with
    | none =>
      rw [hp, hq] at hkey
      cases (Prod.mk.inj (toLex_inj.1 hkey)).1
    | some q =>
      rw [hp, hq] at hkey
      generalize parseGoCondition L v = c at *
      generalize parseGoCondition L w = d at *
      cases hforth with
      | none => rfl
      | some hcd =>
        cases hback with
        | some hdc => exact evaluateGoCondition_alike (alike_of_key hkey) 0 _ _ hcd hdc

/-! ### Groups -/

section Groups

variable (profiles : List ProfileRecord) (goProfileIds : List String)

/-- What conditions inspect of a profile. -/
def keyOf (profileId : String) : GoConditionKey := goConditionKey L (profileById profiles profileId)

/-- The profiles that conditions cannot tell from a profile. -/
def groupOf (profileId : String) : List String :=
  goProfileIds.filter fun other => decide (keyOf L profiles other = keyOf L profiles profileId)

variable {L profiles goProfileIds}

theorem mem_groupOf {p q : String} : q ∈ groupOf L profiles goProfileIds p ↔
    q ∈ goProfileIds ∧ keyOf L profiles q = keyOf L profiles p := by
  rw [groupOf, List.mem_filter, decide_eq_true_eq]

theorem mem_goConditionGroups {members : List String} :
    members ∈ goConditionGroups L profiles goProfileIds ↔
      ∃ p ∈ goProfileIds, members = groupOf L profiles goProfileIds p := by
  rw [goConditionGroups, mem_values]
  constructor
  · rintro ⟨k, hk⟩
    rw [getElem?_groupBy, inhabitedList_eq_some] at hk
    obtain ⟨rfl, hne⟩ := hk
    obtain ⟨p, hp⟩ := List.exists_mem_of_ne_nil _ hne
    obtain ⟨hmem, hkey⟩ := List.mem_filter.1 hp
    refine ⟨p, hmem, List.filter_congr fun q _ => ?_⟩
    have hpk : keyOf L profiles p = k := Option.some.inj (of_decide_eq_true hkey)
    rw [hpk]
    exact decide_eq_decide.2 Option.some_inj
  · rintro ⟨p, hp, rfl⟩
    refine ⟨keyOf L profiles p, ?_⟩
    rw [getElem?_groupBy, inhabitedList_eq_some]
    refine ⟨List.filter_congr fun q _ => ?_, List.ne_nil_of_mem (List.mem_filter.2 ⟨hp, ?_⟩)⟩
    · exact decide_eq_decide.2 Option.some_inj.symm
    · exact decide_eq_true rfl

/-- A profile is in one group. -/
theorem eq_groupOf {members : List String} (h : members ∈ goConditionGroups L profiles goProfileIds)
    {p : String} (hp : p ∈ members) : members = groupOf L profiles goProfileIds p := by
  obtain ⟨q, -, rfl⟩ := mem_goConditionGroups.1 h
  have hkey := (mem_groupOf.1 hp).2
  exact List.filter_congr fun other _ => by rw [hkey]

theorem representativeOf_eq {p : String} (hp : p ∈ goProfileIds) :
    representativeOf (goConditionGroups L profiles goProfileIds) p =
      (groupOf L profiles goProfileIds p).head? := by
  have hself : p ∈ groupOf L profiles goProfileIds p := mem_groupOf.2 ⟨hp, rfl⟩
  rw [representativeOf]
  cases hfind : (goConditionGroups L profiles goProfileIds).find? fun members =>
      members.contains p with
  | none =>
    have hnot := List.find?_eq_none.1 hfind _ (mem_goConditionGroups.2 ⟨p, hp, rfl⟩)
    exact absurd (List.contains_iff_mem.2 hself) hnot
  | some members =>
    have hmem := List.mem_of_find?_eq_some hfind
    have hfound := List.find?_some hfind
    have hcontains := List.contains_iff_mem.1 hfound
    rw [eq_groupOf hmem hcontains]
    rfl

theorem membersOf_eq {p representative : String} (hp : p ∈ goProfileIds)
    (hhead : (groupOf L profiles goProfileIds p).head? = some representative) :
    membersOf (goConditionGroups L profiles goProfileIds) representative =
      some (groupOf L profiles goProfileIds p) := by
  rw [membersOf]
  cases hfind : (goConditionGroups L profiles goProfileIds).find? fun members =>
      decide (members.head? = some representative) with
  | none =>
    have hnot := List.find?_eq_none.1 hfind _ (mem_goConditionGroups.2 ⟨p, hp, rfl⟩)
    exact absurd (decide_eq_true hhead) hnot
  | some members =>
    have hmem := List.mem_of_find?_eq_some hfind
    have hfound := List.find?_some hfind
    have hmembers := List.mem_of_head? (of_decide_eq_true hfound)
    have hrepresentative := mem_groupOf.1 (List.mem_of_head? hhead)
    rw [eq_groupOf hmem hmembers]
    exact congrArg some (List.filter_congr fun other _ => by rw [hrepresentative.2])

/-- Profiles with one representative are of one group. -/
theorem keyOf_of_representative {p q representative : String}
    (hp : representativeOf (goConditionGroups L profiles goProfileIds) p = some representative)
    (hq : representativeOf (goConditionGroups L profiles goProfileIds) q = some representative) :
    keyOf L profiles p = keyOf L profiles q := by
  have hgroup {p : String}
      (h : representativeOf (goConditionGroups L profiles goProfileIds) p = some representative) :
      keyOf L profiles representative = keyOf L profiles p := by
    obtain ⟨members, hfind, hhead⟩ := Option.bind_eq_some_iff.1 h
    have hmem := List.mem_of_find?_eq_some hfind
    have hfound := List.find?_some hfind
    have hcontains := List.contains_iff_mem.1 hfound
    have hrepresentative := List.mem_of_head? hhead
    rw [eq_groupOf hmem hcontains] at hrepresentative
    exact (mem_groupOf.1 hrepresentative).2
  exact (hgroup hp).symm.trans (hgroup hq)

theorem mem_of_representative {p representative : String}
    (h : representativeOf (goConditionGroups L profiles goProfileIds) p = some representative) :
    p ∈ goProfileIds := by
  obtain ⟨members, hfind, -⟩ := Option.bind_eq_some_iff.1 h
  have hfound := List.find?_some hfind
  have hcontains := List.contains_iff_mem.1 hfound
  obtain ⟨q, -, rfl⟩ := mem_goConditionGroups.1 (List.mem_of_find?_eq_some hfind)
  exact (mem_groupOf.1 hcontains).1

/-! ### The loop over the incoming edges -/

/-- An edge that the loop looks at. -/
def isConditionEdge (groups : List (List String)) (edge : EdgeRecord) : Bool :=
  decide (edge.kind = "contains") && (representativeOf groups edge.profileId).isSome

/-- What is kept of an edge when nothing is shared. -/
def edgeState (L : Libraries) (profiles : List ProfileRecord) (constrained : Bool)
    (edge : EdgeRecord) : String × GoConditionState × Bool :=
  (edge.profileId, goConditionState L profiles edge.condition edge.profileId,
    constrained && goConditionIsAlways L edge.condition)

/-- What the loop has kept of the edges: the states of each, and in the cache only states of a profile of
the group under a condition with the text. -/
structure Evaluated (L : Libraries) (profiles : List ProfileRecord) (groups : List (List String))
    (constrained : Bool) (edges : List EdgeRecord) (found : ConditionStates) : Prop where
  states : found.states = (edges.filter (isConditionEdge groups)).map
    (edgeState L profiles constrained)
  cache : ∀ entry ∈ found.cache, ∃ profileId condition,
    representativeOf groups profileId = some entry.1.1 ∧
    canonicalJson L.floatText condition.value = entry.1.2 ∧
    entry.2 = goConditionState L profiles condition profileId

/-- A turn of the loop keeps what the edge says on its own. -/
theorem Evaluated.step (hdecode : DecodesByName L) {constrained : Bool} {edges : List EdgeRecord}
    {found : ConditionStates}
    (h : Evaluated L profiles (goConditionGroups L profiles goProfileIds) constrained edges found)
    (edge : EdgeRecord) :
    Evaluated L profiles (goConditionGroups L profiles goProfileIds) constrained (edges ++ [edge])
      (found.add L profiles (goConditionGroups L profiles goProfileIds) constrained edge) := by
  have hskip (hnot : isConditionEdge (goConditionGroups L profiles goProfileIds) edge = false) :
      (edges ++ [edge]).filter (isConditionEdge (goConditionGroups L profiles goProfileIds)) =
        edges.filter (isConditionEdge (goConditionGroups L profiles goProfileIds)) := by
    rw [List.filter_append, List.filter_singleton, hnot]
    exact List.append_nil _
  rw [ConditionStates.add]
  by_cases hkind : edge.kind ≠ "contains"
  · have hnot : isConditionEdge (goConditionGroups L profiles goProfileIds) edge = false := by
      rw [isConditionEdge, decide_eq_false hkind, Bool.false_and]
    rw [if_pos hkind]
    exact ⟨by rw [hskip hnot, h.states], h.cache⟩
  rw [if_neg hkind]
  cases hrepresentative : representativeOf (goConditionGroups L profiles goProfileIds)
      edge.profileId with
  | none =>
    have hnot : isConditionEdge (goConditionGroups L profiles goProfileIds) edge = false := by
      rw [isConditionEdge, hrepresentative, Option.isSome_none, Bool.and_false]
    exact ⟨by rw [hskip hnot, h.states], h.cache⟩
  | some representative =>
    have htaken : isConditionEdge (goConditionGroups L profiles goProfileIds) edge = true := by
      rw [isConditionEdge, hrepresentative, decide_eq_true (not_not.1 hkind)]
      rfl
    have hstates {state : GoConditionState}
        (hstate : state = goConditionState L profiles edge.condition edge.profileId) :
        found.states ++ [(edge.profileId, state,
            constrained && goConditionIsAlways L edge.condition)] =
          ((edges ++ [edge]).filter
            (isConditionEdge (goConditionGroups L profiles goProfileIds))).map
            (edgeState L profiles constrained) := by
      rw [List.filter_append, List.filter_singleton, htaken, List.map_append, h.states, hstate]
      rfl
    dsimp only
    cases hfind : found.cache.find? fun entry =>
        decide (entry.1 = (representative, canonicalJson L.floatText edge.condition.value)) with
    | some entry =>
      -- the state was kept for a profile of the same group under a condition with the same text
      have hfound := List.find?_some hfind
      have hentry := of_decide_eq_true hfound
      obtain ⟨profileId, condition, hgroup, htext, hstate⟩ :=
        h.cache entry (List.mem_of_find?_eq_some hfind)
      rw [hentry] at hgroup htext
      refine ⟨hstates ?_, h.cache⟩
      rw [hstate]
      exact goConditionState_congr hdecode (keyOf_of_representative hgroup hrepresentative) htext
    | none =>
      refine ⟨hstates rfl, fun entry hentry => ?_⟩
      rcases List.mem_append.1 hentry with hentry | hentry
      · exact h.cache entry hentry
      · rw [List.mem_singleton.1 hentry]
        exact ⟨edge.profileId, edge.condition, hrepresentative, rfl, rfl⟩

/-- **Sharing evaluations changes no state.** -/
theorem evaluated_run (hdecode : DecodesByName L) (constrained : Bool) (edges : List EdgeRecord) :
    Evaluated L profiles (goConditionGroups L profiles goProfileIds) constrained edges
      (edges.foldl (ConditionStates.add L profiles (goConditionGroups L profiles goProfileIds)
        constrained) ⟨[], []⟩) := by
  induction edges using List.reverseRecOn with
  | nil => exact ⟨rfl, fun _ hentry => absurd hentry List.not_mem_nil⟩
  | append_singleton edges edge ih =>
    rw [List.foldl_append]
    exact ih.step hdecode edge

/-! ### The exceptions of a group -/

variable {node : NodeRecord} {incoming : List EdgeRecord}

/-- The state of a file that no condition speaks about. -/
def defaultState (node : NodeRecord) : GoConditionState :=
  if hasBuildConstraint node then .unknown else .true

theorem goFileConditionState_default {p : String} (h : ownEdges incoming p = []) :
    goFileConditionState L profiles node incoming p = defaultState node := by
  rw [goFileConditionState, h]
  rfl

theorem representativeOf_isSome {p : String} (hp : p ∈ goProfileIds) :
    (representativeOf (goConditionGroups L profiles goProfileIds) p).isSome = true := by
  have hself : p ∈ groupOf L profiles goProfileIds p := mem_groupOf.2 ⟨hp, rfl⟩
  obtain ⟨first, rest, hgroup⟩ := List.exists_cons_of_ne_nil (List.ne_nil_of_mem hself)
  rw [representativeOf_eq hp, hgroup]
  rfl

/-- The states of a profile are those of its own edges. -/
theorem ownStates {constrained : Bool} {found : ConditionStates}
    (h : Evaluated L profiles (goConditionGroups L profiles goProfileIds) constrained incoming found)
    {p : String} (hp : p ∈ goProfileIds) :
    (found.states.filter fun entry => entry.1 = p) =
      (ownEdges incoming p).map (edgeState L profiles constrained) := by
  rw [h.states, List.filter_map, List.filter_filter, ownEdges]
  refine congrArg _ (List.filter_congr fun edge _ => ?_)
  rw [Function.comp_apply, edgeState, isConditionEdge, Bool.eq_iff_iff]
  simp only [Bool.and_eq_true, decide_eq_true_eq]
  refine ⟨fun hedge => ⟨hedge.1, hedge.2.1⟩, fun hedge => ⟨hedge.1, hedge.2, ?_⟩⟩
  rw [hedge.1]
  exact representativeOf_isSome hp

/-- **What is found for a profile with edges is its state.** -/
theorem profileState_eq {found : ConditionStates}
    (h : Evaluated L profiles (goConditionGroups L profiles goProfileIds) (hasBuildConstraint node)
      incoming found) {p : String} (hp : p ∈ goProfileIds) (hown : ownEdges incoming p ≠ []) :
    profileState found.states p = goFileConditionState L profiles node incoming p := by
  rw [profileState, ownStates h hp, goFileConditionState, if_pos hown, List.any_map, List.map_map]
  rfl

theorem mem_states {constrained : Bool} {found : ConditionStates}
    (h : Evaluated L profiles (goConditionGroups L profiles goProfileIds) constrained incoming found)
    {p : String} : p ∈ found.states.map Prod.fst ↔ p ∈ goProfileIds ∧ ownEdges incoming p ≠ [] := by
  rw [h.states, List.map_map]
  constructor
  · intro hmem
    obtain ⟨edge, hedge, rfl⟩ := List.mem_map.1 hmem
    obtain ⟨hedge, htaken⟩ := List.mem_filter.1 hedge
    rw [isConditionEdge, Bool.and_eq_true, decide_eq_true_eq] at htaken
    obtain ⟨representative, hrepresentative⟩ := Option.isSome_iff_exists.1 htaken.2
    refine ⟨mem_of_representative hrepresentative, List.ne_nil_of_mem (List.mem_filter.2 ⟨hedge, ?_⟩)⟩
    exact decide_eq_true ⟨rfl, htaken.1⟩
  · rintro ⟨hp, hown⟩
    obtain ⟨edge, hedge⟩ := List.exists_mem_of_ne_nil _ hown
    obtain ⟨hmem, hedge⟩ := List.mem_filter.1 hedge
    obtain ⟨rfl, hkind⟩ := of_decide_eq_true hedge
    refine List.mem_map.2 ⟨edge, List.mem_filter.2 ⟨hmem, ?_⟩, rfl⟩
    rw [isConditionEdge, representativeOf_isSome hp, decide_eq_true hkind]
    rfl

/-- The conditions of the file, by groups. -/
def fileConditions (L : Libraries) (profiles : List ProfileRecord) (goProfileIds : List String)
    (node : NodeRecord) (incoming : List EdgeRecord) : GoFileConditions :=
  GoFileConditions.build L profiles (goConditionGroups L profiles goProfileIds)
    (hasBuildConstraint node) incoming

/-- **A group keeps its profiles whose state is not the default.** -/
theorem mem_group (hdecode : DecodesByName L) {p representative : String} (hp : p ∈ goProfileIds)
    (hhead : (groupOf L profiles goProfileIds p).head? = some representative)
    {entry : String × GoConditionState} :
    entry ∈ (fileConditions L profiles goProfileIds node incoming).group
        (goConditionGroups L profiles goProfileIds) representative ↔
      entry.1 ∈ groupOf L profiles goProfileIds p ∧
        goFileConditionState L profiles node incoming entry.1 ≠ defaultState node ∧
        entry.2 = goFileConditionState L profiles node incoming entry.1 := by
  have hrun : Evaluated L profiles (goConditionGroups L profiles goProfileIds)
      (hasBuildConstraint node) incoming _ := evaluated_run hdecode (hasBuildConstraint node) incoming
  have hgroup {q : String} (hq : q ∈ goProfileIds) :
      representativeOf (goConditionGroups L profiles goProfileIds) q = some representative ↔
        q ∈ groupOf L profiles goProfileIds p := by
    constructor
    · intro hrepresentative
      have hsame := (representativeOf_eq hp).trans hhead
      exact mem_groupOf.2 ⟨hq, keyOf_of_representative hrepresentative hsame⟩
    · intro hmem
      have hkey := (mem_groupOf.1 hmem).2
      rw [representativeOf_eq hq, ← hhead]
      exact congrArg List.head? (List.filter_congr fun other _ => by rw [hkey])
  rw [GoFileConditions.group, List.mem_filter, decide_eq_true_eq, fileConditions,
    GoFileConditions.build]
  dsimp only
  rw [List.mem_filter, decide_eq_true_eq, List.mem_map]
  constructor
  · rintro ⟨⟨⟨q, hq, rfl⟩, hstate⟩, hrepresentative⟩
    obtain ⟨hq, hown⟩ := (mem_states hrun).1 ((mem_exact Function.injective_id).1 hq)
    have heq := profileState_eq hrun hq hown
    rw [heq] at hstate
    exact ⟨(hgroup hq).1 hrepresentative, hstate, heq⟩
  · rintro ⟨hmem, hstate, hentry⟩
    have hq := (mem_groupOf.1 hmem).1
    have hown : ownEdges incoming entry.1 ≠ [] := fun hnil =>
      hstate (goFileConditionState_default hnil)
    have heq := profileState_eq hrun hq hown
    refine ⟨⟨⟨entry.1, (mem_exact Function.injective_id).2 ((mem_states hrun).2 ⟨hq, hown⟩), ?_⟩, ?_⟩,
      (hgroup hq).2 hmem⟩
    · rw [heq, ← hentry]
    · rw [hentry]
      exact hstate

theorem exact_id_nodup (ids : List String) : (exact id ids).Nodup := by
  have hstrict : (exact id ids).Pairwise fun a b => id a < id b := exact_strict ids
  exact hstrict.imp fun hlt => hlt.ne

theorem group_nodup {representative : String} :
    (((fileConditions L profiles goProfileIds node incoming).group
      (goConditionGroups L profiles goProfileIds) representative).map Prod.fst).Nodup := by
  rw [GoFileConditions.group, fileConditions, GoFileConditions.build]
  dsimp only
  refine List.Nodup.sublist ((List.filter_sublist.trans List.filter_sublist).map Prod.fst) ?_
  rw [List.map_map]
  exact (List.map_id _).symm ▸ exact_id_nodup _

end Groups

/-! ### Questions about a group -/

/-- The exceptions of a group are the profiles of the group whose state is not the default. -/
structure Keeps (conditions : GoFileConditions) (groups : List (List String))
    (representative : String) (members : List String) (reference : String → GoConditionState) :
    Prop where
  distinct : members.Nodup
  names : ((conditions.group groups representative).map Prod.fst).Nodup
  mem : ∀ entry, entry ∈ conditions.group groups representative ↔ entry.1 ∈ members ∧
    reference entry.1 ≠ conditions.default ∧ entry.2 = reference entry.1

namespace Keeps

variable {conditions : GoFileConditions} {groups : List (List String)} {representative : String}
  {members : List String} {reference : String → GoConditionState}
  (h : Keeps conditions groups representative members reference)

include h

theorem perm : (conditions.group groups representative).Perm
    ((members.filter fun p => decide (reference p ≠ conditions.default)).map
      fun p => (p, reference p)) := by
  refine (List.perm_ext_iff_of_nodup (.of_map _ h.names) ?_).2 fun entry => ?_
  · refine (h.distinct.filter _).map fun p q heq => (Prod.mk.inj heq).1
  · rw [h.mem, List.mem_map]
    constructor
    · rintro ⟨hmem, hstate, hentry⟩
      exact ⟨entry.1, List.mem_filter.2 ⟨hmem, decide_eq_true hstate⟩, Prod.ext rfl hentry.symm⟩
    · rintro ⟨p, hp, rfl⟩
      obtain ⟨hmem, hstate⟩ := List.mem_filter.1 hp
      exact ⟨hmem, of_decide_eq_true hstate, rfl⟩

/-- **The state of a profile of the group.** -/
theorem state_eq {p : String} (hp : p ∈ members) :
    conditions.state groups representative p = reference p := by
  rw [GoFileConditions.state]
  cases hfind : (conditions.group groups representative).find? fun entry => entry.1 = p with
  | some entry =>
    have hfound := List.find?_some hfind
    obtain ⟨-, -, hentry⟩ := (h.mem entry).1 (List.mem_of_find?_eq_some hfind)
    rw [of_decide_eq_true hfound] at hentry
    exact hentry
  | none =>
    have hnot := List.find?_eq_none.1 hfind
    by_contra hstate
    exact hnot (p, reference p) ((h.mem _).2 ⟨hp, Ne.symm hstate, rfl⟩) (decide_eq_true rfl)

theorem exists_exception {wanted : GoConditionState} (hwanted : conditions.default ≠ wanted) :
    0 < conditions.countOf groups representative wanted ↔ ∃ p ∈ members, reference p = wanted := by
  rw [GoFileConditions.countOf, List.countP_pos_iff]
  constructor
  · rintro ⟨entry, hentry, hstate⟩
    obtain ⟨hmem, -, heq⟩ := (h.mem entry).1 hentry
    exact ⟨entry.1, hmem, heq ▸ of_decide_eq_true hstate⟩
  · rintro ⟨p, hp, rfl⟩
    exact ⟨(p, reference p), (h.mem _).2 ⟨hp, Ne.symm hwanted, rfl⟩, decide_eq_true rfl⟩

omit h in
theorem length_group : (conditions.group groups representative).length =
    conditions.countOf groups representative .true +
      conditions.countOf groups representative .unknown +
      conditions.countOf groups representative .false := by
  simp only [GoFileConditions.countOf]
  induction conditions.group groups representative with
  | nil => rfl
  | cons entry rest ih =>
    rw [List.length_cons, List.countP_cons, List.countP_cons, List.countP_cons, ih]
    cases entry.2 <;> simp <;> omega

/-- **Whether some profile of the group has a state.** -/
theorem groupHasState_iff (wanted : GoConditionState) :
    conditions.groupHasState groups representative members.length wanted = true ↔
      ∃ p ∈ members, reference p = wanted := by
  unfold GoFileConditions.groupHasState
  by_cases hdefault : conditions.default = wanted
  · dsimp only
    rw [if_pos hdefault, decide_eq_true_eq, h.perm.length_eq, List.length_map,
      List.length_filter_lt_length_iff_exists]
    simp only [decide_eq_true_eq, not_not, hdefault]
  · dsimp only
    rw [if_neg hdefault]
    cases wanted with
    | true => rw [decide_eq_true_eq, h.exists_exception hdefault]
    | unknown => rw [decide_eq_true_eq, h.exists_exception hdefault]
    | false =>
      rw [decide_eq_true_eq, length_group, Nat.lt_add_right_iff_pos, h.exists_exception hdefault]

/-- The exceptions among the using profiles. -/
theorem length_exceptional {usage : List String} (hnodup : usage.Nodup) (hsubset : usage ⊆ members) :
    ((conditions.group groups representative).filter fun entry => usage.contains entry.1).length =
      (usage.filter fun p => decide (reference p ≠ conditions.default)).length := by
  have hperm : (((conditions.group groups representative).filter fun entry =>
      usage.contains entry.1).map Prod.fst).Perm
      (usage.filter fun p => decide (reference p ≠ conditions.default)) := by
    refine (List.perm_ext_iff_of_nodup (h.names.sublist (List.filter_sublist.map _))
      (hnodup.filter _)).2 fun p => ?_
    rw [List.mem_filter, decide_eq_true_eq, List.mem_map]
    constructor
    · rintro ⟨entry, hentry, rfl⟩
      obtain ⟨hmem, husage⟩ := List.mem_filter.1 hentry
      exact ⟨List.contains_iff_mem.1 husage, ((h.mem entry).1 hmem).2.1⟩
    · rintro ⟨husage, hstate⟩
      refine ⟨(p, reference p), List.mem_filter.2 ⟨(h.mem _).2 ⟨hsubset husage, hstate, rfl⟩, ?_⟩, rfl⟩
      exact List.contains_iff_mem.2 husage
  rw [← hperm.length_eq, List.length_map]

/-- **Whether some of the using profiles is sure to build the file.** -/
theorem hasUsage_iff {usage : List String} (hnodup : usage.Nodup) (hsubset : usage ⊆ members) :
    conditions.hasUsage groups representative usage = true ↔ ∃ p ∈ usage, reference p = .true := by
  unfold GoFileConditions.hasUsage
  dsimp only
  by_cases hempty : usage = []
  · subst hempty
    simp
  rw [if_neg hempty]
  by_cases hgroup : conditions.group groups representative = []
  · have hdefault : ∀ p ∈ usage, reference p = conditions.default := by
      intro p hp
      by_contra hstate
      have hmem := (h.mem (p, reference p)).2 ⟨hsubset hp, hstate, rfl⟩
      rw [hgroup] at hmem
      cases hmem
    obtain ⟨first, hfirst⟩ := List.exists_mem_of_ne_nil _ hempty
    rw [if_pos hgroup, decide_eq_true_eq]
    exact ⟨fun heq => ⟨first, hfirst, (hdefault first hfirst).trans heq⟩,
      fun hused => hused.elim fun p hp => (hdefault p hp.1).symm.trans hp.2⟩
  rw [if_neg hgroup]
  -- the shorter one of the two lists is looked through
  split_ifs with hlength
  · rw [List.any_eq_true]
    refine exists_congr fun p => and_congr_right fun hp => ?_
    rw [decide_eq_true_eq, h.state_eq (hsubset hp)]
  · rw [Bool.or_eq_true, Bool.and_eq_true, decide_eq_true_eq, decide_eq_true_eq,
      h.length_exceptional hnodup hsubset, List.length_filter_lt_length_iff_exists, List.any_eq_true]
    constructor
    · rintro (⟨entry, hentry, hstate⟩ | ⟨hdefault, p, hp, hstate⟩)
      · obtain ⟨hmem, husage⟩ := List.mem_filter.1 hentry
        refine ⟨entry.1, List.contains_iff_mem.1 husage, ?_⟩
        rw [← ((h.mem entry).1 hmem).2.2]
        exact of_decide_eq_true hstate
      · rw [decide_eq_true_eq, not_not] at hstate
        exact ⟨p, hp, hstate.trans hdefault⟩
    · rintro ⟨p, hp, hstate⟩
      by_cases hdefault : reference p = conditions.default
      · exact Or.inr ⟨hdefault.symm.trans hstate, p, hp, by rwa [decide_eq_true_eq, not_not]⟩
      · refine Or.inl ⟨(p, reference p), List.mem_filter.2 ⟨(h.mem _).2 ⟨hsubset hp, hdefault, rfl⟩, ?_⟩,
          decide_eq_true hstate⟩
        exact List.contains_iff_mem.2 hp

/-- **Every profile of the group whose state is unknown is named once.** -/
theorem unknownProfiles_perm : (conditions.unknownProfiles groups representative members).Perm
    (members.filter fun p => decide (reference p = .unknown)) := by
  rw [GoFileConditions.unknownProfiles]
  by_cases hsome : conditions.groupHasState groups representative members.length .unknown = true
  · rw [hsome, if_neg (by decide)]
    by_cases hdefault : conditions.default = .unknown
    · rw [if_pos hdefault]
      refine List.Perm.of_eq (List.filter_congr fun p hp => ?_)
      rw [h.state_eq hp]
    · rw [if_neg hdefault]
      refine ((h.perm.filter _).map _).trans (List.Perm.of_eq ?_)
      rw [List.filter_map, List.map_map, List.filter_filter]
      refine (List.map_id _).trans (List.filter_congr fun p _ => ?_)
      rw [Function.comp_apply, Bool.eq_iff_iff]
      simp only [Bool.and_eq_true, decide_eq_true_eq]
      exact and_iff_left_of_imp fun hstate heq => hdefault (heq.symm.trans hstate)
  · have hnone : members.filter (fun p => decide (reference p = .unknown)) = [] := by
      refine List.filter_eq_nil_iff.2 fun p hp hstate => hsome ?_
      exact (h.groupHasState_iff .unknown).2 ⟨p, hp, of_decide_eq_true hstate⟩
    rw [hnone, Bool.eq_false_iff.2 hsome]
    exact List.Perm.refl _

end Keeps

/-! ### The grouped evaluation of a file -/

/-- Under the group of a profile the grouped evaluation answers as the profiles on their own do. -/
structure GroupedAgrees (L : Libraries) (profiles : List ProfileRecord) (goProfileIds : List String)
    (node : NodeRecord) (incoming : List EdgeRecord) (profileId representative : String)
    (members : List String) : Prop where
  represented : representativeOf (goConditionGroups L profiles goProfileIds) profileId =
    some representative
  group : goProfileGroupMembers (goConditionGroups L profiles goProfileIds) representative = members
  member : profileId ∈ members
  state : (fileConditions L profiles goProfileIds node incoming).state
    (goConditionGroups L profiles goProfileIds) representative profileId =
      goFileConditionState L profiles node incoming profileId
  groupHasState : ∀ wanted, (fileConditions L profiles goProfileIds node incoming).groupHasState
    (goConditionGroups L profiles goProfileIds) representative members.length wanted = true ↔
      ∃ p ∈ members, goFileConditionState L profiles node incoming p = wanted
  hasUsage : ∀ usage : List String, usage.Nodup → usage ⊆ members →
    ((fileConditions L profiles goProfileIds node incoming).hasUsage
      (goConditionGroups L profiles goProfileIds) representative usage = true ↔
        ∃ p ∈ usage, goFileConditionState L profiles node incoming p = .true)
  unknownProfiles : ((fileConditions L profiles goProfileIds node incoming).unknownProfiles
    (goConditionGroups L profiles goProfileIds) representative members).Perm
      (members.filter fun p =>
        decide (goFileConditionState L profiles node incoming p = .unknown))

/-- **Sharing the evaluation of conditions changes no answer.** -/
theorem groupedConditions_agree {L : Libraries} (hdecode : DecodesByName L)
    (profiles : List ProfileRecord) (ids : List String) (node : NodeRecord)
    (incoming : List EdgeRecord) {profileId : String} (hmem : profileId ∈ ids) :
    ∃ representative members, GroupedAgrees L profiles (exact id ids) node incoming profileId
      representative members := by
  have hp : profileId ∈ exact id ids := (mem_exact Function.injective_id).2 hmem
  have hself : profileId ∈ groupOf L profiles (exact id ids) profileId := mem_groupOf.2 ⟨hp, rfl⟩
  obtain ⟨representative, rest, hgroup⟩ := List.exists_cons_of_ne_nil (List.ne_nil_of_mem hself)
  have hhead : (groupOf L profiles (exact id ids) profileId).head? = some representative := by
    rw [hgroup]
    rfl
  have hkeeps : Keeps (fileConditions L profiles (exact id ids) node incoming)
      (goConditionGroups L profiles (exact id ids)) representative
      (groupOf L profiles (exact id ids) profileId)
      (goFileConditionState L profiles node incoming) :=
    ⟨(exact_id_nodup ids).filter _, group_nodup, fun _ => mem_group hdecode hp hhead⟩
  exact ⟨representative, groupOf L profiles (exact id ids) profileId, {
    represented := (representativeOf_eq hp).trans hhead
    group := by rw [goProfileGroupMembers, membersOf_eq hp hhead, Option.getD_some]
    member := hself
    state := hkeeps.state_eq hself
    groupHasState := hkeeps.groupHasState_iff
    hasUsage := fun _ => hkeeps.hasUsage_iff
    unknownProfiles := hkeeps.unknownProfiles_perm }⟩

/-! ### A file for Linux -/

namespace ConditionSample

/-- The decoder on conditions that ask whether a key is defined. -/
def decodeDefined (value : Proper) : Option Condition :=
  match (value.get "op").bind Proper.asStr, (value.get "key").bind Proper.asStr with
  | some op, some key => if op = "defined" then some (.defined key) else none
  | _, _ => none

def zeroBytes : List UInt8 := List.replicate 32 0

theorem zeroBytes_length : zeroBytes.length = 32 := List.length_replicate

def digest : Digest := ⟨zeroBytes, zeroBytes_length⟩

def libraries : Libraries where
  floatText := .plain
  sha256 _ := digest
  decodeCondition := decodeDefined

theorem decodesByName : DecodesByName libraries := by
  intro v w h
  show Option.Rel _ (decodeDefined v) (decodeDefined w)
  rw [decodeDefined, decodeDefined, getStr_of_canonicalValue h, getStr_of_canonicalValue h]
  split
  · split_ifs
    · exact .some (by rw [Condition.beq]; exact beq_self_eq_true _)
    · exact .none
  · exact .none

theorem condition_nodup : ([("op", Proper.string "defined"),
    ("key", Proper.string "go.build_tag:linux")].map Prod.fst).Nodup :=
  (by decide : ["op", "key"].Nodup)

theorem single_nodup (key : String) (value : Proper) : ([(key, value)].map Prod.fst).Nodup :=
  List.nodup_singleton key

def profile (id os : String) : ProfileRecord where
  id := id
  language := "go"
  toolchain := none
  command := none
  target := some id
  features := []
  environment := .object _ (single_nodup "GOOS" (.string os))
  sourceRevision := none
  properties := .null
  coverage := none

def profiles : List ProfileRecord :=
  [profile "linux/amd64" "linux", profile "linux/arm64" "linux", profile "windows" "windows"]

def profileIds : List String := ["linux/amd64", "linux/arm64", "windows"]

def file : NodeRecord where
  id := "file"
  kind := "file"
  locator := "a_linux.go"
  displayName := "a_linux.go"
  properties := .object _ (single_nodup "build_constraint" (.string "linux"))

/-- The package contains the file where the tag `linux` is defined. -/
def edge (id profileId : String) : EdgeRecord where
  id := id
  siteId := none
  source := "package"
  target := "file"
  kind := "contains"
  phase := "build"
  environment := "default"
  profileId := profileId
  resolutionStatus := "resolved"
  precision := "exact"
  condition := .object _ condition_nodup
  generated := false

def incoming : List EdgeRecord :=
  [edge "e1" "linux/amd64", edge "e2" "linux/arm64", edge "e3" "windows"]

/-- The second profile for Linux takes the state that was evaluated for the first one. -/
theorem groupedConditions_agree_linux :
    (∃ representative members, GroupedAgrees libraries profiles (exact id profileIds) file incoming
      "linux/arm64" representative members) ∧
    representativeOf (goConditionGroups libraries profiles (exact id profileIds)) "linux/arm64" =
      some "linux/amd64" ∧
    goProfileGroupMembers (goConditionGroups libraries profiles (exact id profileIds))
      "linux/amd64" = ["linux/amd64", "linux/arm64"] ∧
    profileIds.map (goFileConditionState libraries profiles file incoming) =
      [.true, .true, .false] := by
  refine ⟨groupedConditions_agree decodesByName profiles profileIds file incoming (by decide),
    ?_, ?_, ?_⟩ <;> decide +kernel

end ConditionSample

end Health
