import Depgraph.Protocol.CompactEvidence
import Depgraph.Protocol.DeltaValidator

/-!
# Event streams of the Rust worker

`emit.rs`: a scan result is written to a sink event by event, in the full or in the compact evidence
encoding. Edges that share the evidence of their site get it when they are written; a counter says
when the last of them is.

* `streamEvents_eq`: the events that are written, whichever kind of sink receives them.
-/

namespace Worker

open Json Protocol OrderedMap Std

/-! ### Scan results -/

structure FileCoverage where
  path : String
  discoveredSites : Nat
  emittedSites : Nat
  skipped : Bool
  reason : Option String

/-- `ScanResult`, without the metrics that are not written. -/
structure ScanResult where
  root : String
  profile : Profile
  nodes : List GraphNode
  edges : List GraphEdge
  sites : List DependencySite
  diagnostics : List Diagnostic
  files : List FileCoverage
  coverage : Coverage
  evidencePropertyDefaults : List EvidencePropertyDefaults

inductive EvidenceEncoding where
  | full
  | compact
deriving DecidableEq

/-! ### Sinks -/

/-- How writing ends early: by an error of the sink, or by a panic. -/
inductive EmitError (ε : Type) where
  | sink (error : ε)
  | subtractWithOverflow
  | unreachable

/-- `EventSink`: a sink that takes each event or one that borrows it. What it has received is a state
of its own. -/
inductive EventSink (σ ε : Type) where
  | owned (receive : σ → ProtocolEvent → Except ε σ)
  | borrowed (receive : σ → ProtocolEvent → Except ε σ)

/-- The number of the last event and the state of the sink. -/
structure Emission (σ : Type) where
  seq : Nat
  sink : σ

/-- A part of the writing. -/
abbrev Emit (σ ε : Type) : Type → Type := StateT (Emission σ) (Except (EmitError ε))

/-- What a kind of sink does with an event. -/
def EventSink.receive {σ ε : Type} : EventSink σ ε → σ → ProtocolEvent → Except ε σ
  | .owned receive => receive
  | .borrowed receive => receive

/-- `ADAPTER`. -/
def adapter : String := "rust"

def adapterVersion : String := "0.7.4"

section Stream

variable {σ ε : Type} (F : FloatText) (scanId : String) (sink : EventSink σ ε)

/-- The common fields of the event with a number. -/
def commonFields (seq : Nat) : CommonFields :=
  ⟨protocolVersion, scanId, adapter, adapterVersion, seq⟩

/-- `common`: the common fields of the next event. -/
def common : Emit σ ε CommonFields := fun emission =>
  .ok (commonFields scanId (emission.seq + 1), { emission with seq := emission.seq + 1 })

def send (event : ProtocolEvent) : Emit σ ε Unit := fun emission =>
  match sink.receive emission.sink event with
  | .ok received => .ok ((), { emission with sink := received })
  | .error error => .error (.sink error)

/-- A panic. -/
def panic {α : Type} (error : EmitError ε) : Emit σ ε α := fun _ => .error error

def sendSiteKeepingEvidence (common : CommonFields) (site : DependencySite) :
    Emit σ ε (List Evidence) :=
  match sink with
  | .owned _ => do
    let evidence := site.evidence
    send sink ⟨common, .dependencySite site⟩
    return evidence
  | .borrowed _ => do
    let event : ProtocolEvent := ⟨common, .dependencySite site⟩
    send sink event
    match event.payload with
    | .dependencySite site => return site.evidence
    | _ => panic .unreachable

/-- Sends an event with the next number. -/
def sendPayload (payload : EventPayload) : Emit σ ε Unit := do
  let common ← common scanId
  send sink ⟨common, payload⟩

/-! ### Shared evidence -/

/-- The number of edges that share the evidence of each site. -/
abbrev SharedEdges : Type := ExtTreeMap String Nat

/-- The evidence of the sites, with the number of edges that still share it. -/
abbrev SharedEvidence : Type := ExtTreeMap String (List Evidence × Nat)

/-- Counts an edge. -/
def countSharedEdge (counts : SharedEdges) (edge : GraphEdge) : SharedEdges :=
  match edge.siteId with
  | some siteId =>
    if edge.evidence.isEmpty then counts.insert siteId (counts[siteId]?.getD 0 + 1) else counts
  | none => counts

/-- What the loop over the sites changes. -/
structure SharedState where
  edges : SharedEdges
  evidence : SharedEvidence

/-- The site with its defaults applied. -/
def expandedSite (defaults : List EvidencePropertyDefaults) (site : DependencySite) :
    DependencySite :=
  { site with evidence := (applyEvidencePropertyDefaults F defaults site.evidence).1 }

/-- The edge with its defaults applied. -/
def expandedEdge (defaults : List EvidencePropertyDefaults) (edge : GraphEdge) : GraphEdge :=
  { edge with evidence := (applyEvidencePropertyDefaults F defaults edge.evidence).1 }

/-- The diagnostic with its defaults applied. -/
def expandedDiagnostic (defaults : List EvidencePropertyDefaults) (diagnostic : Diagnostic) :
    Diagnostic :=
  { diagnostic with evidence := (applyEvidencePropertyDefaults F defaults diagnostic.evidence).1 }

/-- A turn of the loop over the sites. -/
def emitSite (defaults : List EvidencePropertyDefaults) (shared : SharedState)
    (site : DependencySite) : Emit σ ε SharedState := do
  let site := expandedSite F defaults site
  match shared.edges[site.id]? with
  | some edgeCount =>
    let common ← common scanId
    let evidence ← sendSiteKeepingEvidence sink common site
    return ⟨shared.edges.erase site.id, shared.evidence.insert site.id (evidence, edgeCount)⟩
  | none =>
    sendPayload scanId sink (.dependencySite site)
    return shared

/-- Gives an edge the evidence it shares; the last one to share it takes it away. -/
def restoreEvidence (shared : SharedEvidence) (edge : GraphEdge) :
    Emit σ ε (SharedEvidence × GraphEdge) :=
  if edge.evidence.isEmpty then
    match edge.siteId with
    | none => return (shared, edge)
    | some siteId =>
      match shared[siteId]? with
      | none => return (shared, edge)
      | some (_, 0) => panic .subtractWithOverflow
      | some (evidence, 1) => return (shared.erase siteId, { edge with evidence })
      | some (evidence, remaining + 2) =>
        return (shared.insert siteId (evidence, remaining + 1), { edge with evidence })
  else return (shared, edge)

/-- A turn of the loop over the edges. -/
def emitEdge (defaults : List EvidencePropertyDefaults) (shared : SharedEvidence)
    (edge : GraphEdge) : Emit σ ε SharedEvidence := do
  let (shared, edge) ← restoreEvidence shared (expandedEdge F defaults edge)
  sendPayload scanId sink (.edgeUpsert edge)
  return shared

/-! ### The stream -/

/-- The profile with the declarations of the compact encoding. -/
def declaringProfile (result : ScanResult) : Profile :=
  let properties := result.profile.properties.insert evidenceEncodingProperty
    (.string compactEvidenceEncodingV1)
  { result.profile with
    properties :=
      if result.evidencePropertyDefaults.isEmpty then properties
      else properties.insert evidencePropertyDefaultsProperty
        (defaultsValue result.evidencePropertyDefaults) }

/-- The profile that is declared. -/
def emittedProfile (result : ScanResult) : EvidenceEncoding → Profile
  | .full => result.profile
  | .compact => declaringProfile result

/-- The defaults that are applied to each item as it is written. -/
def emittedDefaults (result : ScanResult) : EvidenceEncoding → List EvidencePropertyDefaults
  | .full => result.evidencePropertyDefaults
  | .compact => []

/-- The edges that share evidence when it is written in full. -/
def sharedEdges (result : ScanResult) : EvidenceEncoding → SharedEdges
  | .full => result.edges.foldl countSharedEdge ∅
  | .compact => ∅

/-- The event about a file. -/
def fileCompleted (file : FileCoverage) : EventPayload :=
  .fileCompleted file.path file.discoveredSites file.emittedSites
    (file.discoveredSites - file.emittedSites) file.skipped file.reason

def streamEvents (result : ScanResult) (encoding : EvidenceEncoding) : Emit σ ε Nat := do
  let defaults := emittedDefaults result encoding
  sendPayload scanId sink (.scanStarted result.root false true)
  sendPayload scanId sink (.profileDeclared (emittedProfile result encoding))
  result.nodes.forM fun node => sendPayload scanId sink (.nodeUpsert node)
  let shared ← result.sites.foldlM (emitSite F scanId sink defaults)
    ⟨sharedEdges result encoding, ∅⟩
  let _ ← result.edges.foldlM (emitEdge F scanId sink defaults) shared.evidence
  result.diagnostics.forM fun diagnostic =>
    sendPayload scanId sink (.diagnostic (expandedDiagnostic F defaults diagnostic))
  result.files.forM fun file => sendPayload scanId sink (fileCompleted file)
  sendPayload scanId sink (.profileCompleted result.profile.id result.coverage)
  sendPayload scanId sink (.scanCompleted result.coverage)
  return (← get).seq

/-! ### The events that are written -/

/-- The evidence of the first site with this identity, with its defaults applied. -/
def siteEvidence (result : ScanResult) (siteId : String) : Option (List Evidence) :=
  (result.sites.find? fun site => site.id = siteId).map fun site =>
    (expandedSite F result.evidencePropertyDefaults site).evidence

/-- The evidence of an edge, or that of its site if it has none of its own. -/
def restoredEvidence (result : ScanResult) (edge : GraphEdge) : List Evidence :=
  if edge.evidence.isEmpty then (edge.siteId.bind (siteEvidence F result)).getD []
  else edge.evidence

/-- An edge with its evidence. -/
def restoredEdge (result : ScanResult) (edge : GraphEdge) : GraphEdge :=
  let edge := expandedEdge F result.evidencePropertyDefaults edge
  { edge with evidence := restoredEvidence F result edge }

/-- The edge that is written. -/
def emittedEdge (result : ScanResult) : EvidenceEncoding → GraphEdge → GraphEdge
  | .full => restoredEdge F result
  | .compact => expandedEdge F []

/-- The payloads after the declaration of the profile. -/
def body (result : ScanResult) (encoding : EvidenceEncoding) : List EventPayload :=
  let defaults := emittedDefaults result encoding
  result.nodes.map .nodeUpsert ++
    (result.sites.map (fun site => .dependencySite (expandedSite F defaults site)) ++
    (result.edges.map (fun edge => .edgeUpsert (emittedEdge F result encoding edge)) ++
    (result.diagnostics.map (fun diagnostic =>
      .diagnostic (expandedDiagnostic F defaults diagnostic)) ++
    (result.files.map fileCompleted ++
    [.profileCompleted result.profile.id result.coverage, .scanCompleted result.coverage]))))

/-- The payloads of the stream. -/
def payloads (result : ScanResult) (encoding : EvidenceEncoding) : List EventPayload :=
  .scanStarted result.root false true ::
    .profileDeclared (emittedProfile result encoding) :: body F result encoding

/-- Sends payloads one after another. -/
def sendAll (payloads : List EventPayload) : Emit σ ε Unit :=
  payloads.forM (sendPayload scanId sink)

end Stream

section Proof

variable {σ ε : Type} {F : FloatText} {scanId : String} {sink : EventSink σ ε}
  {defaults : List EvidencePropertyDefaults}

@[simp] theorem sendAll_nil : sendAll scanId sink [] = pure () := rfl

theorem sendAll_cons (payload : EventPayload) (payloads : List EventPayload) :
    sendAll scanId sink (payload :: payloads) =
      (do sendPayload scanId sink payload; sendAll scanId sink payloads) := rfl

theorem sendAll_append (first second : List EventPayload) :
    sendAll scanId sink (first ++ second) =
      (do sendAll scanId sink first; sendAll scanId sink second) :=
  List.forM_append

theorem sendAll_map {α : Type} (f : α → EventPayload) (l : List α) :
    (l.forM fun a => sendPayload scanId sink (f a)) = sendAll scanId sink (l.map f) :=
  List.forM_map.symm

/-- A loop each of whose turns sends one payload. -/
theorem foldlM_sends {α β : Type} {f : β → α → Emit σ ε β} {g : α → EventPayload} {h : β → α → β}
    (hf : ∀ acc a, f acc a = (do sendPayload scanId sink (g a); return h acc a)) (l : List α)
    (acc : β) : l.foldlM f acc = (do sendAll scanId sink (l.map g); return l.foldl h acc) := by
  induction l generalizing acc with
  | nil => rfl
  | cons a l ih =>
    rw [List.foldlM_cons, hf, List.map_cons, sendAll_cons, List.foldl_cons]
    simp only [bind_assoc, pure_bind, ih]

/-- Both kinds of sinks keep the evidence of the site that is sent. -/
theorem sendSiteKeepingEvidence_eq (common : CommonFields) (site : DependencySite) :
    sendSiteKeepingEvidence sink common site =
      (do send sink ⟨common, .dependencySite site⟩; return site.evidence) := by
  cases sink <;> rfl

/-- What the loop over the sites notes of a site. -/
def noteSite (shared : SharedState) (site : DependencySite) : SharedState :=
  match shared.edges[site.id]? with
  | some edgeCount =>
    ⟨shared.edges.erase site.id, shared.evidence.insert site.id (site.evidence, edgeCount)⟩
  | none => shared

theorem emitSite_eq (shared : SharedState) (site : DependencySite) :
    emitSite F scanId sink defaults shared site =
      (do sendPayload scanId sink (.dependencySite (expandedSite F defaults site))
          return noteSite shared (expandedSite F defaults site)) := by
  unfold emitSite noteSite
  cases hcount : shared.edges[(expandedSite F defaults site).id]? with
  | none => simp only [hcount]
  | some edgeCount =>
    simp only [hcount, sendSiteKeepingEvidence_eq, sendPayload, bind_assoc, pure_bind]

/-! ### Counting shared evidence -/

/-- The edge shares the evidence of this site. -/
def sharesSite (siteId : String) (edge : GraphEdge) : Bool :=
  edge.evidence.isEmpty && edge.siteId == some siteId

/-- A number that is not zero. -/
def positive (n : Nat) : Option Nat := if n = 0 then none else some n

theorem positive_succ (n : Nat) : positive (n + 1) = some (n + 1) := if_neg (Nat.succ_ne_zero n)

theorem getElem?_countSharedEdge {counts : SharedEdges} {edge : GraphEdge} {siteId : String} :
    (countSharedEdge counts edge)[siteId]? =
      if sharesSite siteId edge then some (counts[siteId]?.getD 0 + 1) else counts[siteId]? := by
  unfold countSharedEdge sharesSite
  cases hsite : edge.siteId with
  | none => simp
  | some other =>
    by_cases hempty : edge.evidence.isEmpty = true
    · simp only [hempty, if_true, Bool.true_and, getElem?_insert, beq_iff_eq, Option.some.injEq]
      by_cases heq : siteId = other
      · simp [heq]
      · rw [if_neg heq, if_neg (Ne.symm heq)]
    · simp [hempty]

/-- The counter of a site is the number of edges that share its evidence. -/
theorem getElem?_sharedEdges (edges : List GraphEdge) (siteId : String) :
    (edges.foldl countSharedEdge ∅)[siteId]? = positive (edges.countP (sharesSite siteId)) := by
  induction edges using List.reverseRecOn with
  | nil => simp [positive]
  | append_singleton edges edge ih =>
    rw [List.foldl_append, List.foldl_cons, List.foldl_nil, getElem?_countSharedEdge, ih,
      List.countP_append, List.countP_singleton]
    split_ifs with h
    · rw [positive_succ]
      unfold positive
      split_ifs with hzero <;> simp [hzero]
    · rw [Nat.add_zero]

theorem noteSite_none {shared : SharedState} {site : DependencySite}
    (h : shared.edges[site.id]? = none) : noteSite shared site = shared := by
  unfold noteSite
  rw [h]

theorem noteSite_some {shared : SharedState} {site : DependencySite} {count : Nat}
    (h : shared.edges[site.id]? = some count) : noteSite shared site =
      ⟨shared.edges.erase site.id, shared.evidence.insert site.id (site.evidence, count)⟩ := by
  unfold noteSite
  rw [h]

/-- What the loop over the sites has noted. -/
structure Noted (counts : SharedEdges) (sites : List DependencySite) (shared : SharedState) :
    Prop where
  edges : ∀ siteId : String, shared.edges[siteId]? =
    if (sites.find? fun site => site.id = siteId).isSome then none else counts[siteId]?
  evidence : ∀ siteId : String, shared.evidence[siteId]? =
    (sites.find? fun site => site.id = siteId).bind fun site =>
      counts[siteId]?.map fun count => (site.evidence, count)

theorem noteSite_noted {counts : SharedEdges} {sites : List DependencySite} {shared : SharedState}
    (h : Noted counts sites shared) (site : DependencySite) :
    Noted counts (sites ++ [site]) (noteSite shared site) := by
  have hedges := h.edges site.id
  have hevidence := h.evidence site.id
  cases hcount : shared.edges[site.id]? with
  | none =>
    rw [noteSite_none hcount]
    have hnone (found : Option DependencySite)
        (hfound : sites.find? (fun other => other.id = site.id) = found) :
        found.isSome ∨ counts[site.id]? = none := by
      rw [hfound, hcount] at hedges
      cases found with
      | none => exact Or.inr hedges.symm
      | some other => exact Or.inl rfl
    refine ⟨fun siteId => ?_, fun siteId => ?_⟩
    · rw [h.edges, List.find?_append, List.find?_singleton]
      by_cases hid : site.id = siteId
      · subst hid
        cases hfound : sites.find? fun other => other.id = site.id with
        | some other => simp
        | none => simpa using (hnone _ hfound).resolve_left (by simp)
      · simp [hid]
    · rw [h.evidence, List.find?_append, List.find?_singleton]
      by_cases hid : site.id = siteId
      · subst hid
        cases hfound : sites.find? fun other => other.id = site.id with
        | some other => simp
        | none => simp [(hnone _ hfound).resolve_left (by simp)]
      · simp [hid]
  | some count =>
    have hnone : sites.find? (fun other => other.id = site.id) = none := by
      rw [hcount] at hedges
      cases hfound : sites.find? fun other => other.id = site.id with
      | some other => simp [hfound] at hedges
      | none => rfl
    have hcounts : counts[site.id]? = some count := by
      rw [hcount, hnone] at hedges
      exact hedges.symm
    rw [noteSite_some hcount]
    refine ⟨fun siteId => ?_, fun siteId => ?_⟩
    · rw [getElem?_erase, h.edges, List.find?_append, List.find?_singleton]
      by_cases hid : site.id = siteId
      · simp [hid]
      · simp [hid, Ne.symm hid]
    · rw [getElem?_insert, h.evidence, List.find?_append, List.find?_singleton]
      by_cases hid : site.id = siteId
      · subst hid
        simp [hnone, hcounts]
      · simp [hid, Ne.symm hid]

theorem noteSites_noted (counts : SharedEdges) (sites : List DependencySite) :
    Noted counts sites (sites.foldl noteSite ⟨counts, ∅⟩) := by
  induction sites using List.reverseRecOn with
  | nil => constructor <;> simp
  | append_singleton sites site ih =>
    rw [List.foldl_append]
    exact noteSite_noted ih site

/-- The evidence that is still shared when these edges are left: that of the sites some of them
share, with their number. -/
def Shares (F : FloatText) (result : ScanResult) (rest : List GraphEdge) (shared : SharedEvidence) :
    Prop :=
  ∀ siteId : String, shared[siteId]? = (siteEvidence F result siteId).bind fun evidence =>
    (positive (rest.countP (sharesSite siteId))).map fun count => (evidence, count)

theorem expandedEdge_isEmpty (edge : GraphEdge) :
    (expandedEdge F defaults edge).evidence.isEmpty = edge.evidence.isEmpty := by
  unfold expandedEdge applyEvidencePropertyDefaults
  simp

theorem sharesSite_eq (siteId : String) (edge : GraphEdge) : sharesSite siteId edge = true ↔
    edge.evidence.isEmpty = true ∧ edge.siteId = some siteId := by
  simp [sharesSite]

/-- An edge that shares no evidence leaves the counters as they are. -/
theorem Shares.skip {result : ScanResult} {edge : GraphEdge} {rest : List GraphEdge}
    {shared : SharedEvidence} (h : Shares F result (edge :: rest) shared)
    (hother : ∀ siteId, sharesSite siteId edge = true → siteEvidence F result siteId = none) :
    Shares F result rest shared := by
  intro siteId
  rw [h siteId, List.countP_cons]
  by_cases hshares : sharesSite siteId edge = true
  · rw [hother siteId hshares]
    rfl
  · rw [if_neg hshares, Nat.add_zero]

/-- An edge that shares the evidence of a site uses one of the counts of this site. -/
theorem Shares.take {result : ScanResult} {edge : GraphEdge} {rest : List GraphEdge}
    {shared shared' : SharedEvidence} (h : Shares F result (edge :: rest) shared) {siteId : String}
    (hshares : sharesSite siteId edge = true) {evidence : List Evidence}
    (hevidence : siteEvidence F result siteId = some evidence)
    (hnext : ∀ other : String, shared'[other]? = if other = siteId then
      (positive (rest.countP (sharesSite siteId))).map fun count => (evidence, count)
      else shared[other]?) : Shares F result rest shared' := by
  intro other
  rw [hnext other]
  split_ifs with hother
  · rw [hother, hevidence]
    rfl
  · rw [h other, List.countP_cons, if_neg, Nat.add_zero]
    rw [sharesSite_eq]
    rintro ⟨-, hsite⟩
    rw [((sharesSite_eq _ _).1 hshares).2] at hsite
    exact hother (Option.some.inj hsite).symm

theorem restoreEvidence_skip {shared : SharedEvidence} {edge : GraphEdge}
    (h : ∀ siteId, sharesSite siteId edge = true → shared[siteId]? = none) :
    (restoreEvidence shared edge : Emit σ ε (SharedEvidence × GraphEdge)) = pure (shared, edge) := by
  unfold restoreEvidence
  by_cases hempty : edge.evidence.isEmpty = true
  · rw [if_pos hempty]
    cases hsite : edge.siteId with
    | none => rfl
    | some siteId => simp only [h siteId ((sharesSite_eq _ _).2 ⟨hempty, hsite⟩)]
  · rw [if_neg hempty]

theorem restoreEvidence_take {shared : SharedEvidence} {edge : GraphEdge} {siteId : String}
    (h : sharesSite siteId edge = true) {evidence : List Evidence} {remaining : Nat}
    (hshared : shared[siteId]? = some (evidence, remaining + 1)) :
    (restoreEvidence shared edge : Emit σ ε (SharedEvidence × GraphEdge)) =
      pure (if remaining = 0 then shared.erase siteId else shared.insert siteId (evidence, remaining),
        { edge with evidence }) := by
  obtain ⟨hempty, hsite⟩ := (sharesSite_eq _ _).1 h
  unfold restoreEvidence
  rw [if_pos hempty]
  cases remaining with
  | zero => simp only [hsite, hshared, if_true]
  | succ remaining => simp only [hsite, hshared, Nat.succ_ne_zero, if_false]

/-- **An edge gets the evidence of its site, and the counter never falls below zero.** -/
theorem restoreEvidence_eq (σ ε : Type) {result : ScanResult} {edge : GraphEdge}
    {rest : List GraphEdge} {shared : SharedEvidence} (h : Shares F result (edge :: rest) shared) : ∃ shared',
    (restoreEvidence shared (expandedEdge F result.evidencePropertyDefaults edge) :
      Emit σ ε (SharedEvidence × GraphEdge)) = pure (shared', restoredEdge F result edge) ∧
    Shares F result rest shared' := by
  set expanded := expandedEdge F result.evidencePropertyDefaults edge with hexpanded
  have hsame (siteId : String) : sharesSite siteId expanded = sharesSite siteId edge := by
    rw [sharesSite, hexpanded, expandedEdge_isEmpty]
    rfl
  by_cases hshares : ∃ siteId evidence, sharesSite siteId edge = true ∧
      siteEvidence F result siteId = some evidence
  · obtain ⟨siteId, evidence, hshares, hevidence⟩ := hshares
    obtain ⟨hempty, hsite⟩ := (sharesSite_eq _ _).1 ((hsame siteId).trans hshares)
    have hlookup := h siteId
    rw [hevidence, Option.bind_some, List.countP_cons, if_pos hshares, positive_succ,
      Option.map_some] at hlookup
    have hrestored : restoredEdge F result edge = { expanded with evidence } := by
      rw [restoredEdge, ← hexpanded, restoredEvidence, if_pos hempty, hsite, Option.bind_some,
        hevidence, Option.getD_some]
    rw [hrestored]
    refine ⟨_, restoreEvidence_take ((hsame siteId).trans hshares) hlookup, ?_⟩
    refine h.take hshares hevidence fun other => ?_
    unfold positive
    split_ifs with hzero hother hother
    · rw [getElem?_erase, if_pos hother]
      rfl
    · rw [getElem?_erase, if_neg hother]
    · rw [getElem?_insert, if_pos hother]
      rfl
    · rw [getElem?_insert, if_neg hother]
  · have hnone (siteId : String) (hsite : sharesSite siteId edge = true) :
        siteEvidence F result siteId = none :=
      Option.eq_none_iff_forall_ne_some.2 fun evidence hevidence =>
        hshares ⟨siteId, evidence, hsite, hevidence⟩
    have hrestored : restoredEvidence F result expanded = expanded.evidence := by
      unfold restoredEvidence
      split_ifs with hempty
      · cases hsite : expanded.siteId with
        | none => exact (List.isEmpty_iff.1 hempty).symm
        | some siteId =>
          rw [Option.bind_some, hnone siteId
            ((hsame siteId).symm.trans ((sharesSite_eq _ _).2 ⟨hempty, hsite⟩))]
          exact (List.isEmpty_iff.1 hempty).symm
      · rfl
    rw [restoredEdge, ← hexpanded, hrestored]
    refine ⟨shared, restoreEvidence_skip fun siteId hsite => ?_, h.skip hnone⟩
    rw [h siteId, hnone siteId ((hsame siteId).symm.trans hsite)]
    rfl

/-- The loop over the edges writes them with their evidence. -/
theorem foldlM_emitEdge {result : ScanResult} {edges : List GraphEdge} {shared : SharedEvidence}
    (h : Shares F result edges shared) : ∃ shared',
    edges.foldlM (emitEdge F scanId sink result.evidencePropertyDefaults) shared =
      (do sendAll scanId sink (edges.map fun edge => .edgeUpsert (restoredEdge F result edge))
          return shared') := by
  induction edges generalizing shared with
  | nil => exact ⟨shared, rfl⟩
  | cons edge edges ih =>
    obtain ⟨next, hrestore, hnext⟩ := restoreEvidence_eq σ ε h
    obtain ⟨last, hlast⟩ := ih hnext
    refine ⟨last, ?_⟩
    rw [List.foldlM_cons, List.map_cons, sendAll_cons]
    simp only [emitEdge, hrestore, bind_assoc, pure_bind, hlast]

theorem foldlM_emitEdge_compact (edges : List GraphEdge) :
    edges.foldlM (emitEdge F scanId sink []) ∅ =
      (do sendAll scanId sink (edges.map fun edge => .edgeUpsert (expandedEdge F [] edge))
          return (∅ : SharedEvidence)) := by
  have hturn (edge : GraphEdge) : emitEdge F scanId sink [] ∅ edge =
      (do sendPayload scanId sink (.edgeUpsert (expandedEdge F [] edge))
          return (∅ : SharedEvidence)) := by
    rw [emitEdge, restoreEvidence_skip fun siteId _ => ExtTreeMap.getElem?_empty, pure_bind]
  induction edges with
  | nil => rfl
  | cons edge edges ih =>
    rw [List.foldlM_cons, List.map_cons, sendAll_cons, hturn]
    simp only [bind_assoc, pure_bind, ih]

/-- After the sites have been written, the evidence of those is shared that edges refer to. -/
theorem shares_start (result : ScanResult) : Shares F result result.edges
    (result.sites.foldl (fun shared site => noteSite shared
      (expandedSite F result.evidencePropertyDefaults site))
      ⟨sharedEdges result .full, ∅⟩).evidence := by
  intro siteId
  have hnoted := noteSites_noted (sharedEdges result .full)
    (result.sites.map (expandedSite F result.evidencePropertyDefaults))
  rw [List.foldl_map] at hnoted
  rw [hnoted.evidence, List.find?_map, siteEvidence, sharedEdges, getElem?_sharedEdges]
  have hids : ((fun site : DependencySite => decide (site.id = siteId)) ∘
      expandedSite F result.evidencePropertyDefaults) = fun site => decide (site.id = siteId) := rfl
  rw [hids, Option.bind_map, Option.bind_map]
  rfl

/-- Nothing is shared when the encoding is compact. -/
theorem shares_start_compact (result : ScanResult) :
    (result.sites.foldl (fun shared site => noteSite shared (expandedSite F [] site))
      ⟨sharedEdges result .compact, ∅⟩).evidence = ∅ := by
  have hnoted := noteSites_noted (sharedEdges result .compact)
    (result.sites.map (expandedSite F []))
  rw [List.foldl_map] at hnoted
  refine ExtTreeMap.ext_getElem? fun siteId => ?_
  rw [hnoted.evidence, ExtTreeMap.getElem?_empty]
  cases (result.sites.map (expandedSite F [])).find? fun site => site.id = siteId with
  | none => rfl
  | some site => simp [sharedEdges]

/-- **The events that are written**, one after another. -/
theorem streamEvents_eq (result : ScanResult) (encoding : EvidenceEncoding) :
    streamEvents F scanId sink result encoding =
      (do sendAll scanId sink (payloads F result encoding)
          return (← get).seq) := by
  have hsites : result.sites.foldlM (emitSite F scanId sink (emittedDefaults result encoding))
      ⟨sharedEdges result encoding, ∅⟩ =
      (do sendAll scanId sink (result.sites.map fun site =>
            .dependencySite (expandedSite F (emittedDefaults result encoding) site))
          return result.sites.foldl (fun shared site => noteSite shared
            (expandedSite F (emittedDefaults result encoding) site))
            ⟨sharedEdges result encoding, ∅⟩) :=
    foldlM_sends emitSite_eq result.sites _
  have hedges : ∃ last, result.edges.foldlM
      (emitEdge F scanId sink (emittedDefaults result encoding))
      (result.sites.foldl (fun shared site => noteSite shared
        (expandedSite F (emittedDefaults result encoding) site))
        ⟨sharedEdges result encoding, ∅⟩).evidence =
      (do sendAll scanId sink
            (result.edges.map fun edge => .edgeUpsert (emittedEdge F result encoding edge))
          return last) := by
    cases encoding with
    | full => exact foldlM_emitEdge (shares_start result)
    | compact => exact ⟨∅, by rw [emittedDefaults, shares_start_compact, foldlM_emitEdge_compact]; rfl⟩
  obtain ⟨last, hedges⟩ := hedges
  simp only [streamEvents, sendAll_map, hsites, payloads, body, sendAll_append, sendAll_cons, sendAll_nil,
    bind_assoc, pure_bind, hedges]

end Proof

end Worker
