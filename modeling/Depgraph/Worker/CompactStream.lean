import Depgraph.Worker.Emit

/-!
# The compact stream decodes to the full stream

Both kinds of sinks receive the same events, the counter of shared evidence never falls below zero,
and the decoder turns the compact stream of a scan result into its full stream.

* `Encodable`: what a scan result must meet;
* `compact_decodes`: the result.
-/

namespace Worker

open Json Protocol OrderedMap Fallible Std

/-! ### Receiving events -/

section Sinks

variable {σ ε : Type} {F : FloatText} {scanId : String}

/-- The payloads as events, numbered from a number on. -/
def number (scanId : String) : Nat → List EventPayload → List ProtocolEvent
  | _, [] => []
  | seq, payload :: payloads =>
    ⟨commonFields scanId (seq + 1), payload⟩ :: number scanId (seq + 1) payloads

theorem number_append (seq : Nat) (first second : List EventPayload) :
    number scanId seq (first ++ second) =
      number scanId seq first ++ number scanId (seq + first.length) second := by
  induction first generalizing seq with
  | nil => rfl
  | cons payload first ih =>
    rw [List.cons_append, number, number, ih, List.cons_append, List.length_cons,
      Nat.add_right_comm, Nat.add_assoc]

/-- Sending is receiving the numbered events one by one. -/
theorem sendAll_eq (sink : EventSink σ ε) (payloads : List EventPayload) (emission : Emission σ) :
    sendAll scanId sink payloads emission =
      match (number scanId emission.seq payloads).foldlM sink.receive emission.sink with
      | .ok received => .ok ((), ⟨emission.seq + payloads.length, received⟩)
      | .error error => .error (.sink error) := by
  induction payloads generalizing emission with
  | nil => rfl
  | cons payload payloads ih =>
    rw [sendAll_cons, number, List.foldlM_cons]
    simp only [bind, StateT.bind, sendPayload, common, send]
    cases hreceive : sink.receive emission.sink ⟨commonFields scanId (emission.seq + 1), payload⟩ with
    | error error => simp only [hreceive, Except.bind]
    | ok received =>
      simp only [hreceive, Except.bind, ih, List.length_cons, Nat.add_assoc, Nat.add_comm 1]

/-- What a sink has received at the end, and the number of events. -/
theorem streamEvents_receive (sink : EventSink σ ε) (result : ScanResult)
    (encoding : EvidenceEncoding) (start : σ) :
    streamEvents F scanId sink result encoding ⟨0, start⟩ =
      match (number scanId 0 (payloads F result encoding)).foldlM sink.receive start with
      | .ok received => .ok ((payloads F result encoding).length,
          ⟨(payloads F result encoding).length, received⟩)
      | .error error => .error (.sink error) := by
  rw [streamEvents_eq]
  simp only [bind, StateT.bind, sendAll_eq]
  cases (number scanId 0 (payloads F result encoding)).foldlM sink.receive start with
  | error error => rfl
  | ok received => simp only [Except.bind, Nat.zero_add]; rfl

/-- The events a sink receives that keeps everything. -/
def recorded (F : FloatText) (scanId : String) (result : ScanResult) (encoding : EvidenceEncoding) :
    Except (EmitError Empty) (List ProtocolEvent) :=
  (streamEvents F scanId (.owned fun received event => .ok (received ++ [event])) result encoding
    ⟨0, []⟩).map fun done => done.2.sink

theorem recorded_eq (result : ScanResult) (encoding : EvidenceEncoding) :
    recorded F scanId result encoding =
      .ok (number scanId 0 (payloads F result encoding)) := by
  have hkept (events received : List ProtocolEvent) :
      events.foldlM (fun received event => (.ok (received ++ [event]) :
        Except Empty (List ProtocolEvent))) received = .ok (received ++ events) := by
    induction events generalizing received with
    | nil => rw [List.append_nil]; rfl
    | cons event events ih =>
      rw [List.foldlM_cons, ok_bind, ih, List.append_assoc, List.singleton_append]
  rw [recorded, streamEvents_receive]
  simp only [EventSink.receive, hkept, List.nil_append]
  rfl

end Sinks

/-! ### What a scan result must meet -/

/-- The defaults change nothing in this evidence. -/
def Unaffected (F : FloatText) (result : ScanResult) (evidence : List Evidence) : Prop :=
  (applyEvidencePropertyDefaults F result.evidencePropertyDefaults evidence).1 = evidence

/-- What the decoder relies on: the declarations are free and valid, evidence that the defaults change
belongs to the profile, and an edge of the profile without evidence has a site of the profile. -/
structure Encodable (F : FloatText) (result : ScanResult) : Prop where
  encodingFree : evidenceEncodingProperty ∉ result.profile.properties
  defaultsFree : evidencePropertyDefaultsProperty ∉ result.profile.properties
  defaultsValid : validateDefaults result.profile.id result.evidencePropertyDefaults = .ok ()
  sites : ∀ site ∈ result.sites, site.profileId = result.profile.id ∨
    Unaffected F result site.evidence
  edges : ∀ edge ∈ result.edges, edge.profileId = result.profile.id ∨
    Unaffected F result edge.evidence
  diagnostics : ∀ diagnostic ∈ result.diagnostics,
    diagnostic.profileId = some result.profile.id ∨ Unaffected F result diagnostic.evidence
  linked : ∀ edge ∈ result.edges, edge.evidence = [] → ∀ siteId, edge.siteId = some siteId →
    edge.profileId = result.profile.id ∧ ∃ site,
      result.sites.find? (fun site => site.id = siteId) = some site ∧
        site.profileId = edge.profileId
  unlinked : ∀ edge ∈ result.edges, edge.evidence = [] → edge.siteId = none →
    edge.profileId ≠ result.profile.id

/-! ### Decoding -/

section Decoding

variable {F : FloatText} {malformed : Value → String} {scanId : String} {result : ScanResult}

/-- The decoder knows the profile of the result, and nothing bounds what it adds. -/
structure Ready (result : ScanResult) (decoder : CompactEvidenceDecoder) : Prop where
  defaults : ∀ profileId, decoder.defaults profileId =
    if profileId = result.profile.id then some result.evidencePropertyDefaults else none
  unbounded : decoder.expansionLimit = none

theorem Ready.account {decoder : CompactEvidenceDecoder} (h : Ready result decoder) (added : Nat) :
    ∃ next, decoder.account added = .ok next ∧ Ready result next := by
  refine ⟨{ decoder with expandedBytes := min (decoder.expandedBytes + added) (2 ^ 64 - 1) }, ?_,
    h.defaults, h.unbounded⟩
  simp only [CompactEvidenceDecoder.account, h.unbounded, Option.any_none, check_of, Bool.false_eq_true,
    not_false_eq_true, ok_bind]
  rfl

/-- Evidence that belongs to the profile gets its defaults. -/
theorem Ready.decodeEvidence {decoder : CompactEvidenceDecoder} (h : Ready result decoder)
    {profileId : Option String} {evidence : List Evidence}
    (howner : profileId = some result.profile.id ∨ Unaffected F result evidence) :
    ∃ next, decoder.decodeEvidence F profileId evidence = .ok (next,
      (applyEvidencePropertyDefaults F result.evidencePropertyDefaults evidence).1) ∧
      Ready result next := by
  unfold CompactEvidenceDecoder.decodeEvidence
  by_cases hprofile : profileId = some result.profile.id
  · rw [hprofile, Option.bind_some, h.defaults, if_pos rfl]
    obtain ⟨next, haccount, hnext⟩ := h.account
      (applyEvidencePropertyDefaults F result.evidencePropertyDefaults evidence).2
    refine ⟨next, ?_, hnext⟩
    simp only [haccount, ok_bind]
    rfl
  · have hnone : profileId.bind decoder.defaults = none := by
      cases profileId with
      | none => rfl
      | some profileId =>
        rw [Option.bind_some, h.defaults, if_neg fun heq => hprofile (congrArg some heq)]
    rw [hnone, howner.resolve_left hprofile]
    exact ⟨decoder, rfl, h⟩

/-- Events decode to others, whatever follows them. -/
def Decodes (F : FloatText) (malformed : Value → String) (result : ScanResult)
    (decoded events outs : List ProtocolEvent) : Prop :=
  ∀ decoder, Ready result decoder → ∃ next, Ready result next ∧ ∀ rest,
    decoder.decodeStream F malformed decoded (events ++ rest) =
      next.decodeStream F malformed (decoded ++ outs) rest

theorem Decodes.append {decoded first first' second second' : List ProtocolEvent}
    (hfirst : Decodes F malformed result decoded first first')
    (hsecond : Decodes F malformed result (decoded ++ first') second second') :
    Decodes F malformed result decoded (first ++ second) (first' ++ second') := by
  intro decoder hready
  obtain ⟨next, hnext, hdecode⟩ := hfirst decoder hready
  obtain ⟨last, hlast, hrest⟩ := hsecond next hnext
  refine ⟨last, hlast, fun rest => ?_⟩
  rw [List.append_assoc, hdecode, hrest, List.append_assoc]

theorem Decodes.single {decoded : List ProtocolEvent} {event out : ProtocolEvent}
    (h : ∀ decoder, Ready result decoder → ∃ next, Ready result next ∧
      decoder.decode F malformed event (siteAmong decoded) = .ok (next, out)) :
    Decodes F malformed result decoded [event] [out] := by
  intro decoder hready
  obtain ⟨next, hnext, hdecode⟩ := h decoder hready
  refine ⟨next, hnext, fun rest => ?_⟩
  rw [List.singleton_append, CompactEvidenceDecoder.decodeStream, hdecode, ok_bind]

/-- Numbered payloads that decode one by one; `Q` is what has been decoded before. -/
theorem Decodes.map {α : Type} {f g : α → EventPayload} {l : List α}
    {Q : List ProtocolEvent → Prop} {decoded : List ProtocolEvent}
    (hstep : ∀ a ∈ l, ∀ c decoded, Q decoded →
      Decodes F malformed result decoded [⟨c, f a⟩] [⟨c, g a⟩] ∧ Q (decoded ++ [⟨c, g a⟩]))
    (hdecoded : Q decoded) (seq : Nat) :
    Decodes F malformed result decoded (number scanId seq (l.map f))
      (number scanId seq (l.map g)) := by
  induction l generalizing decoded seq with
  | nil => exact fun decoder hready => ⟨decoder, hready, fun rest => by simp [number]⟩
  | cons a l ih =>
    obtain ⟨hhead, hnext⟩ := hstep a List.mem_cons_self (commonFields scanId (seq + 1)) _ hdecoded
    exact hhead.append (ih (fun b hb => hstep b (List.mem_cons_of_mem _ hb)) hnext (seq + 1))

/-- Payloads that the decoder does not touch. -/
theorem Decodes.untouched {decoded : List ProtocolEvent} {payload : EventPayload} {c : CommonFields}
    (h : ∀ decoder : CompactEvidenceDecoder,
      decoder.decode F malformed ⟨c, payload⟩ (siteAmong decoded) = .ok (decoder, ⟨c, payload⟩)) :
    Decodes F malformed result decoded [⟨c, payload⟩] [⟨c, payload⟩] :=
  Decodes.single fun decoder hready => ⟨decoder, hready, h decoder⟩

/-- The site that a payload declares. -/
def declaredSite (siteId : String) : EventPayload → Option DependencySite
  | .dependencySite site => if site.id = siteId then some site else none
  | _ => none

theorem siteAmong_append (first second : List ProtocolEvent) (siteId : String) :
    siteAmong (first ++ second) siteId = (siteAmong first siteId).or (siteAmong second siteId) :=
  List.findSome?_append

theorem siteAmong_number (seq : Nat) (payloads : List EventPayload) (siteId : String) :
    siteAmong (number scanId seq payloads) siteId = payloads.findSome? (declaredSite siteId) := by
  induction payloads generalizing seq with
  | nil => rfl
  | cons payload payloads ih =>
    rw [number, siteAmong, List.findSome?_cons, List.findSome?_cons, ← ih (seq + 1)]
    cases payload <;> rfl

/-- The sites of the result have been decoded. -/
def SitesDecoded (F : FloatText) (result : ScanResult) (decoded : List ProtocolEvent) : Prop :=
  ∀ siteId, siteAmong decoded siteId = (result.sites.find? fun site => site.id = siteId).map
    (expandedSite F result.evidencePropertyDefaults)

/-- The first events of the full stream declare the sites. -/
theorem sitesDecoded (payloads : List EventPayload) (seq : Nat)
    (hpayloads : ∀ siteId, payloads.findSome? (declaredSite siteId) = none) :
    SitesDecoded F result (number scanId seq payloads ++
      number scanId (seq + payloads.length) (result.sites.map fun site =>
        .dependencySite (expandedSite F result.evidencePropertyDefaults site))) := by
  intro siteId
  rw [← number_append, siteAmong_number, List.findSome?_append, hpayloads, Option.none_or]
  induction result.sites with
  | nil => rfl
  | cons site sites ih =>
    rw [List.map_cons, List.findSome?_cons, List.find?_cons]
    by_cases hid : site.id = siteId
    · have hsite : declaredSite siteId
          (.dependencySite (expandedSite F result.evidencePropertyDefaults site)) =
          some (expandedSite F result.evidencePropertyDefaults site) := if_pos hid
      rw [hsite, decide_eq_true hid]
      rfl
    · have hsite : declaredSite siteId
          (.dependencySite (expandedSite F result.evidencePropertyDefaults site)) = none := if_neg hid
      rw [hsite, decide_eq_false hid]
      exact ih

/-- Without defaults an item stays as it is. -/
theorem applyEvidencePropertyDefaults_nil (evidence : List Evidence) :
    (applyEvidencePropertyDefaults F [] evidence).1 = evidence :=
  List.map_id evidence

theorem decodes_site {decoded : List ProtocolEvent} {site : DependencySite} {c : CommonFields}
    (howner : site.profileId = result.profile.id ∨ Unaffected F result site.evidence) :
    Decodes F malformed result decoded [⟨c, .dependencySite (expandedSite F [] site)⟩]
      [⟨c, .dependencySite (expandedSite F result.evidencePropertyDefaults site)⟩] := by
  refine Decodes.single fun decoder hready => ?_
  obtain ⟨next, hdecode, hnext⟩ := hready.decodeEvidence (howner.imp_left (congrArg some))
  refine ⟨next, hnext, ?_⟩
  simp only [CompactEvidenceDecoder.decode, expandedSite, applyEvidencePropertyDefaults_nil, hdecode,
    ok_bind]
  rfl

theorem decodes_diagnostic {decoded : List ProtocolEvent} {diagnostic : Diagnostic}
    {c : CommonFields} (howner : diagnostic.profileId = some result.profile.id ∨
      Unaffected F result diagnostic.evidence) :
    Decodes F malformed result decoded [⟨c, .diagnostic (expandedDiagnostic F [] diagnostic)⟩]
      [⟨c, .diagnostic (expandedDiagnostic F result.evidencePropertyDefaults diagnostic)⟩] := by
  refine Decodes.single fun decoder hready => ?_
  obtain ⟨next, hdecode, hnext⟩ := hready.decodeEvidence howner
  refine ⟨next, hnext, ?_⟩
  simp only [CompactEvidenceDecoder.decode, expandedDiagnostic, applyEvidencePropertyDefaults_nil,
    hdecode, ok_bind]
  rfl

theorem restoredEdge_of_ne_nil {edge : GraphEdge} (h : edge.evidence ≠ []) :
    restoredEdge F result edge = { edge with
      evidence := (applyEvidencePropertyDefaults F result.evidencePropertyDefaults
        edge.evidence).1 } := by
  have hne : (expandedEdge F result.evidencePropertyDefaults edge).evidence.isEmpty = false := by
    rw [expandedEdge_isEmpty]
    simpa using h
  rw [restoredEdge, restoredEvidence, hne]
  rfl

theorem restoredEdge_of_nil {edge : GraphEdge} (h : edge.evidence = []) :
    restoredEdge F result edge = { edge with
      evidence := (edge.siteId.bind (siteEvidence F result)).getD [] } := by
  have hempty : (expandedEdge F result.evidencePropertyDefaults edge).evidence.isEmpty = true := by
    rw [expandedEdge_isEmpty, h]
    rfl
  rw [restoredEdge, restoredEvidence, hempty]
  rfl

/-- **An edge decodes to the edge that the full encoding writes.** -/
theorem decodes_edge (h : Encodable F result) {decoded : List ProtocolEvent} {edge : GraphEdge}
    {c : CommonFields} (hmem : edge ∈ result.edges) (hdecoded : SitesDecoded F result decoded) :
    Decodes F malformed result decoded [⟨c, .edgeUpsert (expandedEdge F [] edge)⟩]
      [⟨c, .edgeUpsert (restoredEdge F result edge)⟩] := by
  have hwritten : expandedEdge F [] edge = edge := by
    rw [expandedEdge, applyEvidencePropertyDefaults_nil]
  rw [hwritten]
  refine Decodes.single fun decoder hready => ?_
  suffices ∃ next, Ready result next ∧ decoder.decodeEdge F edge (siteAmong decoded) =
      .ok (next, restoredEdge F result edge) by
    obtain ⟨next, hnext, hdecode⟩ := this
    refine ⟨next, hnext, ?_⟩
    simp only [CompactEvidenceDecoder.decode, hdecode, ok_bind]
    rfl
  unfold CompactEvidenceDecoder.decodeEdge
  rw [hready.defaults]
  by_cases hprofile : edge.profileId = result.profile.id
  · rw [if_pos hprofile]
    by_cases hempty : edge.evidence = []
    · cases hsite : edge.siteId with
      | none => exact absurd hprofile (h.unlinked edge hmem hempty hsite)
      | some siteId =>
        obtain ⟨-, site, hfound, howner⟩ := h.linked edge hmem hempty siteId hsite
        have hamong : siteAmong decoded siteId =
            some (expandedSite F result.evidencePropertyDefaults site) := by
          rw [hdecoded, hfound, Option.map_some]
        obtain ⟨next, haccount, hnext⟩ := hready.account (jsonLen F (.array
          ((expandedSite F result.evidencePropertyDefaults site).evidence.map Evidence.toValue)))
        refine ⟨next, hnext, ?_⟩
        have hensure : (expandedSite F result.evidencePropertyDefaults site).profileId =
          edge.profileId := howner
        simp only [Option.isNone_some, Bool.false_eq_true, if_false, hempty, List.isEmpty_nil,
          Bool.true_eq_false, hsite, required_some, ok_bind, hamong, ensure, check_of hensure,
          haccount, restoredEdge_of_nil hempty, Option.bind_some, siteEvidence, hfound,
          Option.map_some, Option.getD_some]
        rfl
    · have howner : some edge.profileId = some result.profile.id ∨
          Unaffected F result edge.evidence := Or.inl (congrArg some hprofile)
      obtain ⟨next, hdecode, hnext⟩ := hready.decodeEvidence howner
      refine ⟨next, hnext, ?_⟩
      have hne : edge.evidence.isEmpty = false := by simpa using hempty
      simp only [Option.isNone_some, Bool.false_eq_true, if_false, hne, if_true, hdecode, ok_bind,
        restoredEdge_of_ne_nil hempty]
      rfl
  · rw [if_neg hprofile]
    refine ⟨decoder, hready, ?_⟩
    rw [Option.isNone_none, if_pos rfl]
    by_cases hempty : edge.evidence = []
    · have hnone : edge.siteId = none := Option.eq_none_iff_forall_ne_some.2 fun siteId hsite =>
        hprofile (h.linked edge hmem hempty siteId hsite).1
      rw [restoredEdge_of_nil hempty, hnone, Option.bind_none, Option.getD_none, ← hempty, ← hnone]
    · have hsame := (h.edges edge hmem).resolve_left hprofile
      unfold Unaffected at hsame
      rw [restoredEdge_of_ne_nil hempty, hsame]

/-! ### The stream -/

/-- The declarations of the compact encoding are read and taken away. -/
theorem decodeProfile_declaring (h : Encodable F result) : ∃ next, Ready result next ∧
    CompactEvidenceDecoder.new.decodeProfile F malformed (declaringProfile result) =
      .ok (next, result.profile) := by
  have hkeys : evidenceEncodingProperty ≠ evidencePropertyDefaultsProperty := by decide
  have hdefaultsFree := not_mem_iff.1 h.defaultsFree
  have hencodingFree := not_mem_iff.1 h.encodingFree
  have hencoding : (declaringProfile result).properties[evidenceEncodingProperty]? =
      some (.string compactEvidenceEncodingV1) := by
    unfold declaringProfile
    dsimp only
    split_ifs
    · rw [getElem?_insert, if_pos rfl]
    · rw [getElem?_insert, if_neg hkeys, getElem?_insert, if_pos rfl]
  have hparse : parseDefaults malformed (declaringProfile result).id
      (declaringProfile result).properties[evidencePropertyDefaultsProperty]? =
      .ok result.evidencePropertyDefaults := by
    unfold declaringProfile
    dsimp only
    split_ifs with hempty
    · rw [getElem?_insert, if_neg hkeys.symm, hdefaultsFree, List.isEmpty_iff.1 hempty]
      rfl
    · rw [getElem?_insert, if_pos rfl]
      simp only [parseDefaults, defaultsOfValue_defaultsValue, required_some, ok_bind,
        h.defaultsValid]
      rfl
  have hdeclared : declaredEncoding F malformed (declaringProfile result) =
      .ok (some result.evidencePropertyDefaults) := by
    unfold declaredEncoding
    simp only [hencoding, hparse, stringOf, if_true]
    rfl
  have hproperties : ((declaringProfile result).properties.erase evidenceEncodingProperty).erase
      evidencePropertyDefaultsProperty = result.profile.properties := by
    refine ExtTreeMap.ext_getElem? fun key => ?_
    rw [getElem?_erase, getElem?_erase]
    by_cases hdefaults : key = evidencePropertyDefaultsProperty
    · rw [if_pos hdefaults, hdefaults, hdefaultsFree]
    · by_cases hkey : key = evidenceEncodingProperty
      · rw [if_neg hdefaults, if_pos hkey, hkey, hencodingFree]
      · rw [if_neg hdefaults, if_neg hkey]
        unfold declaringProfile
        dsimp only
        split_ifs
        · rw [getElem?_insert, if_neg hkey]
        · rw [getElem?_insert, if_neg hdefaults, getElem?_insert, if_neg hkey]
  refine ⟨⟨CompactEvidenceDecoder.new.profiles.insert result.profile.id
    (some result.evidencePropertyDefaults), none, 0⟩, ⟨fun profileId => ?_, rfl⟩, ?_⟩
  · unfold CompactEvidenceDecoder.defaults
    rw [getElem?_insert]
    split_ifs
    · rfl
    · simp [CompactEvidenceDecoder.new]
  · unfold CompactEvidenceDecoder.decodeProfile
    simp only [hdeclared, ok_bind, hproperties]
    rfl

/-- Payloads that the decoder does not touch, numbered. -/
theorem Decodes.untouchedAll {payloads : List EventPayload} {decoded : List ProtocolEvent} (seq : Nat)
    (h : ∀ payload ∈ payloads, ∀ c decoded, Decodes F malformed result decoded [⟨c, payload⟩]
      [⟨c, payload⟩]) :
    Decodes F malformed result decoded (number scanId seq payloads)
      (number scanId seq payloads) := by
  induction payloads generalizing decoded seq with
  | nil => exact fun decoder hready => ⟨decoder, hready, fun rest => by simp [number]⟩
  | cons payload payloads ih =>
    exact (h payload List.mem_cons_self (commonFields scanId (seq + 1)) decoded).append
      (ih (seq + 1) fun payload hmem => h payload (List.mem_cons_of_mem _ hmem))

/-- The first two events of the full stream. -/
def opening (scanId : String) (result : ScanResult) : List ProtocolEvent :=
  number scanId 0 [.scanStarted result.root false true, .profileDeclared result.profile]

/-- The events after the declaration of the profile decode. -/
theorem decodes_body (h : Encodable F result) : Decodes F malformed result (opening scanId result)
    (number scanId 2 (body F result .compact)) (number scanId 2 (body F result .full)) := by
  have hnodes : SitesDecoded F result (opening scanId result ++ number scanId 2
      (result.nodes.map .nodeUpsert) ++ number scanId (2 + result.nodes.length)
      (result.sites.map fun site =>
        .dependencySite (expandedSite F result.evidencePropertyDefaults site))) := by
    have hdeclared (siteId : String) : (.scanStarted result.root false true ::
        .profileDeclared result.profile :: result.nodes.map EventPayload.nodeUpsert).findSome?
          (declaredSite siteId) = none := by
      refine List.findSome?_eq_none_iff.2 fun payload hmem => ?_
      rcases List.mem_cons.1 hmem with rfl | hmem
      · rfl
      rcases List.mem_cons.1 hmem with rfl | hmem
      · rfl
      obtain ⟨node, -, rfl⟩ := List.mem_map.1 hmem
      rfl
    have hseq : 2 + result.nodes.length = 0 + (.scanStarted result.root false true ::
        .profileDeclared result.profile :: result.nodes.map EventPayload.nodeUpsert).length := by
      rw [List.length_cons, List.length_cons, List.length_map]
      omega
    rw [hseq]
    exact sitesDecoded _ 0 hdeclared
  simp only [body, number_append, List.length_map]
  refine Decodes.append (Decodes.untouchedAll 2 fun payload hmem c decoded => ?_) ?_
  · obtain ⟨node, -, rfl⟩ := List.mem_map.1 hmem
    exact Decodes.untouched fun decoder => rfl
  refine Decodes.append ?_ ?_
  · have hstep : ∀ site ∈ result.sites, ∀ c decoded, True →
        Decodes F malformed result decoded
          [⟨c, .dependencySite (expandedSite F (emittedDefaults result .compact) site)⟩]
          [⟨c, .dependencySite (expandedSite F (emittedDefaults result .full) site)⟩] ∧ True :=
      fun site hmem c decoded _ => ⟨decodes_site (h.sites site hmem), True.intro⟩
    exact Decodes.map hstep True.intro _
  refine Decodes.append ?_ ?_
  · have hstep : ∀ edge ∈ result.edges, ∀ c decoded, SitesDecoded F result decoded →
        Decodes F malformed result decoded
          [⟨c, .edgeUpsert (emittedEdge F result .compact edge)⟩]
          [⟨c, .edgeUpsert (emittedEdge F result .full edge)⟩] ∧
        SitesDecoded F result
          (decoded ++ [⟨c, .edgeUpsert (emittedEdge F result .full edge)⟩]) := by
      intro edge hmem c decoded hdecoded
      refine ⟨decodes_edge h hmem hdecoded, fun siteId => ?_⟩
      rw [siteAmong_append, hdecoded]
      exact Option.or_none
    exact Decodes.map hstep hnodes _
  refine Decodes.append ?_ ?_
  · have hstep : ∀ diagnostic ∈ result.diagnostics, ∀ c decoded, True →
        Decodes F malformed result decoded
          [⟨c, .diagnostic (expandedDiagnostic F (emittedDefaults result .compact) diagnostic)⟩]
          [⟨c, .diagnostic (expandedDiagnostic F (emittedDefaults result .full) diagnostic)⟩] ∧
          True :=
      fun diagnostic hmem c decoded _ => ⟨decodes_diagnostic (h.diagnostics diagnostic hmem), True.intro⟩
    exact Decodes.map hstep True.intro _
  refine Decodes.append (Decodes.untouchedAll _ fun payload hmem c decoded => ?_) ?_
  · obtain ⟨file, -, rfl⟩ := List.mem_map.1 hmem
    exact Decodes.untouched fun decoder => rfl
  · refine Decodes.untouchedAll _ fun payload hmem c decoded => ?_
    rcases List.mem_cons.1 hmem with rfl | hmem
    · exact Decodes.untouched fun decoder => rfl
    · rw [List.mem_singleton.1 hmem]
      exact Decodes.untouched fun decoder => rfl

/-- **The compact stream decodes to the full stream.** -/
theorem decodeStream_compact (h : Encodable F result) :
    CompactEvidenceDecoder.new.decodeStream F malformed []
      (number scanId 0 (payloads F result .compact)) =
      .ok (number scanId 0 (payloads F result .full)) := by
  obtain ⟨decoder, hready, hprofile⟩ : ∃ next, Ready result next ∧
      CompactEvidenceDecoder.new.decodeProfile F malformed (declaringProfile result) =
        .ok (next, result.profile) := decodeProfile_declaring h
  have hall : Decodes F malformed result (opening scanId result)
      (number scanId 2 (body F result .compact)) (number scanId 2 (body F result .full)) :=
    decodes_body h
  obtain ⟨last, -, hbody⟩ := hall decoder hready
  have hrest := hbody []
  rw [List.append_nil] at hrest
  have hfull : number scanId 0 (payloads F result .full) =
      opening scanId result ++ number scanId 2 (body F result .full) := rfl
  rw [hfull, ← CompactEvidenceDecoder.decodeStream.eq_1 F malformed last (opening scanId result ++ _),
    ← hrest]
  simp only [payloads, number, CompactEvidenceDecoder.decodeStream, CompactEvidenceDecoder.decode,
    emittedProfile, hprofile, ok_bind]
  rfl

end Decoding

/-- Both encodings write their events to every sink, of either kind, and stop only where the sink
does; the decoder turns the compact events into the full ones. -/
theorem compact_decodes (F : FloatText) (malformed : Value → String) (scanId : String)
    (result : ScanResult) (h : Encodable F result) :
    (∃ full compact, recorded F scanId result .full = .ok full ∧
      recorded F scanId result .compact = .ok compact ∧
      CompactEvidenceDecoder.new.decodeStream F malformed [] compact = .ok full) ∧
    ∀ (σ ε : Type) (receive : σ → ProtocolEvent → Except ε σ) (start : σ)
      (encoding : EvidenceEncoding),
      streamEvents F scanId (.owned receive) result encoding ⟨0, start⟩ =
        streamEvents F scanId (.borrowed receive) result encoding ⟨0, start⟩ ∧
      ∀ error, streamEvents F scanId (.owned receive) result encoding ⟨0, start⟩ = .error error →
        ∃ rejected, error = .sink rejected := by
  refine ⟨⟨_, _, recorded_eq result .full, recorded_eq result .compact, decodeStream_compact h⟩,
    fun σ ε receive start encoding => ⟨?_, fun error herror => ?_⟩⟩
  · rw [streamEvents_receive, streamEvents_receive]
    rfl
  · rw [streamEvents_receive] at herror
    split at herror
    · cases herror
    · exact ⟨_, (Except.error.inj herror).symm⟩

/-! ### Runs -/

/-- A profile of the worker. -/
def sampleProfile : Profile := ⟨"p", "rust", none, none, none, [], ∅, none, ∅⟩

/-- Defaults for the evidence of one extractor. -/
def sampleDefaults : List EvidencePropertyDefaults :=
  [⟨"rust", "1", .ofList [("edition", Value.string "2021")]⟩]

/-- Evidence that the defaults match. -/
def sampleEvidence : Evidence :=
  ⟨.source, "rust", "1", none, none, none, none, none, none, ∅⟩

/-- A site of a profile. -/
def sampleSite (profileId : String) (evidence : List Evidence) : DependencySite :=
  ⟨"s", "a", "import", "b", .resolved, ["b"], profileId, .all [], .exact, none, evidence⟩

/-- An edge of a profile. -/
def sampleEdge (siteId : Option String) (profileId : String) (evidence : List Evidence) : GraphEdge :=
  ⟨"e", "a", "b", "imports", siteId, .source, none, profileId, .all [], .resolved, .exact, false,
    evidence⟩

/-- A diagnostic. -/
def sampleDiagnostic (profileId : Option String) : Diagnostic :=
  ⟨"d", .info, "CODE", "message", profileId, none, none, none, none, none, [sampleEvidence], ∅⟩

/-- A scan result with these sites, edges and diagnostics. -/
def sampleResult (sites : List DependencySite) (edges : List GraphEdge)
    (diagnostics : List Diagnostic) : ScanResult :=
  ⟨"/r", sampleProfile, [], edges, sites, diagnostics, [], ⟨1, 0, 0, 0, 0, 0, 0, 0, 0, 0, false, [], []⟩,
    sampleDefaults⟩

/-- Two edges share the evidence of their site. -/
def sharedResult : ScanResult :=
  sampleResult [sampleSite "p" [sampleEvidence]]
    [sampleEdge (some "s") "p" [], sampleEdge (some "s") "p" [], sampleEdge none "p" [sampleEvidence]]
    [sampleDiagnostic (some "p")]

theorem sharedResult_encodable : Encodable .plain sharedResult where
  encodingFree := by decide +kernel
  defaultsFree := by decide +kernel
  defaultsValid := by decide +kernel
  sites := fun site hsite => Or.inl ((by decide +kernel :
    ∀ site ∈ sharedResult.sites, site.profileId = sharedResult.profile.id) site hsite)
  edges := fun edge hedge => Or.inl ((by decide +kernel :
    ∀ edge ∈ sharedResult.edges, edge.profileId = sharedResult.profile.id) edge hedge)
  diagnostics := fun diagnostic hdiagnostic => Or.inl ((by decide +kernel :
    ∀ diagnostic ∈ sharedResult.diagnostics,
      diagnostic.profileId = some sharedResult.profile.id) diagnostic hdiagnostic)
  linked := by
    intro edge hedge _ siteId hsite
    have hid : edge.siteId = none ∨ edge.siteId = some "s" := (by decide +kernel :
      ∀ edge ∈ sharedResult.edges, edge.siteId = none ∨ edge.siteId = some "s") edge hedge
    have hprofile : edge.profileId = "p" := (by decide +kernel :
      ∀ edge ∈ sharedResult.edges, edge.profileId = "p") edge hedge
    rcases hid with hid | hid
    · rw [hid] at hsite
      cases hsite
    · rw [hid] at hsite
      cases hsite
      exact ⟨hprofile, sampleSite "p" [sampleEvidence], rfl, hprofile.symm⟩
  unlinked := by
    intro edge hedge hempty hsite
    exact absurd hempty ((by decide +kernel : ∀ edge ∈ sharedResult.edges,
      edge.siteId = none → edge.evidence ≠ []) edge hedge hsite)

theorem compact_decodes_shared : Encodable .plain sharedResult ∧
    ∃ full compact, recorded .plain "scan" sharedResult .full = .ok full ∧
      recorded .plain "scan" sharedResult .compact = .ok compact ∧
      CompactEvidenceDecoder.new.decodeStream .plain (fun _ => "") [] compact = .ok full :=
  ⟨sharedResult_encodable,
    (compact_decodes .plain (fun _ => "") "scan" sharedResult sharedResult_encodable).1⟩

/-- The conditions that a scan result with unowned items also meets. -/
structure Declares (result : ScanResult) : Prop where
  encodingFree : evidenceEncodingProperty ∉ result.profile.properties
  defaultsFree : evidencePropertyDefaultsProperty ∉ result.profile.properties
  defaultsValid : validateDefaults result.profile.id result.evidencePropertyDefaults = .ok ()
  linked : ∀ edge ∈ result.edges, edge.evidence = [] → ∀ siteId, edge.siteId = some siteId →
    ∃ site ∈ result.sites, site.id = siteId ∧ site.profileId = edge.profileId

/-- The numbers of properties of the evidence in a payload. -/
def evidenceSizes : EventPayload → List Nat
  | .dependencySite site => site.evidence.map fun item => item.properties.size
  | .edgeUpsert edge => edge.evidence.map fun item => item.properties.size
  | .diagnostic diagnostic => diagnostic.evidence.map fun item => item.properties.size
  | _ => []

/-- The sizes in a decoded compact stream. -/
def decodedSizes (result : ScanResult) : Option (List (List Nat)) :=
  match CompactEvidenceDecoder.new.decodeStream .plain (fun _ => "") []
      (number "scan" 0 (payloads .plain result .compact)) with
  | .ok events => some (events.map fun event => evidenceSizes event.payload)
  | .error _ => none

/-- The sizes in a full stream. -/
def fullSizes (result : ScanResult) : List (List Nat) :=
  (number "scan" 0 (payloads .plain result .full)).map fun event => evidenceSizes event.payload

/-- An edge of the profile without evidence and without a site. -/
def unlinkedResult : ScanResult := sampleResult [] [sampleEdge none "p" []] []

/-- A site, an edge and a diagnostic of no declared profile, and an edge that shares the evidence of
that site. -/
def foreignResults : List ScanResult :=
  [sampleResult [sampleSite "q" [sampleEvidence]] [] [],
    sampleResult [] [sampleEdge none "q" [sampleEvidence]] [],
    sampleResult [] [] [sampleDiagnostic none],
    sampleResult [sampleSite "q" [{ sampleEvidence with extractor := "other" }]]
      [sampleEdge (some "s") "q" []] []]

theorem declares_of_mem : ∀ result ∈ unlinkedResult :: foreignResults, Declares result := by
  intro result hresult
  have hedges : ∀ edge ∈ result.edges, edge.siteId = none ∨ ∃ site ∈ result.sites,
      edge.siteId = some site.id ∧ site.profileId = edge.profileId := (by decide +kernel :
    ∀ result ∈ unlinkedResult :: foreignResults, ∀ edge ∈ result.edges, edge.siteId = none ∨
      ∃ site ∈ result.sites, edge.siteId = some site.id ∧ site.profileId = edge.profileId)
    result hresult
  refine ⟨?_, ?_, ?_, fun edge hedge _ siteId hsiteId => ?_⟩
  · exact (by decide +kernel : ∀ result ∈ unlinkedResult :: foreignResults,
      evidenceEncodingProperty ∉ result.profile.properties) result hresult
  · exact (by decide +kernel : ∀ result ∈ unlinkedResult :: foreignResults,
      evidencePropertyDefaultsProperty ∉ result.profile.properties) result hresult
  · exact (by decide +kernel : ∀ result ∈ unlinkedResult :: foreignResults,
      validateDefaults result.profile.id result.evidencePropertyDefaults = .ok ()) result hresult
  · rcases hedges edge hedge with hnone | ⟨site, hsite, hid, hprofile⟩
    · rw [hnone] at hsiteId
      cases hsiteId
    · exact ⟨site, hsite, Option.some.inj (hid.symm.trans hsiteId), hprofile⟩

/-- Their compact streams do not decode to their full streams: the decoder refuses an edge without
evidence and site, and leaves alone what no declared profile owns. -/
theorem compact_decodes_unowned : (unlinkedResult :: foreignResults).Forall fun result =>
    Declares result ∧ ∀ full compact, recorded .plain "scan" result .full = .ok full →
      recorded .plain "scan" result .compact = .ok compact →
      CompactEvidenceDecoder.new.decodeStream .plain (fun _ => "") [] compact ≠ .ok full := by
  refine List.forall_iff_forall_mem.2 fun result hresult =>
    ⟨declares_of_mem result hresult, fun full compact hfull hcompact hdecode => ?_⟩
  have hdiffer : decodedSizes result ≠ some (fullSizes result) := (by decide +kernel :
    ∀ result ∈ unlinkedResult :: foreignResults,
      decodedSizes result ≠ some (fullSizes result)) result hresult
  rw [recorded_eq] at hfull hcompact
  rw [← Except.ok.inj hfull, ← Except.ok.inj hcompact] at hdecode
  refine hdiffer ?_
  unfold decodedSizes
  rw [hdecode]
  rfl

end Worker
