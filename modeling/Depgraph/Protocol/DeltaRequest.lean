import Depgraph.Library.EntryList
import Depgraph.Protocol.DeltaBase

/-!
# A request carries its base

The lists of a request are the entries of the maps of its base in the order of their keys, so the maps
that `base_graph` builds are those of the base, and the digest is the declared one.
-/

namespace Protocol

open Json Fallible OrderedMap

theorem requireNonEmpty_eq_ok {field value : String} {u : Unit} :
    requireNonEmpty field value = .ok u ↔ value ≠ "" := by
  unfold requireNonEmpty
  split_ifs with h
  · simp [invariant, h]
  · simp [h]

/-! ### Digests -/

theorem utf8_ofList (l : List Char) : utf8 (String.ofList l) = l.flatMap String.utf8EncodeChar := by
  rw [utf8, String.toUTF8, String.toByteArray_ofList, List.utf8Encode]
  exact List.data_toByteArray ▸ List.toList_toArray

theorem utf8EncodeChar_hexDigit : ∀ n < 16,
    String.utf8EncodeChar (hexDigit n) = [UInt8.ofNat (hexDigit n).toNat] ∧
      isHexByte (UInt8.ofNat (hexDigit n).toNat) = true := by
  decide

theorem isSha256Hex_toHex (d : Digest) : isSha256Hex d.toHex = true := by
  have hbyte (b : UInt8) : ∃ high low : UInt8, [hexDigit (b.toNat / 16), hexDigit (b.toNat % 16)].flatMap
      String.utf8EncodeChar = [high, low] ∧ isHexByte high = true ∧ isHexByte low = true := by
    have hb : b.toNat < 256 := b.toNat_lt
    obtain ⟨hhigh, hhighHex⟩ := utf8EncodeChar_hexDigit (b.toNat / 16) (by omega)
    obtain ⟨hlow, hlowHex⟩ := utf8EncodeChar_hexDigit (b.toNat % 16) (by omega)
    refine ⟨_, _, ?_, hhighHex, hlowHex⟩
    rw [List.flatMap_cons, List.flatMap_singleton, hhigh, hlow]
    rfl
  have key (bytes : List UInt8) :
      ((bytes.flatMap fun b => [hexDigit (b.toNat / 16), hexDigit (b.toNat % 16)]).flatMap
        String.utf8EncodeChar).length = 2 * bytes.length ∧
      ((bytes.flatMap fun b => [hexDigit (b.toNat / 16), hexDigit (b.toNat % 16)]).flatMap
        String.utf8EncodeChar).all isHexByte = true := by
    induction bytes with
    | nil => exact ⟨rfl, rfl⟩
    | cons b bytes ih =>
      obtain ⟨high, low, hpair, hhigh, hlow⟩ := hbyte b
      rw [List.flatMap_cons, List.flatMap_append, hpair, List.length_append, List.all_append, ih.1,
        ih.2, List.length_cons]
      refine ⟨?_, by simp [hhigh, hlow]⟩
      change 2 + 2 * bytes.length = 2 * (bytes.length + 1)
      omega
  obtain ⟨hlength, hall⟩ := key d.bytes
  rw [isSha256Hex, Digest.toHex, utf8_ofList, hlength, hall, d.size]
  rfl

/-- `strip_prefix` finds the namespace that the identity was made with. -/
theorem deltaGraphDigest_hex (S : StableIds) (graph : DeltaGraph) :
    isSha256Hex (deltaGraphDigest S graph) = true := by
  rw [deltaGraphDigest]
  simp only [StableIds.stableIdFromValue, String.toList_append, List.append_assoc]
  rw [← List.append_assoc, List.drop_left' (by decide), String.ofList_toList]
  exact isSha256Hex_toHex _

/-! ### The collections -/

section

variable {graph : DeltaGraph}

theorem sorted_workerRequestPayload (hkeys : KeysMatch graph)
    (hcoverage : KeyedBy DeltaCoverage.key graph.coverage) : graph.workerRequestPayload.Sorted := by
  refine ⟨string_toList_isChain _, ?_, ?_, ?_, ?_, ?_⟩
  · rw [DeltaGraph.workerRequestPayload, map_key_values hkeys.node]
    exact string_keys_isChain _
  · rw [DeltaGraph.workerRequestPayload, map_key_values hkeys.site]
    exact string_keys_isChain _
  · rw [DeltaGraph.workerRequestPayload, map_key_values hkeys.edge]
    exact string_keys_isChain _
  · have hrecords : graph.workerRequestPayload.evidence.map DeltaEvidenceRecord.key =
        graph.evidence.keys := by
      rw [DeltaGraph.workerRequestPayload, List.map_map]
      exact Std.ExtTreeMap.map_fst_toList_eq_keys
    rw [hrecords]
    exact keys_isChain _
  · rw [DeltaGraph.workerRequestPayload, map_key_values hcoverage]
    exact keys_isChain _

theorem foldlM_insertProfile (profiles : IdSet) :
    profiles.toList.foldlM insertProfile ∅ = .ok profiles := by
  have key (ids : List String) (base : IdSet) (hnodup : ids.Nodup) (hnew : ∀ id ∈ ids, id ∉ base) :
      ∃ final : IdSet, ids.foldlM insertProfile base = .ok final ∧
        ∀ id, id ∈ final ↔ id ∈ base ∨ id ∈ ids := by
    induction ids generalizing base with
    | nil => exact ⟨base, rfl, fun id => by simp⟩
    | cons first rest ih =>
      rw [List.nodup_cons] at hnodup
      have hstep : insertProfile base first = .ok (base.insert first) :=
        bind_of_ok (a := ()) (ensure_eq_ok.2 (hnew first List.mem_cons_self)) _
      obtain ⟨final, hfinal, hmem⟩ := ih (base.insert first) hnodup.2 fun id hid => by
        rw [mem_insert]
        rintro (rfl | hbase)
        · exact hnodup.1 hid
        · exact hnew id (List.mem_cons_of_mem _ hid) hbase
      refine ⟨final, by rw [List.foldlM_cons, hstep, ok_bind, hfinal], fun id => ?_⟩
      rw [hmem, mem_insert, List.mem_cons]
      tauto
  obtain ⟨final, hfinal, hmem⟩ := key profiles.toList ∅
    ((string_toList_isChain profiles).pairwise.imp fun h => ne_of_lt h)
    fun id _ => Std.ExtTreeSet.not_mem_empty
  rw [hfinal]
  refine congrArg _ (Std.ExtTreeSet.ext_mem fun id => ?_)
  rw [hmem, Std.ExtTreeSet.mem_toList]
  exact or_iff_right Std.ExtTreeSet.not_mem_empty

theorem insertOnce_of_new {K V : Type} [Ord K] [Std.TransOrd K] {entity : String} {name : K → String}
    (m : Std.ExtTreeMap K V) (entry : K × V) (h : entry.1 ∉ m) :
    insertOnce entity name m entry = .ok (m.insert entry.1 entry.2) :=
  bind_of_ok (a := ()) (ensure_eq_ok.2 h) _

end

/-! ### The request -/

/-- What a caller provides besides the base. -/
structure RequestFields (scanId adapter : String) (changes : List WorkerDeltaFileChange)
    (scope : DeltaScope) : Prop where
  scan_id : scanId ≠ ""
  producer : adapter ≠ ""
  adapters : scope.adapters = [adapter]
  closure : validateScope scope = .ok ()
  sorted : validateChanges scope changes = .ok ()

variable {S : StableIds}

theorem buildBaseGraph_payload {request : WorkerDeltaRequest} {base : DeltaBaseGraph}
    (hkeys : KeysMatch base.toDeltaGraph) (hcoverage : KeyedBy DeltaCoverage.key base.coverage)
    (hdigest : base.graphDigest = deltaGraphDigest S base.toDeltaGraph)
    (hpayload : request.baseGraph = base.workerRequestPayload)
    (hid : request.baseSnapshotId = base.snapshotId)
    (hdeclared : request.baseGraphDigest = base.graphDigest) :
    request.buildBaseGraph S = .ok base := by
  have hrecords : (base.workerRequestPayload.evidence.map fun entry => (entry.key, entry.evidence)) =
      base.evidence.toList := by
    rw [DeltaGraph.workerRequestPayload, List.map_map]
    exact List.map_id _
  rw [WorkerDeltaRequest.buildBaseGraph, hpayload, hrecords]
  simp only [DeltaGraph.workerRequestPayload, foldlM_insertProfile, entries_values hkeys.node,
    entries_values hkeys.site, entries_values hkeys.edge, entries_values hcoverage,
    foldlM_toList insertOnce_of_new, ok_bind]
  rw [hid, hdeclared]
  exact bind_of_ok (a := ()) (ensure_eq_ok.2 hdigest.symm) _

/-- **A request that is made from a keyed base passes its checks and gives the base back.** -/
theorem newWithMode_ok {scanId adapter : String} {changes : List WorkerDeltaFileChange}
    {scope : DeltaScope} {base : DeltaBaseGraph} (hfields : RequestFields scanId adapter changes scope)
    (hkeys : KeysMatch base.toDeltaGraph) (hcoverage : KeyedBy DeltaCoverage.key base.coverage)
    (hid : validateStableId "worker delta request base snapshot ID" base.snapshotId
      (some "snapshot") = .ok ())
    (hdigest : base.graphDigest = deltaGraphDigest S base.toDeltaGraph)
    (analysisMode : WorkerDeltaAnalysisMode) :
    ∃ request, WorkerDeltaRequest.newWithMode S scanId adapter analysisMode changes scope base =
        .ok request ∧
      request.validate S = .ok () ∧ request.buildBaseGraph S = .ok base := by
  let request : WorkerDeltaRequest := ⟨workerDeltaRequestSchemaVersion, protocolVersion, scanId, adapter,
    analysisMode, base.snapshotId, base.graphDigest, changes, scope, base.workerRequestPayload⟩
  have hbuild : request.buildBaseGraph S = .ok base :=
    buildBaseGraph_payload hkeys hcoverage hdigest rfl rfl rfl
  have hvalid : request.validate S = .ok () := by
    simp only [WorkerDeltaRequest.validate, bind_eq_ok, ensure_eq_ok, check_eq_ok,
      requireNonEmpty_eq_ok, exists_const]
    refine ⟨rfl, rfl, hfields.scan_id, hfields.producer, (), hid, (), ?_, (), hfields.closure,
      hfields.adapters, (), hfields.sorted, sorted_workerRequestPayload hkeys hcoverage, base, hbuild,
      rfl, rfl⟩
    rw [validateDigest, ensure_eq_ok]
    change isSha256Hex base.graphDigest = true
    rw [hdigest]
    exact deltaGraphDigest_hex S _
  refine ⟨request, ?_, hvalid, hbuild⟩
  rw [WorkerDeltaRequest.newWithMode]
  exact bind_of_ok hvalid _

end Protocol
