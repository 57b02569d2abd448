import Depgraph.Library.EntryList
import Depgraph.Protocol.DeltaBase
import Depgraph.Protocol.DeltaSummary

/-!
# The evidence of a base

`from_protocol` numbers the evidence of every site and edge. The numbers are contiguous whatever the
length of a list, and the lists can be read back from the map as long as they are not longer than the
numbers reach.
-/

namespace Protocol

open Json Fallible OrderedMap Std

/-! ### Keys -/

theorem compare_ordinal (ownerType : DeltaEvidenceOwner) (ownerId : String) (j k : Nat) :
    compare (⟨ownerType, ownerId, j⟩ : DeltaEvidenceKey) ⟨ownerType, ownerId, k⟩ = compare j k := by
  change (compare ownerType.rank ownerType.rank).then
    ((compare ownerId ownerId).then (compare j k)) = _
  rw [compare_self, compare_self]
  rfl

theorem mem_ownedRecords {ownerType : DeltaEvidenceOwner} {ownerId : String}
    {evidence : List Evidence} {entry : DeltaEvidenceKey × Evidence} :
    entry ∈ ownedRecords ownerType ownerId evidence ↔ ∃ (ordinal : Nat) (item : Evidence),
      evidence[ordinal]? = some item ∧ (⟨ownerType, ownerId, ordinal % 2 ^ 32⟩, item) = entry := by
  simp only [ownedRecords, List.mem_mapIdx]
  constructor
  · rintro ⟨ordinal, hlt, heq⟩
    exact ⟨ordinal, evidence[ordinal], List.getElem?_eq_getElem hlt, heq⟩
  · rintro ⟨ordinal, item, hitem, heq⟩
    obtain ⟨hlt, hitem⟩ := List.getElem?_eq_some_iff.1 hitem
    exact ⟨ordinal, hlt, hitem ▸ heq⟩

/-- The numbers that are given to the evidence of an owner. -/
theorem mem_keys_ownedRecords {ownerType : DeltaEvidenceOwner} {ownerId : String}
    {evidence : List Evidence} {key : DeltaEvidenceKey} :
    key ∈ (ownedRecords ownerType ownerId evidence).map Prod.fst ↔
      key.ownerType = ownerType ∧ key.ownerId = ownerId ∧
        key.ordinal < min evidence.length (2 ^ 32) := by
  simp only [List.mem_map, mem_ownedRecords]
  constructor
  · rintro ⟨_, ⟨ordinal, item, hitem, rfl⟩, rfl⟩
    obtain ⟨hlt, -⟩ := List.getElem?_eq_some_iff.1 hitem
    refine ⟨rfl, rfl, lt_min ((Nat.mod_le _ _).trans_lt hlt) (Nat.mod_lt _ (Nat.two_pow_pos 32))⟩
  · obtain ⟨keyType, keyId, ordinal⟩ := key
    rintro ⟨rfl, rfl, hlt⟩
    obtain ⟨hlength, hsmall⟩ := lt_min_iff.1 hlt
    refine ⟨_, ⟨ordinal, _, List.getElem?_eq_getElem hlength, rfl⟩, ?_⟩
    rw [Nat.mod_eq_of_lt hsmall]

/-- Where the evidence of the base comes from. -/
theorem mem_protocolEvidence {sites : SiteMap} {edges : EdgeMap} {key : DeltaEvidenceKey} :
    key ∈ protocolEvidence sites edges ↔
      (∃ site ∈ values sites, key.ownerType = .site ∧ key.ownerId = site.id ∧
        key.ordinal < min site.evidence.length (2 ^ 32)) ∨
      ∃ edge ∈ values edges, key.ownerType = .edge ∧ key.ownerId = edge.id ∧
        key.ordinal < min edge.evidence.length (2 ^ 32) := by
  rw [protocolEvidence, mem_insertAll, List.map_append, List.mem_append, List.map_flatMap,
    List.map_flatMap, List.mem_flatMap, List.mem_flatMap]
  simp only [mem_keys_ownedRecords]
  exact or_iff_right ExtTreeMap.not_mem_empty

/-! ### Ordinals -/

/-- The loop over sorted keys accepts what is closed under smaller ordinals. -/
theorem validateOrdinalsFrom_of_closed {expected : DeltaEvidenceOwner × String → Nat}
    {keys : List DeltaEvidenceKey} (hsorted : keys.Pairwise fun a b => compare a b = .lt)
    (hfrom : ∀ key ∈ keys, expected key.owner ≤ key.ordinal)
    (hclosed : ∀ key ∈ keys, ∀ ordinal, expected key.owner ≤ ordinal → ordinal < key.ordinal →
      ⟨key.ownerType, key.ownerId, ordinal⟩ ∈ keys) :
    validateOrdinalsFrom expected keys = .ok () := by
  induction keys generalizing expected with
  | nil => rfl
  | cons first rest ih =>
    obtain ⟨hfirst, hrest⟩ := List.pairwise_cons.1 hsorted
    have hafter (other : DeltaEvidenceKey) (hother : other ∈ rest)
        (howner : other.owner = first.owner) : first.ordinal < other.ordinal := by
      obtain ⟨firstType, firstId, i⟩ := first
      obtain ⟨otherType, otherId, j⟩ := other
      obtain ⟨rfl, rfl⟩ := Prod.mk.inj howner
      have hlt := hfirst _ hother
      rw [compare_ordinal] at hlt
      exact compare_lt_iff_lt.1 hlt
    have hordinal : first.ordinal = expected first.owner := by
      refine (hfrom first List.mem_cons_self).antisymm' (le_of_not_gt fun hlt => ?_)
      have hmem := hclosed first List.mem_cons_self (expected first.owner) le_rfl hlt
      rcases List.mem_cons.1 hmem with heq | hmem
      · exact absurd (congrArg DeltaEvidenceKey.ordinal heq) (Nat.ne_of_lt hlt)
      · exact absurd (hafter _ hmem rfl) (not_lt_of_gt hlt)
    rw [validateOrdinalsFrom]
    simp only [bind_eq_ok, ensure_eq_ok, exists_const]
    refine ⟨hordinal, ih hrest (fun key hkey => ?_) fun key hkey ordinal hle hlt => ?_⟩
    · by_cases howner : key.owner = first.owner
      · rw [howner, Function.update_self, ← hordinal]
        exact hafter key hkey howner
      · rw [Function.update_of_ne howner]
        exact hfrom key (List.mem_cons_of_mem _ hkey)
    · by_cases howner : key.owner = first.owner
      · rw [howner, Function.update_self, ← hordinal] at hle
        have hmem := hclosed key (List.mem_cons_of_mem _ hkey) ordinal
          (by rw [howner, ← hordinal]; omega) hlt
        refine (List.mem_cons.1 hmem).resolve_left fun heq => ?_
        have := congrArg DeltaEvidenceKey.ordinal heq
        exact absurd this.symm (Nat.ne_of_lt hle)
      · rw [Function.update_of_ne howner] at hle
        have hmem := hclosed key (List.mem_cons_of_mem _ hkey) ordinal hle hlt
        refine (List.mem_cons.1 hmem).resolve_left fun heq => howner ?_
        rw [← heq]
        rfl

theorem validateEvidenceOrdinals_protocol (sites : SiteMap) (edges : EdgeMap) :
    validateEvidenceOrdinals (protocolEvidence sites edges) = .ok () := by
  refine validateOrdinalsFrom_of_closed ExtTreeMap.ordered_keys (fun _ _ => Nat.zero_le _) ?_
  intro key hkey ordinal _ hlt
  rw [ExtTreeMap.mem_keys, mem_protocolEvidence] at hkey ⊢
  rcases hkey with ⟨site, hsite, htype, hid, hbound⟩ | ⟨edge, hedge, htype, hid, hbound⟩
  · exact .inl ⟨site, hsite, htype, hid, hlt.trans hbound⟩
  · exact .inr ⟨edge, hedge, htype, hid, hlt.trans hbound⟩

/-! ### Reading the lists back -/

/-- No list of evidence is longer than the numbers reach. -/
structure ShortEvidence (sites : SiteMap) (edges : EdgeMap) : Prop where
  site : ∀ site ∈ values sites, site.evidence.length ≤ 2 ^ 32
  edge : ∀ edge ∈ values edges, edge.evidence.length ≤ 2 ^ 32

theorem ownedRecords_of_short {ownerType : DeltaEvidenceOwner} {ownerId : String}
    {evidence : List Evidence} (h : evidence.length ≤ 2 ^ 32) :
    ownedRecords ownerType ownerId evidence =
      evidence.mapIdx fun ordinal item => (⟨ownerType, ownerId, ordinal⟩, item) := by
  refine List.ext_getElem (by simp [ownedRecords]) fun ordinal hlt hlt' => ?_
  rw [ownedRecords, List.length_mapIdx] at hlt
  simp only [ownedRecords, List.getElem_mapIdx]
  rw [Nat.mod_eq_of_lt (hlt.trans_le h)]

theorem sorted_ownedRecords {ownerType : DeltaEvidenceOwner} {ownerId : String}
    {evidence : List Evidence} (h : evidence.length ≤ 2 ^ 32) :
    (ownedRecords ownerType ownerId evidence).Pairwise fun a b => compare a.1 b.1 = .lt := by
  rw [ownedRecords_of_short h, List.pairwise_iff_getElem]
  intro i j hi hj hij
  rw [List.getElem_mapIdx, List.getElem_mapIdx, compare_ordinal]
  exact compare_lt_iff_lt.2 hij

theorem map_snd_ownedRecords (ownerType : DeltaEvidenceOwner) (ownerId : String)
    (evidence : List Evidence) : (ownedRecords ownerType ownerId evidence).map Prod.snd = evidence := by
  refine List.ext_getElem (by simp [ownedRecords]) fun ordinal hlt hlt' => ?_
  simp [ownedRecords]

/-- Whether a key belongs to an owner. -/
def DeltaEvidenceKey.ownedBy (ownerType : DeltaEvidenceOwner) (ownerId : String)
    (key : DeltaEvidenceKey) : Bool :=
  key.ownerType == ownerType && key.ownerId == ownerId

theorem filter_ownedRecords {ownerType ownerType' : DeltaEvidenceOwner} {ownerId ownerId' : String}
    {evidence : List Evidence} :
    (ownedRecords ownerType' ownerId' evidence).filter (fun entry => entry.1.ownedBy ownerType ownerId) =
      if ownerType' = ownerType ∧ ownerId' = ownerId then ownedRecords ownerType' ownerId' evidence
      else [] := by
  have hkey (entry : DeltaEvidenceKey × Evidence)
      (hentry : entry ∈ ownedRecords ownerType' ownerId' evidence) :
      entry.1.ownerType = ownerType' ∧ entry.1.ownerId = ownerId' := by
    obtain ⟨ordinal, item, -, rfl⟩ := mem_ownedRecords.1 hentry
    exact ⟨rfl, rfl⟩
  split_ifs with howner
  · refine List.filter_eq_self.2 fun entry hentry => ?_
    obtain ⟨htype, hid⟩ := hkey entry hentry
    simp [DeltaEvidenceKey.ownedBy, htype, hid, howner]
  · refine List.filter_eq_nil_iff.2 fun entry hentry howned => howner ?_
    obtain ⟨htype, hid⟩ := hkey entry hentry
    simpa [DeltaEvidenceKey.ownedBy, htype, hid] using howned

/-- Of records with distinct ids, one has a given id. -/
theorem flatMap_ite_id {V W : Type} {id : V → String} {l : List V} (hnodup : (l.map id).Nodup)
    {v : V} (hv : v ∈ l) (f : V → List W) :
    (l.flatMap fun w => if id w = id v then f w else []) = f v := by
  induction l with
  | nil => cases hv
  | cons first rest ih =>
    rw [List.map_cons, List.nodup_cons] at hnodup
    rw [List.flatMap_cons]
    rcases List.mem_cons.1 hv with rfl | hrest
    · have hnone : (rest.flatMap fun w => if id w = id v then f w else []) = [] := by
        refine List.flatMap_eq_nil_iff.2 fun w hw => if_neg fun heq => hnodup.1 ?_
        exact heq ▸ List.mem_map_of_mem hw
      rw [if_pos rfl, hnone, List.append_nil]
    · have hne : id first ≠ id v := fun heq => hnodup.1 (heq ▸ List.mem_map_of_mem hrest)
      rw [if_neg hne, List.nil_append, ih hnodup.2 hrest]

variable {sites : SiteMap} {edges : EdgeMap}

/-- The entries of one owner among all. -/
theorem filter_entries_site (hsites : KeyedBy DependencySite.id sites) {site : DependencySite}
    (hsite : site ∈ values sites) :
    ((values sites).flatMap (fun site => ownedRecords .site site.id site.evidence) ++
      (values edges).flatMap fun edge => ownedRecords .edge edge.id edge.evidence).filter
        (fun entry => entry.1.ownedBy .site site.id) = ownedRecords .site site.id site.evidence := by
  have hnodup : ((values sites).map DependencySite.id).Nodup := by
    rw [map_key_values hsites, ← ExtTreeMap.map_fst_toList_eq_keys]
    exact keys_nodup
  rw [List.filter_append, List.filter_flatMap, List.filter_flatMap]
  simp only [filter_ownedRecords, true_and, reduceCtorEq, false_and, if_false]
  rw [flatMap_ite_id hnodup hsite]
  simp

theorem filter_entries_edge (hedges : KeyedBy GraphEdge.id edges) {edge : GraphEdge}
    (hedge : edge ∈ values edges) :
    ((values sites).flatMap (fun site => ownedRecords .site site.id site.evidence) ++
      (values edges).flatMap fun edge => ownedRecords .edge edge.id edge.evidence).filter
        (fun entry => entry.1.ownedBy .edge edge.id) = ownedRecords .edge edge.id edge.evidence := by
  have hnodup : ((values edges).map GraphEdge.id).Nodup := by
    rw [map_key_values hedges, ← ExtTreeMap.map_fst_toList_eq_keys]
    exact keys_nodup
  rw [List.filter_append, List.filter_flatMap, List.filter_flatMap]
  simp only [filter_ownedRecords, true_and, reduceCtorEq, false_and, if_false]
  rw [flatMap_ite_id hnodup hedge]
  simp

/-- The list of an owner is read back from entries that were written once. -/
theorem evidenceForOwner_insertAll {entries : List (DeltaEvidenceKey × Evidence)}
    {ownerType : DeltaEvidenceOwner} {ownerId : String} {evidence : List Evidence}
    (hentries : entries.filter (fun entry => entry.1.ownedBy ownerType ownerId) =
      ownedRecords ownerType ownerId evidence) (hshort : evidence.length ≤ 2 ^ 32) :
    evidenceForOwner (insertAll ∅ entries) ownerType ownerId = evidence := by
  have hsorted : (ownedRecords ownerType ownerId evidence).Pairwise
      (fun a b => compare a.1 b.1 = .lt) := sorted_ownedRecords hshort
  have hnodup : ((entries.filter fun entry => entry.1.ownedBy ownerType ownerId).map
      Prod.fst).Nodup := by
    rw [hentries]
    refine List.pairwise_map.2 (hsorted.imp fun hlt heq => ?_)
    rw [heq, compare_self] at hlt
    cases hlt
  have hperm := filter_toList_perm hnodup
  rw [hentries] at hperm
  have heq : (insertAll ∅ entries).toList.filter (fun entry => entry.1.ownedBy ownerType ownerId) =
      ownedRecords ownerType ownerId evidence := by
    refine List.Perm.eq_of_pairwise (fun a b _ _ hab hba => ?_)
      (ExtTreeMap.ordered_keys_toList.sublist List.filter_sublist) hsorted hperm
    rw [OrientedCmp.gt_of_lt hab] at hba
    cases hba
  change (((insertAll ∅ entries).toList.filter fun entry =>
    entry.1.ownedBy ownerType ownerId).map Prod.snd) = evidence
  rw [heq, map_snd_ownedRecords]

/-- The records with the evidence that a base keeps are the records of the stream. -/
theorem hydrated_of_short (hsites : KeyedBy DependencySite.id sites)
    (hedges : KeyedBy GraphEdge.id edges) (hshort : ShortEvidence sites edges) :
    (sites.map fun _ site => hydratedSite (protocolEvidence sites edges) site) = sites ∧
      (edges.map fun _ edge => hydratedEdge (protocolEvidence sites edges) edge) = edges := by
  constructor
  · refine map_eq_self fun id site hsite => ?_
    have hmem : site ∈ values sites := mem_values.2 ⟨id, hsite⟩
    rw [hydratedSite, protocolEvidence,
      evidenceForOwner_insertAll (filter_entries_site hsites hmem) (hshort.site site hmem)]
  · refine map_eq_self fun id edge hedge => ?_
    have hmem : edge ∈ values edges := mem_values.2 ⟨id, hedge⟩
    rw [hydratedEdge, protocolEvidence,
      evidenceForOwner_insertAll (filter_entries_edge hedges hmem) (hshort.edge edge hmem)]

end Protocol
