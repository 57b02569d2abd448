import Depgraph.ContractScan.ProtobufDenotes

/-!
# Fields and methods of a descriptor

The shape of a field of a descriptor is computed from its numbers and type names. It is the shape of
the field of the source file exactly when the two agree on label and type.
-/

namespace ContractScan

open Std Fallible OrderedMap

/-! ### Names -/

theorem canonicalType_findInScopes (name : String) (allTypes : ExtTreeSet String)
    (scopes : List String) : findInScopes name allTypes scopes =
      (scopes.map (inScope · name)).find? (allTypes.contains ·) := by
  induction scopes with
  | nil => rfl
  | cons scope rest ih =>
    rw [findInScopes, List.map_cons, List.find?_cons, ih]
    by_cases hmem : inScope scope name ∈ allTypes
    · rw [if_pos hmem, ExtTreeSet.contains_iff_mem.2 hmem]
    · rw [if_neg hmem, Bool.eq_false_iff.2 (mt ExtTreeSet.contains_iff_mem.1 hmem)]

/-- **`canonical_type` takes the first candidate that is declared.** -/
theorem canonicalType_eq_iff {raw scope package full : String} {allTypes : ExtTreeSet String} :
    canonicalType raw scope package allTypes = full ↔ ReadAs allTypes package scope raw full := by
  rw [canonicalType, ReadAs]
  by_cases hword : isScalarType raw = true ∨ isMapType raw = true
  · rw [if_pos hword, if_pos (by rwa [Bool.or_eq_true]), eq_comm]
  · rw [if_neg hword, if_neg (by rwa [Bool.or_eq_true])]
    by_cases hroot : raw.toList.head? = some '.'
    · rw [if_pos hroot, if_pos (Or.inl hroot), eq_comm]
    · rw [if_neg hroot, candidates, List.find?_cons, canonicalType_findInScopes, List.find?_append,
        List.find?_singleton, eq_comm (a := full)]
      by_cases hwhole : trimDots raw ∈ allTypes
      · rw [if_pos (Or.inr hwhole), ExtTreeSet.contains_iff_mem.2 hwhole]
        rfl
      · rw [if_neg (not_or.2 ⟨hroot, hwhole⟩),
          Bool.eq_false_iff.2 (mt ExtTreeSet.contains_iff_mem.1 hwhole)]
        cases ((scopes scope).map (inScope · (trimDots raw))).find? (allTypes.contains ·) with
        | some candidate => rfl
        | none =>
          by_cases hpackage : inScope package (trimDots raw) ∈ allTypes
          · simp [hpackage, ExtTreeSet.contains_iff_mem.2 hpackage]
          · simp [hpackage, Bool.eq_false_iff.2 (mt ExtTreeSet.contains_iff_mem.1 hpackage)]

/-- A full name has no dots to trim. -/
theorem trimDots_of_full {name : String} (h : name.toList.head? ≠ some '.') :
    trimDots name = name := by
  have hdrop : name.toList.dropWhile (· == '.') = name.toList := by
    cases hname : name.toList with
    | nil => rfl
    | cons c rest =>
      rw [hname, List.head?_cons, ne_eq, Option.some.injEq] at h
      rw [List.dropWhile_cons_of_neg (by simpa using h)]
  rw [trimDots, hdrop, String.ofList_toList]

theorem trimDots_dot {name : String} (h : name.toList.head? ≠ some '.') :
    trimDots ("." ++ name) = name := by
  have htext : ("." ++ name).toList = '.' :: name.toList := by
    rw [String.toList_append]
    rfl
  have htrim := trimDots_of_full h
  rw [trimDots] at htrim
  rw [trimDots, htext, List.dropWhile_cons_of_pos rfl, htrim]

theorem toList_mapText (key value : String) :
    (mapText key value).toList = "map<".toList ++ (key.toList ++ ',' :: (value.toList ++ ['>'])) := by
  rw [mapText]
  simp only [String.toList_append, List.append_assoc]
  rfl

theorem isMapType_mapText (key value : String) : isMapType (mapText key value) = true := by
  rw [isMapType, toList_mapText, List.isPrefixOf_iff_prefix]
  exact List.prefix_append _ _

theorem not_comma_of_scalar {key : String} (h : IsScalarWord key) : ',' ∉ key.toList := by
  have hall : ∀ word ∈ scalarTypes.map Prod.snd, ',' ∉ word.toList := by decide +kernel
  exact hall key h

theorem isMapType_of_full {name : String} (h : '<' ∉ name.toList) : isMapType name = false := by
  rw [isMapType, Bool.eq_false_iff, ne_eq, List.isPrefixOf_iff_prefix]
  intro hprefixed
  exact h (hprefixed.subset (by decide))

theorem isMapType_of_scalar {word : String} (h : IsScalarWord word) : isMapType word = false := by
  have hall : ∀ word ∈ scalarTypes.map Prod.snd, isMapType word = false := by decide +kernel
  exact hall word h

/-- The key and the value of a map type can be read back. -/
theorem mapText_inj {key key' value value' : String} (hkey : IsScalarWord key)
    (hkey' : IsScalarWord key') (h : mapText key value = mapText key' value') :
    key = key' ∧ value = value' := by
  have hlist := congrArg String.toList h
  rw [toList_mapText, toList_mapText, List.append_cancel_left_eq] at hlist
  have htake {word rest : List Char} (hword : ',' ∉ word) :
      (word ++ ',' :: rest).takeWhile (· ≠ ',') = word := by
    rw [List.takeWhile_append_of_pos (fun c hc => by
      simpa using fun heq : c = ',' => hword (heq ▸ hc)), List.takeWhile_cons_of_neg (by simp),
      List.append_nil]
  have hkeys : key.toList = key'.toList := by
    rw [← htake (not_comma_of_scalar hkey), hlist, htake (not_comma_of_scalar hkey')]
  rw [hkeys, List.append_cancel_left_eq, List.cons.injEq] at hlist
  exact ⟨String.toList_inj.1 hkeys, String.toList_inj.1 (List.append_cancel_right hlist.2)⟩

/-! ### Types -/

section

variable {resolve : String → String → String} {scope raw : String} {field : FieldDescriptorProto}
  {entries : ExtTreeMap String String}

theorem fieldTypeWord_scalar {number : Int} {word : String} (h : (number, word) ∈ scalarTypes) :
    fieldTypeWord number = .ok word := by
  have hall : ∀ entry ∈ scalarTypes, fieldTypeWord entry.1 = .ok entry.2 := by
    rw [scalarTypes]
    simp only [List.forall_mem_cons, List.not_mem_nil, false_implies, implies_true, and_true]
    repeat' apply And.intro
    all_goals rfl
  exact hall _ h

theorem typeGiven_of_ok {typeName : String} (h : descriptorFieldType field entries = .ok typeName) :
    TypeGiven field := by
  intro written hwritten
  rw [descriptorFieldType, hwritten] at h
  dsimp only at h
  split_ifs at h with hbounded
  exact hbounded

/-- A field has the type that its name stands for, where that is not an entry message. -/
theorem DenotesType.fieldType (h : DenotesType resolve scope raw field) (hgiven : TypeGiven field)
    (hentry : ¬ IsScalarWord raw → entries[resolve scope raw]? = none) :
    descriptorFieldType field entries = .ok (denotedType resolve scope raw) := by
  rw [descriptorFieldType, denotedType]
  by_cases hscalar : IsScalarWord raw
  · obtain ⟨htype, number, hnumber, hmem⟩ := h.scalar hscalar
    rw [htype, if_pos hscalar]
    change required field.fieldType _ >>= fieldTypeWord = _
    rw [hnumber, required_some, ok_bind, fieldTypeWord_scalar hmem]
  · obtain ⟨htype, hfull⟩ := h.named hscalar
    have hbounded := hgiven _ htype
    rw [htype, if_neg hscalar]
    dsimp only
    rw [if_pos hbounded, trimDots_dot hfull.1, hentry hscalar, Option.getD_none]

theorem isMapType_denotedType (h : DenotesType resolve scope raw field) :
    isMapType (denotedType resolve scope raw) = false := by
  rw [denotedType]
  by_cases hscalar : IsScalarWord raw
  · rw [if_pos hscalar, isMapType_of_scalar hscalar]
  · rw [if_neg hscalar, isMapType_of_full (h.named hscalar).2.2]

end

/-! ### Fields -/

section

variable {resolve : String → String → String} {source : ProtoFile}
  {scope : String} {messages : List (String × DescriptorProto)}
  {oneofDecl : List OneofDescriptorProto} {oneofs : List String} {field : ProtoField}
  {descriptor : FieldDescriptorProto} {entries : ExtTreeMap String String}

/-- What is known of the entry messages: they are found by their coordinates, with the text of their
map type, and nothing else is found. -/
structure EntriesOf (resolve : String → String → String) (messages : List (String × DescriptorProto))
    (entries : ExtTreeMap String String) : Prop where
  only : ∀ name ∈ entries, ∃ node ∈ messages, node.1 = name ∧ node.2.isMapEntry = true
  text : ∀ coordinate entry keyField valueField scope key value, (coordinate, entry) ∈ messages →
    entry.isMapEntry = true → entry.field = [keyField, valueField] →
    DenotesType resolve scope key keyField → DenotesType resolve scope value valueField →
    entries[coordinate]? =
      some (mapText (denotedType resolve scope key) (denotedType resolve scope value))

theorem descriptorFieldLabel_denoted (h : DenotesLabel source.version field.label descriptor) :
    ∃ label, descriptorFieldLabel descriptor source.version = .ok label ∧
      (field.label = label ↔ (field.label = .normal → source.version = "proto3")) := by
  rw [descriptorFieldLabel]
  cases hlabel : field.label with
  | normal =>
    rw [hlabel] at h
    rw [h.1]
    by_cases hversion : source.version = "proto3"
    · exact ⟨.normal, if_pos ⟨hversion, h.2⟩, by simp [hversion]⟩
    · exact ⟨.optional, if_neg fun hboth => hversion hboth.1, by simp [hversion]⟩
  | optional =>
    rw [hlabel] at h
    rw [h.1]
    exact ⟨.optional, if_neg fun hboth => hboth.2 (h.2.2 hboth.1), by simp⟩
  | required =>
    rw [hlabel] at h
    rw [h.1]
    exact ⟨.required, rfl, by simp⟩
  | repeated =>
    rw [hlabel] at h
    rw [h.1]
    exact ⟨.repeated, rfl, by simp⟩

theorem descriptorOneof_denoted {oneof : Option String}
    (honeofs : oneofDecl.mapM (fun oneof => requiredName oneof.name) = .ok oneofs)
    (h : DenotesOneof oneofDecl oneof descriptor) : descriptorOneof oneofs descriptor = .ok oneof := by
  rw [descriptorOneof]
  unfold DenotesOneof at h
  by_cases hsynthetic : descriptor.proto3Optional = some true
  · rw [if_pos hsynthetic] at h ⊢
    rw [h]
  · rw [if_neg hsynthetic] at h ⊢
    cases oneof with
    | none => rw [h]
    | some name =>
      obtain ⟨index, hindex, hname⟩ := h
      obtain ⟨declared, hdeclared, hdeclaredName⟩ := Option.bind_eq_some_iff.1 hname
      obtain ⟨found, hfound, htext⟩ := getElem?_of_mapM honeofs hdeclared
      have hsame : declared.name = some found := (requiredName_eq_ok.1 htext).1
      obtain rfl : name = found := Option.some.inj (hdeclaredName.symm.trans hsame)
      rw [hindex]
      dsimp only
      rw [if_pos (Int.natCast_nonneg index), Int.toNat_natCast, hfound]
      rfl

/-- **The two shapes of a field are equal exactly when they agree on label and type.** -/
theorem DenotesField.shape (allTypes : ExtTreeSet String)
    (h : DenotesField resolve source.version scope messages oneofDecl field descriptor)
    (hentries : EntriesOf resolve messages entries)
    (honeofs : oneofDecl.mapM (fun oneof => requiredName oneof.name) = .ok oneofs)
    (hgiven : TypeGiven descriptor) :
    ∃ shape, descriptorFieldShape source.version entries oneofs descriptor = .ok shape ∧
      (sourceField source allTypes scope field = shape ↔
        FieldAgrees resolve source allTypes scope field) := by
  have hnumber : required (descriptor.number.filter fun number => 0 < number)
      "protobuf-descriptor-field-number-invalid" = .ok field.number := by
    rw [required_eq_ok, h.number.1, Option.filter_some, if_pos (by simpa using h.number.2)]
  rcases h.type with hplain | ⟨key, value, hmap⟩
  · have hentry : ¬ IsScalarWord field.typeName → entries[resolve scope field.typeName]? = none :=
      fun hnamed => not_mem_iff.1 fun hmem => hplain.notEntry hnamed (hentries.only _ hmem)
    obtain ⟨label, hlabel, hlabelIff⟩ := descriptorFieldLabel_denoted hplain.label
    refine ⟨⟨field.number, label, denotedType resolve scope field.typeName, field.oneof⟩, ?_, ?_⟩
    · rw [descriptorFieldShape, bind_of_ok (hplain.type.fieldType hgiven hentry),
        isMapType_denotedType hplain.type, if_neg Bool.false_ne_true, bind_of_ok hlabel]
      change descriptorOneof oneofs descriptor >>= _ = _
      rw [bind_of_ok (descriptorOneof_denoted honeofs hplain.oneof), bind_of_ok hnumber]
      rfl
    · rw [sourceField, FieldShape.mk.injEq, canonicalType_eq_iff, hlabelIff]
      constructor
      · rintro ⟨-, hl, ht, -⟩
        refine ⟨fun _ => hl, fun _ => ht, fun key value _ htext => ?_⟩
        have hnot := hplain.plain
        rw [htext, isMapType_mapText] at hnot
        cases hnot
      · intro hagrees
        exact ⟨rfl, hagrees.label hplain.plain, hagrees.type hplain.plain, rfl⟩
  · obtain ⟨coordinate, entry, keyField, valueField, hmem, hisEntry, hfields, hkey, hkeyType,
      hvalueType, htypeName, hcoordinate⟩ := hmap.entry
    have htext := hentries.text coordinate entry keyField valueField scope key value hmem hisEntry
      hfields hkeyType hvalueType
    have htype : descriptorFieldType descriptor entries = .ok
        (mapText (denotedType resolve scope key) (denotedType resolve scope value)) := by
      rw [descriptorFieldType, htypeName]
      dsimp only
      rw [if_pos (hgiven _ htypeName), trimDots_dot hcoordinate, htext, Option.getD_some]
    have hnotOptional : descriptorOneof oneofs descriptor = .ok none := by
      rw [descriptorOneof, if_neg hmap.label.2.2, hmap.oneof.2]
    refine ⟨⟨field.number, .normal,
      mapText (denotedType resolve scope key) (denotedType resolve scope value), none⟩, ?_, ?_⟩
    · rw [descriptorFieldShape, bind_of_ok htype, isMapType_mapText, if_pos rfl, ok_bind]
      change descriptorOneof oneofs descriptor >>= _ = _
      rw [bind_of_ok hnotOptional, bind_of_ok hnumber]
      rfl
    · have hraw : canonicalType field.typeName scope source.package allTypes = mapText key value := by
        rw [canonicalType, hmap.type, isMapType_mapText, Bool.or_true, if_pos rfl]
      have hkeyDenoted : denotedType resolve scope key = key := if_pos hkey
      rw [sourceField, FieldShape.mk.injEq, hraw, hkeyDenoted]
      constructor
      · rintro ⟨-, -, ht, -⟩
        refine ⟨fun hplain => ?_, fun hplain => ?_, fun key' value' hkey' htext' => ?_⟩
        · rw [hmap.type, isMapType_mapText] at hplain
          cases hplain
        · rw [hmap.type, isMapType_mapText] at hplain
          cases hplain
        · obtain ⟨rfl, rfl⟩ := mapText_inj hkey hkey' (hmap.type.symm.trans htext')
          exact (mapText_inj hkey hkey ht).2
      · intro hagrees
        exact ⟨rfl, hmap.label.1, by rw [← hagrees.map key value hkey hmap.type], hmap.oneof.1⟩

end

/-! ### Methods -/

theorem textGiven_iff {value : Option String} :
    TextGiven value ↔ ∃ text, requiredName value = .ok text := by
  simp only [TextGiven, requiredName_eq_ok]

/-- **The two shapes of a method are equal exactly when both type names are read as denoted.** -/
theorem DenotesMethod.shape {resolve : String → String → String} {source : ProtoFile}
    (allTypes : ExtTreeSet String) {method : ProtoMethod} {descriptor : MethodDescriptorProto}
    (h : DenotesMethod resolve source.package method descriptor)
    (hinput : TextGiven descriptor.inputType) (houtput : TextGiven descriptor.outputType) :
    ∃ shape, descriptorMethodShape descriptor = .ok shape ∧
      (sourceMethod source allTypes method = shape ↔
        ReadAs allTypes source.package source.package method.inputType
          (resolve source.package method.inputType) ∧
        ReadAs allTypes source.package source.package method.outputType
          (resolve source.package method.outputType)) := by
  obtain ⟨input, hin⟩ := textGiven_iff.1 hinput
  obtain ⟨output, hout⟩ := textGiven_iff.1 houtput
  obtain rfl := Option.some.inj ((requiredName_eq_ok.1 hin).1.symm.trans h.input.1)
  obtain rfl := Option.some.inj ((requiredName_eq_ok.1 hout).1.symm.trans h.output.1)
  refine ⟨⟨trimDots ("." ++ resolve source.package method.inputType),
    trimDots ("." ++ resolve source.package method.outputType),
    descriptor.clientStreaming.getD false, descriptor.serverStreaming.getD false⟩, ?_, ?_⟩
  · rw [descriptorMethodShape, bind_of_ok hin, bind_of_ok hout]
    rfl
  · rw [sourceMethod, MethodShape.mk.injEq, trimDots_dot h.input.2.1, trimDots_dot h.output.2.1,
      canonicalType_eq_iff, canonicalType_eq_iff, h.client, h.server]
    tauto

end ContractScan
