import Depgraph.ContractScan.ProtobufMessages
import Depgraph.Library.EntryList

/-!
# A descriptor has the shape of its own source file

For a descriptor that states the declarations of a file, the two shapes are computed and equal exactly
when its texts are given and every field and every method agrees (`Agrees`).
-/

namespace ContractScan

open Std Fallible OrderedMap

variable {resolve : String → String → String} {source : ProtoFile}
  {descriptor : FileDescriptorProto}

/-! ### Imports -/

theorem foldlM_indexes {count : Nat} {indexes : List Int} {init : ExtTreeSet Nat}
    (hnodup : indexes.Nodup) (hrange : ∀ value ∈ indexes, 0 ≤ value ∧ value.toNat < count)
    (hnew : ∀ value ∈ indexes, value.toNat ∉ init) :
    ∃ found, indexes.foldlM (fun indexes value => do
        check (0 ≤ value ∧ value.toNat < count) "protobuf-descriptor-import-index-invalid"
        check (value.toNat ∉ indexes) "protobuf-descriptor-import-index-duplicate"
        pure (indexes.insert value.toNat)) init = (.ok found : Except String (ExtTreeSet Nat)) ∧
      ∀ index : Nat, index ∈ found ↔ index ∈ init ∨ (index : Int) ∈ indexes := by
  induction indexes generalizing init with
  | nil => exact ⟨init, rfl, by simp⟩
  | cons value rest ih =>
    rw [List.nodup_cons] at hnodup
    obtain ⟨hvalue, hrest⟩ := List.forall_mem_cons.1 hrange
    obtain ⟨hnewValue, hnewRest⟩ := List.forall_mem_cons.1 hnew
    obtain ⟨found, hfound, hmem⟩ := @ih (init.insert value.toNat) hnodup.2 hrest
      fun other hother hmem => by
        rcases mem_insert.1 hmem with heq | hmem
        · have := (hrest other hother).1
          have := hvalue.1
          exact hnodup.1 ((by omega : value = other) ▸ hother)
        · exact hnewRest other hother hmem
    refine ⟨found, ?_, fun index => ?_⟩
    · rw [List.foldlM_cons, bind_of_ok (check_of hvalue _), bind_of_ok (check_of hnewValue _)]
      exact hfound
    · have hcast : index = value.toNat ↔ (index : Int) = value := by
        have := hvalue.1
        omega
      rw [hmem, mem_insert, List.mem_cons, hcast]
      tauto

theorem DenotesKind.indexSet {imports : List ProtoImport} {kind : ImportKind} {indexes : List Int}
    (h : DenotesKind imports kind indexes) :
    ∃ found, descriptorIndexSet indexes imports.length = .ok found ∧
      ∀ index : Nat, index ∈ found ↔ (imports[index]?).map ProtoImport.kind = some kind := by
  have hrange : ∀ value ∈ indexes, 0 ≤ value ∧ value.toNat < imports.length := by
    intro value hmem
    obtain ⟨index, rfl, hkind⟩ := (h.2 value).1 hmem
    obtain ⟨declared, hdeclared, -⟩ := Option.map_eq_some_iff.1 hkind
    exact ⟨Int.natCast_nonneg index, (List.getElem?_eq_some_iff.1 hdeclared).1⟩
  obtain ⟨found, hfound, hmem⟩ := @foldlM_indexes _ _ ∅ h.1 hrange fun _ _ =>
    ExtTreeSet.not_mem_empty
  refine ⟨found, hfound, fun index => ?_⟩
  rw [hmem, h.2]
  simp

/-- The imports of the descriptor are those of the source file, as far as they are admitted. -/
theorem Denotes.importShapes (h : Denotes resolve source descriptor)
    (hnodup : (source.imports.map ProtoImport.path).Nodup) :
    ∃ publicIndexes weakIndexes,
      descriptorIndexSet descriptor.publicDependency descriptor.dependency.length =
        .ok publicIndexes ∧
      descriptorIndexSet descriptor.weakDependency descriptor.dependency.length = .ok weakIndexes ∧
      publicIndexes.toList.all (fun index => !weakIndexes.contains index) = true ∧
      ∃ imports, source.imports.foldlM (fun imports declared =>
          insertSame imports declared.path declared.kind "duplicate-protobuf-import") ∅ =
            .ok imports ∧
        ∀ found, descriptor.dependency.zipIdx.foldlM (fun imports entry => do
            check (validProtoLocator entry.1 = true) "protobuf-descriptor-import-out-of-root"
            insertSame imports entry.1 (dependencyKind publicIndexes weakIndexes entry.2)
              "duplicate-protobuf-descriptor-import") ∅ = .ok found ↔
          (∀ path ∈ descriptor.dependency, validProtoLocator path = true) ∧ found = imports := by
  have hlength : descriptor.dependency.length = source.imports.length := by
    rw [h.imports, List.length_map]
  obtain ⟨publicIndexes, hpublic, hpublicMem⟩ := h.publicImports.indexSet
  obtain ⟨weakIndexes, hweak, hweakMem⟩ := h.weakImports.indexSet
  have hsource : CollectStep ProtoImport.path (fun _ => True)
      (fun declared => (.ok declared.kind : Except String ImportKind))
      (fun imports declared => insertSame imports declared.path declared.kind
        "duplicate-protobuf-import") :=
    collectStep_insertSame "duplicate-protobuf-import" fun _ _ => rfl
  have hdescriptor : CollectStep (Prod.fst : String × Nat → String) (fun _ => True)
      (fun entry => check (validProtoLocator entry.1 = true)
        "protobuf-descriptor-import-out-of-root" >>= fun _ =>
          .ok (dependencyKind publicIndexes weakIndexes entry.2))
      (fun imports entry => do
        check (validProtoLocator entry.1 = true) "protobuf-descriptor-import-out-of-root"
        insertSame imports entry.1 (dependencyKind publicIndexes weakIndexes entry.2)
          "duplicate-protobuf-descriptor-import") :=
    collectStep_insertSame "duplicate-protobuf-descriptor-import" fun _ _ => by
      rw [bind_assoc]
      rfl
  have hkeys : (descriptor.dependency.zipIdx.map Prod.fst).Nodup := by
    rw [List.zipIdx_map_fst, h.imports]
    exact hnodup
  obtain ⟨imports, himports⟩ := (hsource.exists_iff hnodup).2 fun _ _ _ => ⟨_, rfl⟩
  have hkind {index : Nat} {declared : ProtoImport} (hdeclared : source.imports[index]? = some declared) :
      dependencyKind publicIndexes weakIndexes index = declared.kind := by
    rw [dependencyKind]
    cases hk : declared.kind with
    | normal =>
      rw [if_neg, if_neg]
      · rw [hweakMem, hdeclared, Option.map_some, hk]
        simp
      · rw [hpublicMem, hdeclared, Option.map_some, hk]
        simp
    | publicImport => rw [if_pos ((hpublicMem index).2 (by rw [hdeclared, Option.map_some, hk]))]
    | weak =>
      rw [if_neg, if_pos ((hweakMem index).2 (by rw [hdeclared, Option.map_some, hk]))]
      rw [hpublicMem, hdeclared, Option.map_some, hk]
      simp
  have hpaths : ∀ (index : Nat) (path : String), descriptor.dependency[index]? = some path →
      ∃ declared, source.imports[index]? = some declared ∧ declared.path = path := by
    intro index path hpath
    rw [h.imports, List.getElem?_map] at hpath
    exact Option.map_eq_some_iff.1 hpath
  refine ⟨publicIndexes, weakIndexes, hlength ▸ hpublic, hlength ▸ hweak, ?_, imports, himports,
    fun found => ?_⟩
  · rw [List.all_eq_true]
    intro index hmem
    rw [Bool.not_eq_true', Bool.eq_false_iff, ne_eq, ExtTreeSet.contains_iff_mem, hweakMem]
    rw [ExtTreeSet.mem_toList, hpublicMem] at hmem
    rw [hmem]
    simp
  · have hsame (found : ExtTreeMap String ImportKind) : descriptor.dependency.zipIdx.foldlM (fun imports entry => do
            check (validProtoLocator entry.1 = true) "protobuf-descriptor-import-out-of-root"
            insertSame imports entry.1 (dependencyKind publicIndexes weakIndexes entry.2)
              "duplicate-protobuf-descriptor-import") ∅ = .ok found → imports = found := by
      intro hfound
      refine ((hsource.collects hnodup himports).eq_iff (hdescriptor.collects hkeys hfound)
        (P := fun _ => True) (fun declared hmem _ => ?_) (fun entry hmem _ => ?_)).2
          fun _ _ _ => trivial
      · obtain ⟨index, hindex⟩ := List.mem_iff_getElem?.1 hmem
        have hpath : descriptor.dependency[index]? = some declared.path := by
          rw [h.imports, List.getElem?_map, hindex]
          rfl
        refine ⟨(declared.path, index), List.mem_zipIdx_iff_getElem?.2 hpath, trivial, rfl,
          fun v w hv hw => iff_true_intro ?_⟩
        obtain ⟨_, -, hw⟩ := bind_eq_ok.1 hw
        rw [← Except.ok.inj hv, ← Except.ok.inj hw]
        exact (hkind hindex).symm
      · obtain ⟨declared, hdeclared, hpath⟩ := hpaths entry.2 entry.1 (List.mem_zipIdx_iff_getElem?.1 hmem)
        exact ⟨declared, List.mem_of_getElem? hdeclared, trivial, hpath⟩
    constructor
    · intro hfound
      refine ⟨fun path hmem => ?_, (hsame found hfound).symm⟩
      obtain ⟨index, hindex⟩ := List.mem_iff_getElem?.1 hmem
      obtain ⟨v, hv⟩ := (hdescriptor.exists_iff hkeys).1 ⟨found, hfound⟩ (path, index)
        (List.mem_zipIdx_iff_getElem?.2 hindex) trivial
      obtain ⟨_, hcheck, -⟩ := bind_eq_ok.1 hv
      exact check_eq_ok.1 hcheck
    · rintro ⟨hvalid, rfl⟩
      obtain ⟨found, hfound⟩ := (hdescriptor.exists_iff hkeys).2 fun entry hmem _ => by
        have hentry := List.mem_of_getElem? (List.mem_zipIdx_iff_getElem?.1 hmem)
        exact ⟨_, by rw [bind_of_ok (check_of (hvalid _ hentry) _)]⟩
      rw [hsame found hfound]
      exact hfound

/-! ### Entry messages -/

/-- The text of an entry message. -/
def entryText (entry : DescriptorProto) : Except String String :=
  match entry.field with
  | [keyField, valueField] => do
    let key ← descriptorFieldType keyField ∅
    let value ← descriptorFieldType valueField ∅
    pure (mapText key value)
  | _ => .error "protobuf-descriptor-map-entry-invalid"

theorem collectMapEntry_eq (coordinate : String) (entry : DescriptorProto)
    (output : ExtTreeMap String String) : collectMapEntry coordinate entry output =
      if entry.isMapEntry = true then
        entryText entry >>= fun text => .ok (output.insert coordinate text)
      else .ok output := by
  rw [collectMapEntry, entryText]
  split_ifs
  · rcases entry.field with _ | ⟨keyField, _ | ⟨valueField, _ | ⟨other, rest⟩⟩⟩
    · rfl
    · rfl
    · change _ = (descriptorFieldType keyField ∅ >>= _) >>= _
      rw [bind_assoc]
      refine bind_congr fun key => ?_
      rw [bind_assoc]
      rfl
    · rfl
  · rfl

theorem collectStep_entries : CollectStep (Prod.fst : String × DescriptorProto → String)
    (fun node => node.2.isMapEntry = true) (fun node => entryText node.2)
    (fun output node => collectMapEntry node.1 node.2 output) where
  skip m node hkeeps := by rw [collectMapEntry_eq, if_neg hkeeps]
  take m node text hkeeps _ htext := by rw [collectMapEntry_eq, if_pos hkeeps, bind_of_ok htext]
  found m node m' hkeeps hstep := by
    rw [collectMapEntry_eq, if_pos hkeeps, bind_eq_ok] at hstep
    obtain ⟨text, htext, hinsert⟩ := hstep
    exact ⟨text, htext, (Except.ok.inj hinsert).symm⟩

theorem entryText_denoted {entry : DescriptorProto} {keyField valueField : FieldDescriptorProto}
    {scope key value : String} (hfields : entry.field = [keyField, valueField])
    (hkey : DenotesType resolve scope key keyField)
    (hvalue : DenotesType resolve scope value valueField) (htypes : ∀ field ∈ entry.field, TypeGiven field) :
    entryText entry =
      .ok (mapText (denotedType resolve scope key) (denotedType resolve scope value)) := by
  rw [hfields] at htypes
  rw [entryText, hfields]
  change descriptorFieldType keyField ∅ >>= _ = _
  rw [bind_of_ok (hkey.fieldType (htypes _ (by simp)) fun _ => ExtTreeMap.getElem?_empty),
    bind_of_ok (hvalue.fieldType (htypes _ (by simp)) fun _ => ExtTreeMap.getElem?_empty)]
  rfl

theorem typeGiven_of_entryText {entry : DescriptorProto} {text : String}
    (h : entryText entry = .ok text) : ∀ field ∈ entry.field, TypeGiven field := by
  rw [entryText] at h
  split at h
  next keyField valueField hfields =>
    rw [hfields]
    obtain ⟨key, hkey, h⟩ := bind_eq_ok.1 h
    obtain ⟨value, hvalue, -⟩ := bind_eq_ok.1 h
    simp only [List.forall_mem_cons, List.not_mem_nil, false_implies, implies_true, and_true]
    exact ⟨typeGiven_of_ok hkey, typeGiven_of_ok hvalue⟩
  next => cases h

section

variable (h : Denotes resolve source descriptor) (hdistinct : DistinctNames source descriptor)

include h hdistinct

/-- **The entry messages are collected when their texts are given.** -/
theorem exists_mapEntries_iff :
    (∃ entries, collectMapEntries source.package "" ∅ descriptor.messageType = .ok entries) ↔
      (∀ node ∈ nodes source.package "" descriptor.messageType, TextGiven node.2.name) ∧
        ∀ node ∈ nodes source.package "" descriptor.messageType, node.2.isMapEntry = true →
          ∀ field ∈ node.2.field, TypeGiven field := by
  simp only [collectMapEntries_eq, textGiven_iff]
  change (∃ entries, (nodes source.package "" descriptor.messageType).foldlM
    (fun output node => requiredName node.2.name >>= fun _ => collectMapEntry node.1 node.2 output)
      ∅ = .ok entries) ↔ _
  simp only [foldlM_checked, exists_and_left, collectStep_entries.exists_iff hdistinct.messages]
  refine and_congr_right fun _ => forall₂_congr fun node hmem => forall_congr' fun hentry =>
    ⟨fun hfound => ?_, fun htypes => ?_⟩
  · obtain ⟨text, htext⟩ := hfound
    exact typeGiven_of_entryText htext
  · obtain ⟨scope, key, value, keyField, valueField, hfields, -, hkey, hvalue⟩ :=
      h.entries node hmem hentry
    exact ⟨_, entryText_denoted hfields hkey hvalue htypes⟩

theorem entriesOf_mapEntries {entries : ExtTreeMap String String}
    (hentries : collectMapEntries source.package "" ∅ descriptor.messageType = .ok entries) :
    EntriesOf resolve (nodes source.package "" descriptor.messageType) entries := by
  have htypes := ((exists_mapEntries_iff h hdistinct).1 ⟨entries, hentries⟩).2
  rw [collectMapEntries_eq] at hentries
  have hrun := (foldlM_checked.1 hentries).2
  have hcollects := collectStep_entries.collects hdistinct.messages hrun
  refine ⟨fun name hmem => ?_, fun coordinate entry keyField valueField scope key value hmem hisEntry
    hfields hkey hvalue => ?_⟩
  · obtain ⟨node, hnode, hisEntry, hname⟩ := hcollects.mem_iff.1 hmem
    exact ⟨node, hnode, hname, hisEntry⟩
  · obtain ⟨text, htext, hlookup⟩ := hcollects.complete (coordinate, entry) hmem hisEntry
    rw [hlookup, ← Except.ok.inj (htext.symm.trans
      (entryText_denoted hfields hkey hvalue (htypes (coordinate, entry) hmem hisEntry)))]

end

/-! ### Messages and enumerations -/

theorem collectStep_messages (version : String) (entries : ExtTreeMap String String) :
    CollectStep (Prod.fst : String × DescriptorProto → String)
      (fun node => node.2.isMapEntry = false)
      (fun node => descriptorMessageShape version entries node.2)
      (fun messages node => collectMessage version entries node.1 node.2 messages) where
  skip m node hkeeps := by
    rw [Bool.not_eq_false] at hkeeps
    rw [collectMessage, if_pos hkeeps]
  take m node shape hkeeps hnew hshape := by
    rw [collectMessage, if_neg (by rw [hkeeps]; exact Bool.false_ne_true), bind_of_ok hshape,
      insertNew_of_not_mem hnew]
  found m node m' hkeeps hstep := by
    rw [collectMessage, if_neg (by rw [hkeeps]; exact Bool.false_ne_true), bind_eq_ok] at hstep
    obtain ⟨shape, hshape, hinsert⟩ := hstep
    exact ⟨shape, hshape, insert_of_insertNew hinsert⟩

/-- The enumerations of the messages and of the file are collected as one list. -/
theorem collectEnums_after {package version : String} {entries : ExtTreeMap String String}
    {messages : ExtTreeMap String MessageShape} {enums : ExtTreeSet String}
    {messageType : List DescriptorProto} {enumType : List EnumDescriptorProto} :
    (∃ nested, collectDescriptorMessages package version entries "" (∅, ∅) messageType =
        .ok (messages, nested) ∧ collectEnums package "" nested enumType = .ok enums) ↔
      ((∀ node ∈ nodes package "" messageType, TextGiven node.2.name) ∧
        (nodes package "" messageType).foldlM
          (fun messages node => collectMessage version entries node.1 node.2 messages) ∅ =
            .ok messages) ∧
        (enumNodes package messageType enumType).foldlM enumStep ∅ = .ok enums := by
  have hrun : (nodes package "" messageType).foldlM (messageOnlyStep version entries) ∅ =
      .ok messages ↔ (∀ node ∈ nodes package "" messageType, TextGiven node.2.name) ∧
        (nodes package "" messageType).foldlM
          (fun messages node => collectMessage version entries node.1 node.2 messages) ∅ =
            .ok messages := by
    simp only [textGiven_iff]
    exact foldlM_checked
  simp only [collectDescriptorMessages_eq, foldlM_messageStep, collectEnums_eq, ← hrun, enumNodes,
    List.foldlM_append, bind_eq_ok]
  constructor
  · rintro ⟨nested, ⟨hmessages, hnested⟩, henums⟩
    exact ⟨hmessages, nested, hnested, henums⟩
  · rintro ⟨hmessages, nested, hnested, henums⟩
    exact ⟨nested, ⟨hmessages, hnested⟩, henums⟩

section

variable (h : Denotes resolve source descriptor) (hdistinct : DistinctNames source descriptor)

include h hdistinct

/-- The message of the source file at a message of the descriptor. -/
theorem declared_message {node : String × DescriptorProto}
    (hmem : node ∈ nodes source.package "" descriptor.messageType)
    (hkeeps : node.2.isMapEntry = false) : ∃ message ∈ values source.messages,
      message.coordinate = node.1 ∧ (message.fields.map ProtoField.name).Nodup ∧
      List.Forall₂ (DenotesField resolve source.version message.coordinate
        (nodes source.package "" descriptor.messageType) node.2.oneofDecl) message.fields
          node.2.field := by
  obtain ⟨message, hfound, hfields⟩ := h.messages node hmem hkeeps
  have hcoordinate : message.coordinate = node.1 := hdistinct.messageKeys node.1 message hfound
  have hvalue : message ∈ values source.messages := mem_values.2 ⟨node.1, hfound⟩
  exact ⟨message, hvalue, hcoordinate, hdistinct.fields message hvalue, hcoordinate ▸ hfields⟩

theorem fieldNames_nodup {node : String × DescriptorProto}
    (hmem : node ∈ nodes source.package "" descriptor.messageType)
    (hkeeps : node.2.isMapEntry = false) :
    (node.2.field.map fun field => field.name.getD "").Nodup := by
  obtain ⟨message, -, -, hnames, hfields⟩ := declared_message h hdistinct hmem hkeeps
  have hsame : message.fields.map ProtoField.name =
      node.2.field.map fun field => field.name.getD "" :=
    map_eq_of_forall₂ hfields fun field fieldDescriptor hfield => by
      rw [hfield.name, Option.getD_some]
  exact hsame ▸ hnames

/-- **The messages are collected when their texts are given.** -/
theorem exists_messages_iff {entries : ExtTreeMap String String}
    (hentries : EntriesOf resolve (nodes source.package "" descriptor.messageType) entries) :
    (∃ messages, (nodes source.package "" descriptor.messageType).foldlM
        (fun messages node => collectMessage source.version entries node.1 node.2 messages) ∅ =
          .ok messages) ↔
      ∀ node ∈ nodes source.package "" descriptor.messageType, node.2.isMapEntry = false →
        MessageTexts node.2 := by
  rw [(collectStep_messages source.version entries).exists_iff hdistinct.messages]
  refine forall₂_congr fun node hmem => forall_congr' fun hkeeps => ⟨fun hfound => ?_,
    fun htexts => ?_⟩
  · obtain ⟨shape, hshape⟩ := hfound
    exact messageTexts_of_ok (fieldNames_nodup h hdistinct hmem hkeeps) hshape
  · obtain ⟨message, -, -, hnames, hfields⟩ := declared_message h hdistinct hmem hkeeps
    obtain ⟨shape, hshape, -⟩ := message_shape ∅ hfields hnames hentries htexts
    exact ⟨shape, hshape⟩

omit h in
theorem sourceMessages_ok (allTypes : ExtTreeSet String) :
    ∃ messages, (values source.messages).foldlM (fun messages message => do
        let shape ← sourceMessageShape source allTypes message
        pure (messages.insert message.coordinate shape)) ∅ =
          (.ok messages : Except String (ExtTreeMap String MessageShape)) ∧
      Collects ProtoMessage.coordinate (fun _ => True)
        (fun message shape => sourceMessageShape source allTypes message = .ok shape)
        (values source.messages) messages := by
  have hstep : CollectStep ProtoMessage.coordinate (fun _ => True)
      (fun message => sourceMessageShape source allTypes message)
      (fun messages message => do
        let shape ← sourceMessageShape source allTypes message
        pure (messages.insert message.coordinate shape)) :=
    collectStep_insert fun _ _ => rfl
  have hnodup : ((values source.messages).map ProtoMessage.coordinate).Nodup := by
    rw [map_key_values hdistinct.messageKeys, ← ExtTreeMap.map_fst_toList_eq_keys]
    exact keys_nodup
  obtain ⟨messages, hmessages⟩ := (hstep.exists_iff hnodup).2 fun message hmem _ => by
    obtain ⟨fields, hfields, -⟩ := sourceMessageShape_ok source allTypes
      (hdistinct.fields message hmem)
    exact ⟨_, hfields⟩
  exact ⟨messages, hmessages, hstep.collects hnodup hmessages⟩

/-- **The messages of the two shapes are equal exactly when all fields agree.** -/
theorem messages_eq_iff {allTypes : ExtTreeSet String} {entries : ExtTreeMap String String}
    {declared found : ExtTreeMap String MessageShape}
    (hentries : EntriesOf resolve (nodes source.package "" descriptor.messageType) entries)
    (hfound : (nodes source.package "" descriptor.messageType).foldlM
      (fun messages node => collectMessage source.version entries node.1 node.2 messages) ∅ =
        .ok found)
    (hdeclared : Collects ProtoMessage.coordinate (fun _ => True)
      (fun message shape => sourceMessageShape source allTypes message = .ok shape)
      (values source.messages) declared) :
    declared = found ↔ ∀ message ∈ values source.messages, ∀ field ∈ message.fields,
      FieldAgrees resolve source allTypes message.coordinate field := by
  have htexts := (exists_messages_iff h hdistinct hentries).1 ⟨found, hfound⟩
  rw [hdeclared.eq_iff ((collectStep_messages source.version entries).collects hdistinct.messages
    hfound) (P := fun message => ∀ field ∈ message.fields,
      FieldAgrees resolve source allTypes message.coordinate field)]
  · simp only [true_implies]
  · intro message hmem _
    obtain ⟨coordinate, hlookup⟩ := mem_values.1 hmem
    obtain ⟨node, hnode, rfl, hkeeps⟩ := h.allMessages coordinate (mem_iff.2 ⟨message, hlookup⟩)
    have hcoordinate : message.coordinate = node.1 := hdistinct.messageKeys node.1 message hlookup
    obtain ⟨message', hlookup', hfields⟩ := h.messages node hnode hkeeps
    obtain rfl := Option.some.inj (hlookup.symm.trans hlookup')
    rw [← hcoordinate] at hfields
    obtain ⟨shape, hshape, hiff⟩ := message_shape allTypes hfields
      (hdistinct.fields message hmem) hentries (htexts node hnode hkeeps)
    refine ⟨node, hnode, hkeeps, hcoordinate.symm, fun v w hv hw => ?_⟩
    obtain rfl := Except.ok.inj (hshape.symm.trans hw)
    exact hiff v hv
  · intro node hnode hkeeps
    obtain ⟨message, hmem, hcoordinate, -⟩ := declared_message h hdistinct hnode hkeeps
    exact ⟨message, hmem, trivial, hcoordinate⟩

end

end ContractScan
