import Depgraph.ContractScan.ProtobufAdmitted
import Depgraph.ContractScan.ProtobufWhole

/-!
# A descriptor and the text of its file

A descriptor that states the declarations of a file has the shape that the parser makes of its tokens
exactly when the parser reads the whole file and the two translations agree.
-/

namespace ContractScan

open Std Fallible OrderedMap

variable {resolve : String → String → String} {source : ProtoFile}
  {descriptor : FileDescriptorProto}

/-! ### What the shape of a descriptor states -/

theorem number_of_descriptorFieldShape {version : String} {entries : ExtTreeMap String String}
    {oneofs : List String} {field : FieldDescriptorProto} {shape : FieldShape}
    (h : descriptorFieldShape version entries oneofs field = .ok shape) :
    field.number = some shape.number := by
  rw [descriptorFieldShape] at h
  obtain ⟨typeName, -, h⟩ := bind_eq_ok.1 h
  have hend {label : FieldLabel} (h : (do
      let oneof ← descriptorOneof oneofs field
      let number ← required (field.number.filter fun number => 0 < number)
        "protobuf-descriptor-field-number-invalid"
      pure (⟨number, label, typeName, oneof⟩ : FieldShape)) = Except.ok shape) :
      field.number = some shape.number := by
    obtain ⟨oneof, -, h⟩ := bind_eq_ok.1 h
    obtain ⟨number, hnumber, h⟩ := bind_eq_ok.1 h
    rw [← Except.ok.inj h]
    exact (Option.filter_eq_some_iff.1 (required_eq_ok.1 hnumber)).1
  split_ifs at h
  · exact hend h
  · obtain ⟨label, -, h⟩ := bind_eq_ok.1 h
    exact hend h

section

variable (h : Denotes resolve source descriptor)

include h

theorem collected_of_descriptorShape {shape : ContractShape}
    (hshape : descriptorShape descriptor = .ok shape) :
    ∃ entries, (nodes source.package "" descriptor.messageType).foldlM
        (fun messages node => collectMessage source.version entries node.1 node.2 messages) ∅ =
          .ok shape.messages ∧
      descriptor.service.foldlM (fun services service => do
        let shape ← descriptorServiceShape service
        let name ← requiredName service.name
        insertNew services (qualify source.package "" name) shape
          "duplicate-protobuf-descriptor-service") ∅ = .ok shape.services := by
  rw [descriptorShape, h.version, h.package] at hshape
  simp only [bind_eq_ok, pure, Except.pure, Except.ok.injEq] at hshape
  obtain ⟨-, -, publicIndexes, -, weakIndexes, -, -, -, imports, -, entries, -, ⟨messages, nested⟩,
    hmessages, enums, henums, services, hservices, rfl⟩ := hshape
  exact ⟨entries, (collectEnums_after.1 ⟨nested, hmessages, henums⟩).1.2, hservices⟩

variable (hdistinct : DistinctNames source descriptor)

include hdistinct

/-- The shape of a descriptor has the declared number of every declared field. -/
theorem field_of_descriptorShape {shape : ContractShape}
    (hshape : descriptorShape descriptor = .ok shape) {message : ProtoMessage}
    (hmem : message ∈ values source.messages) : ∃ found,
      shape.messages[message.coordinate]? = some found ∧
      ∀ field ∈ message.fields, ∃ fieldShape,
        found.fields[field.name]? = some fieldShape ∧ fieldShape.number = field.number := by
  obtain ⟨entries, hrun, -⟩ := collected_of_descriptorShape h hshape
  obtain ⟨coordinate, hlookup⟩ := mem_values.1 hmem
  obtain ⟨node, hnode, rfl, hkeeps⟩ := h.allMessages coordinate (mem_iff.2 ⟨message, hlookup⟩)
  have hcoordinate : message.coordinate = node.1 := hdistinct.messageKeys node.1 message hlookup
  obtain ⟨message', hlookup', hfields⟩ := h.messages node hnode hkeeps
  obtain rfl := Option.some.inj (hlookup.symm.trans hlookup')
  obtain ⟨found, hfound, hget⟩ :=
    ((collectStep_messages source.version entries).collects hdistinct.messages hrun).complete node
      hnode hkeeps
  refine ⟨found, hcoordinate ▸ hget, fun field hfield => ?_⟩
  obtain ⟨fieldDescriptor, hmem', hdenotes⟩ := exists_right_of_forall₂ hfields hfield
  rw [descriptorMessageShape, bind_eq_ok] at hfound
  obtain ⟨oneofs, -, hfound⟩ := hfound
  obtain ⟨fields, hfields, hfound⟩ := bind_eq_ok.1 hfound
  obtain rfl := Except.ok.inj hfound
  obtain ⟨fieldShape, hfieldShape, hget⟩ :=
    ((collectStep_fields source.version entries oneofs).collects
      (fieldNames_nodup h hdistinct hnode hkeeps) hfields).complete fieldDescriptor hmem' trivial
  rw [hdenotes.name] at hget
  refine ⟨fieldShape, hget, ?_⟩
  obtain ⟨_, -, hfieldShape⟩ := bind_eq_ok.1 hfieldShape
  exact Option.some.inj ((number_of_descriptorFieldShape hfieldShape).symm.trans hdenotes.number.1)

/-- The shape of a descriptor has every declared method. -/
theorem method_of_descriptorShape {shape : ContractShape}
    (hshape : descriptorShape descriptor = .ok shape) {service : ProtoService}
    (hmem : service ∈ values source.services) : ∃ found,
      shape.services[service.coordinate]? = some found ∧
      ∀ method ∈ service.methods, ∃ methodShape, found.methods[method.name]? = some methodShape := by
  obtain ⟨-, -, hrun⟩ := collected_of_descriptorShape h hshape
  obtain ⟨coordinate, hlookup⟩ := mem_values.1 hmem
  obtain ⟨serviceDescriptor, hmem', rfl⟩ := h.allServices coordinate (mem_iff.2 ⟨service, hlookup⟩)
  have hcoordinate := hdistinct.serviceKeys _ service hlookup
  obtain ⟨service', hlookup', hmethods⟩ := h.services serviceDescriptor hmem'
  obtain rfl := Option.some.inj (hlookup.symm.trans hlookup')
  obtain ⟨found, hfound, hget⟩ :=
    ((collectStep_services source.package).collects hdistinct.services hrun).complete
      serviceDescriptor hmem' trivial
  refine ⟨found, hcoordinate ▸ hget, fun method hmethod => ?_⟩
  have hnames : service.methods.map ProtoMethod.name =
      serviceDescriptor.method.map fun method => method.name.getD "" :=
    map_eq_of_forall₂ hmethods fun method methodDescriptor hmethod => by
      rw [hmethod.name, Option.getD_some]
  obtain ⟨methodDescriptor, hdescriptor, hdenotes⟩ := exists_right_of_forall₂ hmethods hmethod
  obtain ⟨serviceShape, hserviceShape, hname⟩ := bind_eq_ok.1 hfound
  obtain ⟨_, -, heq⟩ := bind_eq_ok.1 hname
  obtain rfl : serviceShape = found := Except.ok.inj heq
  rw [descriptorServiceShape] at hserviceShape
  obtain ⟨methods, hrun, heq⟩ := bind_eq_ok.1 hserviceShape
  obtain rfl := Except.ok.inj heq
  obtain ⟨methodShape, -, hget⟩ := (collectStep_methods.collects
    (hnames ▸ hdistinct.methods service hmem) hrun).complete methodDescriptor hdescriptor trivial
  rw [hdenotes.name] at hget
  exact ⟨methodShape, hget⟩

end

/-! ### What the shape of a file states -/

/-- The shape of a file has the fields of its messages and no other. -/
theorem field_of_sourceShape {allTypes : ExtTreeSet String} {shape : ContractShape}
    (hshape : sourceShape source allTypes = .ok shape) {coordinate : String} {found : MessageShape}
    (hfound : shape.messages[coordinate]? = some found) :
    ∃ message ∈ values source.messages, message.coordinate = coordinate ∧
      ∀ name fieldShape, found.fields[name]? = some fieldShape →
        ∃ field ∈ message.fields, field.name = name ∧ field.number = fieldShape.number := by
  rw [sourceShape] at hshape
  simp only [bind_eq_ok, pure, Except.pure, Except.ok.injEq] at hshape
  obtain ⟨-, -, imports, -, messages, hmessages, services, -, rfl⟩ := hshape
  have hstep : CollectStep ProtoMessage.coordinate (fun _ => True)
      (fun message => sourceMessageShape source allTypes message) _ :=
    collectStep_insert fun _ _ => rfl
  obtain ⟨message, hmem, hcoordinate, hmessage⟩ := hstep.exists_of_getElem? hmessages hfound
  refine ⟨message, hmem, hcoordinate, fun name fieldShape hget => ?_⟩
  rw [sourceMessageShape] at hmessage
  obtain ⟨fields, hfields, heq⟩ := bind_eq_ok.1 hmessage
  obtain rfl := Except.ok.inj heq
  obtain ⟨field, hfield, hname, hfieldShape⟩ :=
    (collectStep_sourceFields source allTypes message.coordinate).exists_of_getElem? hfields hget
  exact ⟨field, hfield, hname, by rw [← Except.ok.inj hfieldShape]; rfl⟩

/-- The shape of a file has the methods of its services and no other. -/
theorem method_of_sourceShape {allTypes : ExtTreeSet String} {shape : ContractShape}
    (hshape : sourceShape source allTypes = .ok shape) {coordinate : String} {found : ServiceShape}
    (hfound : shape.services[coordinate]? = some found) :
    ∃ service ∈ values source.services, service.coordinate = coordinate ∧
      ∀ name methodShape, found.methods[name]? = some methodShape →
        ∃ method ∈ service.methods, method.name = name := by
  rw [sourceShape] at hshape
  simp only [bind_eq_ok, pure, Except.pure, Except.ok.injEq] at hshape
  obtain ⟨-, -, imports, -, messages, -, services, hservices, rfl⟩ := hshape
  have hstep : CollectStep ProtoService.coordinate (fun _ => True)
      (fun service => sourceServiceShape source allTypes service) _ :=
    collectStep_insert fun _ _ => rfl
  obtain ⟨service, hmem, hcoordinate, hservice⟩ := hstep.exists_of_getElem? hservices hfound
  refine ⟨service, hmem, hcoordinate, fun name methodShape hget => ?_⟩
  rw [sourceServiceShape] at hservice
  obtain ⟨methods, hmethods, heq⟩ := bind_eq_ok.1 hservice
  obtain rfl := Except.ok.inj heq
  obtain ⟨method, hmethod, hname, -⟩ :=
    (collectStep_sourceMethods source allTypes).exists_of_getElem? hmethods hget
  exact ⟨method, hmethod, hname⟩

/-! ### The file and its descriptor -/

namespace SourceFile

variable {file : SourceFile}

theorem mem_messages (h : file.Regular) {fieldsOf : Body → List ProtoField}
    {methodsOf : List (Member WrittenRpc) → List ProtoMethod} {message : ProtoMessage} :
    message ∈ values (file.record fieldsOf methodsOf).messages ↔
      ∃ entry ∈ file.bodies, recordOf fieldsOf entry = message := by
  have hnodup := h.bodies
  rw [← file.map_coordinate_bodies fieldsOf] at hnodup
  simp only [mem_values, record, getElem?_indexed hnodup, List.mem_map, exists_and_left,
    exists_eq', and_true]

theorem mem_services (h : file.Regular) {fieldsOf : Body → List ProtoField}
    {methodsOf : List (Member WrittenRpc) → List ProtoMethod} {service : ProtoService} :
    service ∈ values (file.record fieldsOf methodsOf).services ↔
      ∃ entry ∈ file.services, serviceOf methodsOf entry = service := by
  have hnodup := h.services
  rw [← file.map_coordinate_services methodsOf] at hnodup
  simp only [mem_values, record, getElem?_indexed hnodup, List.mem_map, exists_and_left,
    exists_eq', and_true]

/-- **Where what is read of a file has the shape of its descriptor, the whole file is read.** -/
theorem whole_of_shape (h : file.Regular) (hdenotes : Denotes resolve file.declared descriptor)
    (hdistinct : DistinctNames file.declared descriptor) {allTypes : ExtTreeSet String}
    {shape : ContractShape} (hsource : sourceShape file.read allTypes = .ok shape)
    (hdescriptor : descriptorShape descriptor = .ok shape) : file.Whole where
  fields entry hmem := by
    have hvalue : recordOf Body.declaredFields entry ∈ values file.declared.messages :=
      (mem_messages h).2 ⟨entry, hmem, rfl⟩
    obtain ⟨found, hfound, hfields⟩ := field_of_descriptorShape hdenotes hdistinct hdescriptor hvalue
    obtain ⟨message, hmessage, hcoordinate, hread⟩ := field_of_sourceShape hsource hfound
    obtain ⟨entry', hmem', rfl⟩ := (mem_messages h).1 hmessage
    obtain rfl : entry' = entry := List.inj_on_of_nodup_map h.bodies hmem' hmem hcoordinate
    refine Body.whole_of_read (hdistinct.fields _ hvalue) fun field hfield => ?_
    obtain ⟨fieldShape, hget, hnumber⟩ := hfields field hfield
    obtain ⟨read, hmem, hname, hsame⟩ := hread field.name fieldShape hget
    exact ⟨read, hmem, hname, hsame.trans hnumber⟩
  methods entry hmem := by
    have hvalue : serviceOf declaredMethods entry ∈ values file.declared.services :=
      (mem_services h).2 ⟨entry, hmem, rfl⟩
    obtain ⟨found, hfound, hmethods⟩ :=
      method_of_descriptorShape hdenotes hdistinct hdescriptor hvalue
    obtain ⟨service, hservice, hcoordinate, hread⟩ := method_of_sourceShape hsource hfound
    obtain ⟨entry', hmem', rfl⟩ := (mem_services h).1 hservice
    obtain rfl : entry' = entry := List.inj_on_of_nodup_map h.services hmem' hmem hcoordinate
    refine serviceWhole_of_read (hdistinct.methods _ hvalue) fun method hmethod => ?_
    obtain ⟨methodShape, hget⟩ := hmethods method hmethod
    exact hread method.name methodShape hget

end SourceFile

def parseProtoFile (text : String) : Except String ProtoFile := tokenizeProto text >>= parse

/-- The shape that is made of the text of a file. -/
def shapeOf (text : String) (allTypes : ExtTreeSet String) : Except String ContractShape :=
  parseProtoFile text >>= fun source => sourceShape source allTypes

/-- The descriptor is admitted as proof of a text: both shapes are found, and equal. -/
def Admitted (text : String) (allTypes : ExtTreeSet String) (descriptor : FileDescriptorProto) : Prop :=
  ∃ shape, shapeOf text allTypes = .ok shape ∧ descriptorShape descriptor = .ok shape

/-- The text is that of a file of the language. -/
structure TextOf (file : SourceFile) (text : String) : Prop where
  tokens : tokenizeProto text = .ok file.tokens
  regular : file.Regular

theorem TextOf.parseProtoFile_eq {file : SourceFile} {text : String} (h : TextOf file text) :
    parseProtoFile text = .ok file.read := by
  rw [parseProtoFile, h.tokens, ok_bind, file.parse_tokens h.regular]

theorem admitted_iff {file : SourceFile} {text : String} (htext : TextOf file text)
    (h : Denotes resolve file.declared descriptor)
    (hdistinct : DistinctNames file.declared descriptor) (allTypes : ExtTreeSet String) :
    Admitted text allTypes descriptor ↔
      file.Whole ∧ Agrees resolve file.declared allTypes descriptor := by
  rw [Admitted, shapeOf, htext.parseProtoFile_eq, ok_bind]
  constructor
  · rintro ⟨shape, hsource, hdescriptor⟩
    have hwhole := file.whole_of_shape htext.regular h hdistinct hsource hdescriptor
    rw [file.read_of_whole hwhole] at hsource
    exact ⟨hwhole, (shapes_iff_agrees h hdistinct allTypes).1 ⟨shape, hsource, hdescriptor⟩⟩
  · rintro ⟨hwhole, hagrees⟩
    rw [file.read_of_whole hwhole]
    exact (shapes_iff_agrees h hdistinct allTypes).2 hagrees

namespace ShapeSample

def declaredM (value : String) : ProtoMessage where
  coordinate := "a.M"
  fields := [⟨"f", 1, .normal, mapText "string" value, none⟩, ⟨"n", 2, .normal, "int32", some "x"⟩]

/-- `syntax = "proto3"; package a; message M { map<string, V> f = 1; oneof x { int32 n = 2; } }
message V {} service S { rpc R(V) returns (stream V); }`, where the value of the map may be written
in another way. -/
def file (value : String) : ProtoFile where
  version := "proto3"
  package := "a"
  imports := []
  messages := indexed ProtoMessage.coordinate [declaredM value, ⟨"a.V", []⟩]
  enums := ∅
  services := indexed ProtoService.coordinate [⟨"a.S", [⟨"R", "V", "V", false, true⟩]⟩]

def entry : DescriptorProto :=
  .mk (some "FEntry") [⟨some "key", some 1, some 1, some 9, none, none, none⟩,
    ⟨some "value", some 2, some 1, some 11, some ".a.V", none, none⟩] [] [] [] (some ⟨some true⟩)

def messageM : DescriptorProto :=
  .mk (some "M") [⟨some "f", some 1, some 3, some 11, some ".a.M.FEntry", none, none⟩,
    ⟨some "n", some 2, some 1, some 5, none, some 0, none⟩] [entry] [] [⟨some "x"⟩] none

def messageV : DescriptorProto :=
  .mk (some "V") [] [] [] [] none

def serviceS : ServiceDescriptorProto where
  name := some "S"
  method := [⟨some "R", some ".a.V", some ".a.V", none, some true⟩]

/-- What the compiler makes of the file. -/
def compiled : FileDescriptorProto where
  package := some "a"
  dependency := []
  publicDependency := []
  weakDependency := []
  messageType := [messageM, messageV]
  enumType := []
  service := [serviceS]
  syntaxVersion := some "proto3"

/-- The types of the repository. -/
def types : ExtTreeSet String := .ofList ["a.M", "a.V"]

/-- The name `V` refers to the message `a.V`. -/
def refersTo (_ raw : String) : String := if raw = "V" then "a.V" else raw

/-- The texts of the sample, evaluated once. -/
theorem sample_evaluates :
    (qualify "a" "" "M" = "a.M" ∧ qualify "a" "a.M" "FEntry" = "a.M.FEntry" ∧
      qualify "a" "" "V" = "a.V" ∧ qualify "a" "" "S" = "a.S") ∧
    (".a.V" = "." ++ "a.V" ∧ ".a.M.FEntry" = "." ++ "a.M.FEntry") ∧
    ("a.V".toList.head? ≠ some '.' ∧ '<' ∉ "a.V".toList) ∧
    ("a.M.FEntry".toList.head? ≠ some '.' ∧ isMapType "int32" = false) ∧
    (canonicalType "V" "a" "a" types = "a.V" ∧ canonicalType "int32" "a.M" "a" types = "int32") ∧
    (boundedText (trimDots ".a.V") = true ∧ boundedText (trimDots ".a.M.FEntry") = true) ∧
    ∀ text ∈ ["M", "FEntry", "V", "S", "R", "f", "n", "x", "key", "value", ".a.V"],
      boundedText text = true := by
  decide +kernel

theorem isFullName_sample : IsFullName "a.V" := sample_evaluates.2.2.1

theorem refersTo_full : refersTo "a.M" "a.V" = "a.V" :=
  if_neg (by decide)

theorem denotedType_sample : denotedType refersTo "a.M" "a.V" = "a.V" :=
  (if_neg (by decide)).trans refersTo_full

theorem nodes_compiled : nodes "a" "" compiled.messageType =
    [("a.M", messageM), ("a.M.FEntry", entry), ("a.V", messageV)] := by
  obtain ⟨hm, hentry, hv, -⟩ := sample_evaluates.1
  simp only [compiled, messageM, messageV, entry, nodes, nodesOf, Option.getD_some, hm, hentry, hv,
    List.append_nil, List.cons_append, List.nil_append]

theorem mem_messages {value : String} {message : ProtoMessage} {coordinate : String} :
    (file value).messages[coordinate]? = some message ↔
      message ∈ [declaredM value, ⟨"a.V", []⟩] ∧ message.coordinate = coordinate := by
  refine getElem?_indexed ?_
  rw [List.map_cons, List.map_cons, List.map_nil]
  change ["a.M", "a.V"].Nodup
  decide

theorem mem_services {value : String} {service : ProtoService} {coordinate : String} :
    (file value).services[coordinate]? = some service ↔
      service ∈ [⟨"a.S", [⟨"R", "V", "V", false, true⟩]⟩] ∧ service.coordinate = coordinate :=
  getElem?_indexed (by
    rw [List.map_cons, List.map_nil]
    decide)

theorem denotes_int32 : DenotesType refersTo "a.M" "int32"
    ⟨some "n", some 2, some 1, some 5, none, some 0, none⟩ where
  scalar _ := ⟨rfl, 5, rfl, by decide⟩
  named hnamed := absurd (by decide) hnamed

theorem denotes_key : DenotesType refersTo "a.M" "string"
    ⟨some "key", some 1, some 1, some 9, none, none, none⟩ where
  scalar _ := ⟨rfl, 9, rfl, by decide⟩
  named hnamed := absurd (by decide) hnamed

theorem denotes_value {value : String} (hnamed : ¬ IsScalarWord value)
    (hvalue : refersTo "a.M" value = "a.V") : DenotesType refersTo "a.M" value
    ⟨some "value", some 2, some 1, some 11, some ".a.V", none, none⟩ where
  scalar hscalar := absurd hscalar hnamed
  named _ := by
    rw [hvalue]
    exact ⟨congrArg some sample_evaluates.2.1.1, isFullName_sample⟩

theorem denotes_field {value : String} (hnamed : ¬ IsScalarWord value)
    (hvalue : refersTo "a.M" value = "a.V") :
    DenotesField refersTo "proto3" "a.M" (nodes "a" "" compiled.messageType) [⟨some "x"⟩]
      ⟨"f", 1, .normal, mapText "string" value, none⟩
      ⟨some "f", some 1, some 3, some 11, some ".a.M.FEntry", none, none⟩ where
  name := rfl
  number := ⟨rfl, Int.zero_lt_one⟩
  type := .inr ⟨"string", value, rfl,
    ⟨"a.M.FEntry", entry, _, _, by rw [nodes_compiled]; simp, rfl, rfl, by decide, denotes_key,
      denotes_value hnamed hvalue, congrArg some sample_evaluates.2.1.2,
      sample_evaluates.2.2.2.1.1⟩,
    ⟨rfl, rfl, by decide⟩, rfl, rfl⟩

theorem denotes_member :
    DenotesField refersTo "proto3" "a.M" (nodes "a" "" compiled.messageType) [⟨some "x"⟩]
      ⟨"n", 2, .normal, "int32", some "x"⟩
      ⟨some "n", some 2, some 1, some 5, none, some 0, none⟩ where
  name := rfl
  number := ⟨rfl, by decide⟩
  type := .inl ⟨sample_evaluates.2.2.2.1.2, denotes_int32, fun hnamed => absurd (by decide) hnamed,
    ⟨rfl, by decide⟩, 0, rfl, rfl⟩

theorem denotes_method : DenotesMethod refersTo "a" ⟨"R", "V", "V", false, true⟩
    ⟨some "R", some ".a.V", some ".a.V", none, some true⟩ where
  name := rfl
  input := ⟨congrArg some sample_evaluates.2.1.1, isFullName_sample⟩
  output := ⟨congrArg some sample_evaluates.2.1.1, isFullName_sample⟩
  client := rfl
  server := rfl

theorem serviceCoordinate_sample : serviceCoordinate "a" serviceS = "a.S" :=
  sample_evaluates.1.2.2.2

theorem denotes {value : String} (hnamed : ¬ IsScalarWord value)
    (hvalue : refersTo "a.M" value = "a.V") : Denotes refersTo (file value) compiled where
  version := rfl
  known := List.mem_cons_of_mem _ List.mem_cons_self
  package := rfl
  imports := rfl
  publicImports := ⟨List.nodup_nil, fun index => by simp [compiled, file]⟩
  weakImports := ⟨List.nodup_nil, fun index => by simp [compiled, file]⟩
  messages := by
    change ∀ node ∈ nodes "a" "" compiled.messageType, _
    rw [nodes_compiled]
    simp only [List.forall_mem_cons, List.not_mem_nil, false_implies, implies_true, and_true]
    refine ⟨fun _ => ⟨declaredM value, mem_messages.2 ⟨by simp, rfl⟩, ?_⟩, fun hentry => ?_,
      fun _ => ⟨⟨"a.V", []⟩, mem_messages.2 ⟨by simp, rfl⟩, .nil⟩⟩
    · exact .cons (denotes_field hnamed hvalue) (.cons denotes_member .nil)
    · exact absurd hentry (by decide)
  entries := by
    change ∀ node ∈ nodes "a" "" compiled.messageType, _
    rw [nodes_compiled]
    simp only [List.forall_mem_cons, List.not_mem_nil, false_implies, implies_true, and_true]
    exact ⟨fun hentry => absurd hentry (by decide),
      fun _ => ⟨"a.M", "string", value, _, _, rfl, by decide, denotes_key,
        denotes_value hnamed hvalue⟩, fun hentry => absurd hentry (by decide)⟩
  allMessages := by
    change ∀ coordinate ∈ (file value).messages, ∃ node ∈ nodes "a" "" compiled.messageType, _
    intro coordinate hmem
    rw [nodes_compiled]
    obtain ⟨message, hfound⟩ := mem_iff.1 hmem
    obtain ⟨hmessage, rfl⟩ := mem_messages.1 hfound
    rcases List.mem_pair.1 hmessage with rfl | rfl
    · exact ⟨("a.M", messageM), by simp, rfl, rfl⟩
    · exact ⟨("a.V", messageV), by simp, rfl, rfl⟩
  enums := by
    intro name
    rw [enumNodes]
    change _ ↔ name ∈ ((nodes "a" "" compiled.messageType).flatMap _ ++ []).map Prod.fst
    rw [nodes_compiled]
    simp [file, messageM, messageV, entry, DescriptorProto.enumType]
  services := by
    simp only [compiled, List.forall_mem_cons, List.not_mem_nil, false_implies, implies_true,
      and_true]
    exact ⟨_, mem_services.2 ⟨List.mem_singleton.2 rfl, serviceCoordinate_sample.symm⟩,
      .cons denotes_method .nil⟩
  allServices := by
    intro coordinate hmem
    obtain ⟨service, hfound⟩ := mem_iff.1 hmem
    obtain ⟨hservice, rfl⟩ := mem_services.1 hfound
    obtain rfl := List.mem_singleton.1 hservice
    exact ⟨serviceS, List.mem_singleton.2 rfl, serviceCoordinate_sample⟩

theorem distinctNames (value : String) : DistinctNames (file value) compiled where
  imports := List.nodup_nil
  messageKeys coordinate message hfound := (mem_messages.1 hfound).2
  serviceKeys coordinate service hfound := (mem_services.1 hfound).2
  fields message hmem := by
    obtain ⟨coordinate, hfound⟩ := mem_values.1 hmem
    rcases List.mem_pair.1 (mem_messages.1 hfound).1 with rfl | rfl
    · change ["f", "n"].Nodup
      decide
    · exact List.nodup_nil
  methods service hmem := by
    obtain ⟨coordinate, hfound⟩ := mem_values.1 hmem
    obtain rfl := List.mem_singleton.1 (mem_services.1 hfound).1
    exact List.nodup_singleton _
  messages := by
    change ((nodes "a" "" compiled.messageType).map Prod.fst).Nodup
    rw [nodes_compiled]
    change ["a.M", "a.M.FEntry", "a.V"].Nodup
    decide
  enums := by
    rw [enumNodes]
    change (((nodes "a" "" compiled.messageType).flatMap _ ++ []).map Prod.fst).Nodup
    rw [nodes_compiled]
    exact List.nodup_nil
  services := List.nodup_singleton _

theorem textGiven_sample {text : String}
    (h : text ∈ ["M", "FEntry", "V", "S", "R", "f", "n", "x", "key", "value", ".a.V"]) :
    TextGiven (some text) :=
  ⟨text, rfl, sample_evaluates.2.2.2.2.2.2 text h⟩

theorem typeGiven_none {name : Option String} {number label fieldType oneofIndex : Option Int}
    {proto3Optional : Option Bool} :
    TypeGiven ⟨name, number, label, fieldType, none, oneofIndex, proto3Optional⟩ :=
  fun _ htype => absurd htype (Option.some_ne_none _).symm

theorem textsGiven : TextsGiven "a" compiled where
  imports _ hmem := absurd hmem List.not_mem_nil
  messages := by
    rw [nodes_compiled]
    simp only [List.forall_mem_cons, List.not_mem_nil, false_implies, implies_true, and_true]
    exact ⟨textGiven_sample (by simp), textGiven_sample (by simp),
      textGiven_sample (by simp)⟩
  oneofs := by
    rw [nodes_compiled]
    simp only [List.forall_mem_cons, List.not_mem_nil, false_implies, implies_true, and_true]
    refine ⟨fun _ oneof hmem => ?_, fun _ oneof hmem => absurd hmem List.not_mem_nil,
      fun _ oneof hmem => absurd hmem List.not_mem_nil⟩
    obtain rfl := List.mem_singleton.1 hmem
    exact textGiven_sample (by simp)
  fields := by
    rw [nodes_compiled]
    simp only [List.forall_mem_cons, List.not_mem_nil, false_implies, implies_true, and_true]
    refine ⟨fun _ field hmem => ?_, fun _ field hmem => ?_,
      fun _ field hmem => absurd hmem List.not_mem_nil⟩
    · rcases List.mem_pair.1 hmem with rfl | rfl
      · exact textGiven_sample (by simp)
      · exact textGiven_sample (by simp)
    · rcases List.mem_pair.1 hmem with rfl | rfl
      · exact textGiven_sample (by simp)
      · exact textGiven_sample (by simp)
  types := by
    rw [nodes_compiled]
    simp only [List.forall_mem_cons, List.not_mem_nil, false_implies, implies_true, and_true]
    refine ⟨fun field hmem => ?_, fun field hmem => ?_,
      fun field hmem => absurd hmem List.not_mem_nil⟩
    · rcases List.mem_pair.1 hmem with rfl | rfl
      · exact fun name hname => Option.some.inj hname ▸ sample_evaluates.2.2.2.2.2.1.2
      · exact typeGiven_none
    · rcases List.mem_pair.1 hmem with rfl | rfl
      · exact typeGiven_none
      · exact fun name hname => Option.some.inj hname ▸ sample_evaluates.2.2.2.2.2.1.1
  enums := by
    rw [enumNodes]
    change ∀ node ∈ (nodes "a" "" compiled.messageType).flatMap _ ++ [], _
    rw [nodes_compiled]
    exact fun node hmem => absurd hmem List.not_mem_nil
  services service hmem := by
    obtain rfl := List.mem_singleton.1 hmem
    exact textGiven_sample (by simp)
  methods service hmem method hmethod := by
    obtain rfl := List.mem_singleton.1 hmem
    obtain rfl := List.mem_singleton.1 hmethod
    exact ⟨textGiven_sample (by simp), textGiven_sample (by simp),
      textGiven_sample (by simp)⟩

/-- With the full name of the value, the translations agree. -/
theorem agrees : Agrees refersTo (file "a.V") types compiled where
  texts := textsGiven
  fields message hmem := by
    obtain ⟨coordinate, hfound⟩ := mem_values.1 hmem
    rcases List.mem_pair.1 (mem_messages.1 hfound).1 with rfl | rfl
    · intro field hfield
      rcases List.mem_pair.1 hfield with rfl | rfl
      · refine ⟨fun hplain => ?_, fun hplain => ?_, fun key value hkey htext => ?_⟩
        · exact absurd hplain (Bool.eq_false_iff.not_left.2 (isMapType_mapText _ _))
        · exact absurd hplain (Bool.eq_false_iff.not_left.2 (isMapType_mapText _ _))
        · obtain ⟨-, rfl⟩ := mapText_inj (by decide) hkey htext
          exact denotedType_sample.symm
      · refine ⟨fun _ _ => rfl, fun _ => canonicalType_eq_iff.1 sample_evaluates.2.2.2.2.1.2,
          fun key value _ htext => ?_⟩
        have hmap := isMapType_mapText key value
        rw [← htext] at hmap
        exact absurd hmap (Bool.eq_false_iff.1 sample_evaluates.2.2.2.1.2)
    · exact fun field hfield => absurd hfield List.not_mem_nil
  methods service hmem := by
    obtain ⟨coordinate, hfound⟩ := mem_values.1 hmem
    obtain rfl := List.mem_singleton.1 (mem_services.1 hfound).1
    intro method hmethod
    obtain rfl := List.mem_singleton.1 hmethod
    exact ⟨canonicalType_eq_iff.1 sample_evaluates.2.2.2.2.1.1,
      canonicalType_eq_iff.1 sample_evaluates.2.2.2.2.1.1⟩

def a : Identifier := ⟨"a", by decide⟩
def m : Identifier := ⟨"M", by decide⟩
def v : Identifier := ⟨"V", by decide⟩

/-- A name in one part. -/
def single (first : Identifier) : WrittenName := ⟨false, first, []⟩

/-- The name `a.V`. -/
def fullName : WrittenName := ⟨false, a, [v]⟩

def fieldF (value : WrittenName) : WrittenField where
  label := .normal
  type := .map (single ⟨"string", by decide⟩) value
  name := ⟨"f", by decide⟩
  literal := ⟨"1", by decide⟩
  number := 1
  options := []

def fieldN : WrittenField where
  label := .normal
  type := .named (single ⟨"int32", by decide⟩)
  name := ⟨"n", by decide⟩
  literal := ⟨"2", by decide⟩
  number := 2
  options := []

def methodR : WrittenRpc where
  name := ⟨"R", by decide⟩
  clientStreaming := false
  inputType := single v
  serverStreaming := true
  outputType := single v
  body := none

/-- The file as it is written. -/
def written (value : WrittenName) : SourceFile where
  version := "proto3"
  items := [.package (single a),
    .message m (.field (fieldF value) (.oneof ⟨"x", by decide⟩ [.declares fieldN] .nil)),
    .message v .nil, .service ⟨"S", by decide⟩ [.declares methodR]]

/-- The names and numbers of the file, evaluated once. -/
theorem written_evaluates :
    ((single a).text = "a" ∧ (single v).text = "V" ∧ fullName.text = "a.V") ∧
    ((single ⟨"string", by decide⟩).text = "string" ∧ (single ⟨"int32", by decide⟩).text = "int32") ∧
    (∀ name ∈ [single a, single v], boundedText name.text = true) ∧
    (fieldF fullName).type.readable = true ∧ fieldN.type.readable = true ∧
      readNumber "1" = some 1 ∧ readNumber "2" = some 2 := by
  decide +kernel

theorem written_package (value : WrittenName) : (written value).package = "a" :=
  written_evaluates.1.1

theorem written_bodies (value : WrittenName) : (written value).bodies =
    [("a.M", .field (fieldF value) (.oneof ⟨"x", by decide⟩ [.declares fieldN] .nil)),
      ("a.V", .nil)] := by
  obtain ⟨hm, -, hv, -⟩ := sample_evaluates.1
  rw [SourceFile.bodies, written_package]
  simp [written, Item.bodies, Body.nested, m, v, hm, hv]

theorem written_services (value : WrittenName) :
    (written value).services = [("a.S", [.declares methodR])] := by
  rw [SourceFile.services, written_package]
  simp [written, Item.services, sample_evaluates.1.2.2.2]

/-- The file declares what the descriptor states. -/
theorem written_declared (value : WrittenName) : (written value).declared = file value.text := by
  have henums : nameSet (written value).enums = ∅ := rfl
  rw [SourceFile.declared, SourceFile.record, written_bodies, written_services, written_package, henums]
  simp [written, Item.imports, file, declaredM, recordOf, serviceOf, declaredMethods,
    Body.declaredFields, Member.declares?, WrittenField.declared, WrittenRpc.declared, fieldF, fieldN,
    methodR, WrittenType.text, written_evaluates.1, written_evaluates.2.1]

/-- The file is one of the language. -/
theorem written_regular (value : WrittenName) : (written value).Regular where
  version := List.mem_cons_of_mem _ List.mem_cons_self
  items := by
    have hfieldF : (fieldF value).Regular := ⟨fun _ => by
      change "map" ∉ _
      decide, .nil⟩
    have hfieldN : fieldN.Regular := ⟨fun _ => by decide, .nil⟩
    have hbounded := written_evaluates.2.2.1
    have hmethod : methodR.Regular := ⟨⟨hbounded _ (by simp [methodR]), fun _ => by decide⟩,
      ⟨hbounded _ (by simp [methodR]), fun _ => by decide⟩, fun _ hbody => by cases hbody⟩
    simp only [written, List.forall_mem_cons, List.not_mem_nil, false_implies, implies_true, and_true]
    refine ⟨⟨rfl, hbounded _ List.mem_cons_self⟩, ⟨hfieldF, ?_, trivial⟩, trivial, ?_⟩
    · exact List.forall_mem_cons.2 ⟨hfieldN, fun _ hmem => by cases hmem⟩
    · exact List.forall_mem_cons.2 ⟨hmethod, fun _ hmem => by cases hmem⟩
  once := le_rfl
  bodies := by
    rw [written_bodies]
    change ["a.M", "a.V"].Nodup
    decide
  enums := List.nodup_nil
  services := by
    rw [written_services]
    exact List.nodup_singleton _

/-- The text of the file, with the value of the map as it is written there. -/
def text (value : String) : String :=
  "syntax = \"proto3\"; package a; message M \x7b map<string, " ++ value ++
    "> f = 1; oneof x \x7b int32 n = 2; \x7d \x7d message V \x7b\x7d " ++
    "service S \x7b rpc R(V) returns (stream V); \x7d"

/-- With the full name of the value, all of the file is read. -/
theorem written_whole : (written fullName).Whole where
  fields := by
    obtain ⟨hmap, hnamed, hone, htwo⟩ := written_evaluates.2.2.2
    rw [written_bodies]
    simp only [List.forall_mem_cons, List.not_mem_nil, false_implies, implies_true, and_true]
    exact ⟨⟨⟨hmap, hone⟩, ⟨⟨hnamed, htwo⟩, trivial⟩, trivial⟩, trivial⟩
  methods := by
    rw [written_services]
    simp [ServiceWhole, MembersWhole]

/-- The declarations where the value of the map is written `V`. -/
theorem declared_relative : (written (single v)).declared = file "V" :=
  written_evaluates.1.2.1 ▸ written_declared (single v)

theorem denotes_relative : Denotes refersTo (written (single v)).declared compiled := by
  rw [declared_relative]
  exact denotes (by decide) (if_pos rfl)

theorem not_agrees_relative : ¬ Agrees refersTo (written (single v)).declared types compiled := by
  intro hagrees
  rw [declared_relative] at hagrees
  have hmem : declaredM "V" ∈ values (file "V").messages :=
    mem_values.2 ⟨"a.M", mem_messages.2 ⟨List.mem_cons_self, rfl⟩⟩
  have hvalue := (hagrees.fields _ hmem _ List.mem_cons_self).map "string" "V" (by decide) rfl
  have hdenoted : denotedType refersTo "a.M" "V" = "a.V" := (if_neg (by decide)).trans (if_pos rfl)
  exact absurd (hvalue.trans hdenoted) (by decide)

/-- The declarations where the value of the map is written `a.V`. -/
theorem declared_full : (written fullName).declared = file "a.V" :=
  written_evaluates.1.2.2 ▸ written_declared fullName

theorem denotes_full : Denotes refersTo (written fullName).declared compiled := by
  rw [declared_full]
  exact denotes (by decide) refersTo_full

theorem agrees_full : Agrees refersTo (written fullName).declared types compiled := by
  rw [declared_full]
  exact agrees

theorem tokenizeProto_text : tokenizeProto (text "V") = .ok (written (single v)).tokens ∧
    tokenizeProto (text "a.V") = .ok (written fullName).tokens := by
  decide +kernel

end ShapeSample

open ShapeSample

end ContractScan
