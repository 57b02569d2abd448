import Depgraph.ContractScan.ProtobufNodes

/-!
# The descriptor of a source file

`Denotes resolve source descriptor` says that a descriptor states the declarations of a parsed file, as
the compiler writes it: full type names with a leading dot, an entry message for a map field,
`LABEL_OPTIONAL` for a field without a label, and `proto3_optional` for an explicit `optional` of a
proto3 file. `resolve scope name` is the full name of the type that a written name refers to, which
depends on the imports of the file and is a parameter here.
-/

namespace ContractScan

open Std Fallible OrderedMap

/-- The scalar types: the number in a descriptor and the word in a source file. -/
def scalarTypes : List (Int × String) :=
  [(1, "double"), (2, "float"), (3, "int64"), (4, "uint64"), (5, "int32"), (6, "fixed64"),
    (7, "fixed32"), (8, "bool"), (9, "string"), (12, "bytes"), (13, "uint32"), (15, "sfixed32"),
    (16, "sfixed64"), (17, "sint32"), (18, "sint64")]

/-- The word of a scalar type. -/
def IsScalarWord (raw : String) : Prop := raw ∈ scalarTypes.map Prod.snd

instance decidableIsScalarWord (raw : String) : Decidable (IsScalarWord raw) :=
  inferInstanceAs (Decidable (raw ∈ scalarTypes.map Prod.snd))

/-- A full type name has no leading dot, and no character that is not of a name. -/
def IsFullName (name : String) : Prop :=
  name.toList.head? ≠ some '.' ∧ '<' ∉ name.toList

section

variable (resolve : String → String → String)

/-- The type that a written name stands for in a scope. -/
def denotedType (scope raw : String) : String :=
  if IsScalarWord raw then raw else resolve scope raw

/-- A field of a descriptor has the type that a written name stands for. -/
structure DenotesType (scope raw : String) (field : FieldDescriptorProto) : Prop where
  scalar : IsScalarWord raw → field.typeName = none ∧
    ∃ number, field.fieldType = some number ∧ (number, raw) ∈ scalarTypes
  named : ¬ IsScalarWord raw → field.typeName = some ("." ++ resolve scope raw) ∧
    IsFullName (resolve scope raw)

/-- The label of a field in a file of a version. -/
def DenotesLabel (version : String) (label : FieldLabel) (field : FieldDescriptorProto) : Prop :=
  match label with
  | .normal => field.label = some 1 ∧ field.proto3Optional ≠ some true
  | .optional => field.label = some 1 ∧ (field.proto3Optional = some true ↔ version = "proto3")
  | .required => field.label = some 2 ∧ field.proto3Optional ≠ some true
  | .repeated => field.label = some 3 ∧ field.proto3Optional ≠ some true

/-- The oneof of a field. That of an explicit `optional` is synthetic. -/
def DenotesOneof (oneofDecl : List OneofDescriptorProto) (oneof : Option String)
    (field : FieldDescriptorProto) : Prop :=
  if field.proto3Optional = some true then oneof = none
  else
    match oneof with
    | some name => ∃ index : Nat, field.oneofIndex = some (index : Int) ∧
        oneofDecl[index]?.bind OneofDescriptorProto.name = some name
    | none => field.oneofIndex = none

/-- A field that is not a map. -/
structure DenotesPlain (version scope : String) (isEntry : String → Prop)
    (oneofDecl : List OneofDescriptorProto) (field : ProtoField)
    (descriptor : FieldDescriptorProto) : Prop where
  plain : isMapType field.typeName = false
  type : DenotesType resolve scope field.typeName descriptor
  notEntry : ¬ IsScalarWord field.typeName → ¬ isEntry (resolve scope field.typeName)
  label : DenotesLabel version field.label descriptor
  oneof : DenotesOneof oneofDecl field.oneof descriptor

/-- A map field refers to its entry message, which holds the types of the key and the value. -/
structure DenotesMap (scope : String) (messages : List (String × DescriptorProto))
    (field : ProtoField) (descriptor : FieldDescriptorProto) (key value : String) : Prop where
  type : field.typeName = mapText key value
  entry : ∃ coordinate entry keyField valueField, (coordinate, entry) ∈ messages ∧
    entry.isMapEntry = true ∧ entry.field = [keyField, valueField] ∧ IsScalarWord key ∧
    DenotesType resolve scope key keyField ∧ DenotesType resolve scope value valueField ∧
    descriptor.typeName = some ("." ++ coordinate) ∧ coordinate.toList.head? ≠ some '.'
  label : field.label = .normal ∧ descriptor.label = some 3 ∧ descriptor.proto3Optional ≠ some true
  oneof : field.oneof = none ∧ descriptor.oneofIndex = none

structure DenotesField (version scope : String) (messages : List (String × DescriptorProto))
    (oneofDecl : List OneofDescriptorProto) (field : ProtoField)
    (descriptor : FieldDescriptorProto) : Prop where
  name : descriptor.name = some field.name
  number : descriptor.number = some field.number ∧ 0 < field.number
  type : DenotesPlain resolve version scope
      (fun name => ∃ node ∈ messages, node.1 = name ∧ node.2.isMapEntry = true) oneofDecl field
      descriptor ∨
    ∃ key value, DenotesMap resolve scope messages field descriptor key value

structure DenotesMethod (package : String) (method : ProtoMethod)
    (descriptor : MethodDescriptorProto) : Prop where
  name : descriptor.name = some method.name
  input : descriptor.inputType = some ("." ++ resolve package method.inputType) ∧
    IsFullName (resolve package method.inputType)
  output : descriptor.outputType = some ("." ++ resolve package method.outputType) ∧
    IsFullName (resolve package method.outputType)
  client : descriptor.clientStreaming.getD false = method.clientStreaming
  server : descriptor.serverStreaming.getD false = method.serverStreaming

/-- The indexes of the imports of a kind. -/
def DenotesKind (imports : List ProtoImport) (kind : ImportKind) (indexes : List Int) : Prop :=
  indexes.Nodup ∧ ∀ value, value ∈ indexes ↔
    ∃ index : Nat, value = index ∧ (imports[index]?).map ProtoImport.kind = some kind

/-- The coordinate of a service. -/
def serviceCoordinate (package : String) (service : ServiceDescriptorProto) : String :=
  qualify package "" (service.name.getD "")

/-- The descriptor states the declarations of the source file. -/
structure Denotes (source : ProtoFile) (descriptor : FileDescriptorProto) : Prop where
  version : descriptor.syntaxVersion.getD "proto2" = source.version
  known : source.version ∈ ["proto2", "proto3"]
  package : descriptor.package.getD "" = source.package
  imports : descriptor.dependency = source.imports.map ProtoImport.path
  publicImports : DenotesKind source.imports .publicImport descriptor.publicDependency
  weakImports : DenotesKind source.imports .weak descriptor.weakDependency
  messages : ∀ node ∈ nodes source.package "" descriptor.messageType, node.2.isMapEntry = false →
    ∃ message, source.messages[node.1]? = some message ∧ List.Forall₂
      (DenotesField resolve source.version node.1 (nodes source.package "" descriptor.messageType)
        node.2.oneofDecl) message.fields node.2.field
  entries : ∀ node ∈ nodes source.package "" descriptor.messageType, node.2.isMapEntry = true →
    ∃ scope key value keyField valueField, node.2.field = [keyField, valueField] ∧
      IsScalarWord key ∧ DenotesType resolve scope key keyField ∧
      DenotesType resolve scope value valueField
  allMessages : ∀ coordinate ∈ source.messages,
    ∃ node ∈ nodes source.package "" descriptor.messageType,
      node.1 = coordinate ∧ node.2.isMapEntry = false
  enums : ∀ name, name ∈ source.enums ↔
    name ∈ (enumNodes source.package descriptor.messageType descriptor.enumType).map Prod.fst
  services : ∀ service ∈ descriptor.service, ∃ declared,
    source.services[serviceCoordinate source.package service]? = some declared ∧
      List.Forall₂ (DenotesMethod resolve source.package) declared.methods service.method
  allServices : ∀ coordinate ∈ source.services, ∃ service ∈ descriptor.service,
    serviceCoordinate source.package service = coordinate

end

/-- Nothing is declared twice, and records are found under their own coordinates. -/
structure DistinctNames (source : ProtoFile) (descriptor : FileDescriptorProto) : Prop where
  imports : (source.imports.map ProtoImport.path).Nodup
  messageKeys : KeyedBy ProtoMessage.coordinate source.messages
  serviceKeys : KeyedBy ProtoService.coordinate source.services
  fields : ∀ message ∈ values source.messages, (message.fields.map ProtoField.name).Nodup
  methods : ∀ service ∈ values source.services, (service.methods.map ProtoMethod.name).Nodup
  messages : ((nodes source.package "" descriptor.messageType).map Prod.fst).Nodup
  enums : ((enumNodes source.package descriptor.messageType descriptor.enumType).map
    Prod.fst).Nodup
  services : (descriptor.service.map (serviceCoordinate source.package)).Nodup

/-! ### When the two shapes agree -/

/-- The names that `canonical_type` tries for a written name that does not start with a dot. -/
def candidates (scope package name : String) : List String :=
  name :: ((scopes scope).map (inScope · name) ++ [inScope package name])

/-- A written name is read as a full name: a scalar word is kept, a name with a leading dot is full, and
any other is the first of its candidates that some file declares, or itself. -/
def ReadAs (allTypes : ExtTreeSet String) (package scope raw full : String) : Prop :=
  if isScalarType raw = true ∨ isMapType raw = true then full = raw
  else if raw.toList.head? = some '.' then full = trimDots raw
  else full = ((candidates scope package (trimDots raw)).find? (allTypes.contains ·)).getD
    (trimDots raw)

/-- A text that a descriptor has to give is there and bounded. -/
def TextGiven (value : Option String) : Prop :=
  ∃ text, value = some text ∧ boundedText text = true

/-- The name of a type, where a field has one, is bounded. -/
def TypeGiven (field : FieldDescriptorProto) : Prop :=
  ∀ typeName, field.typeName = some typeName → boundedText (trimDots typeName) = true

/-- The texts of a descriptor are bounded, and its imports stay in the repository. -/
structure TextsGiven (package : String) (descriptor : FileDescriptorProto) : Prop where
  imports : ∀ path ∈ descriptor.dependency, validProtoLocator path = true
  messages : ∀ node ∈ nodes package "" descriptor.messageType, TextGiven node.2.name
  oneofs : ∀ node ∈ nodes package "" descriptor.messageType, node.2.isMapEntry = false →
    ∀ oneof ∈ node.2.oneofDecl, TextGiven oneof.name
  fields : ∀ node ∈ nodes package "" descriptor.messageType, node.2.isMapEntry = false →
    ∀ field ∈ node.2.field, TextGiven field.name
  types : ∀ node ∈ nodes package "" descriptor.messageType, ∀ field ∈ node.2.field, TypeGiven field
  enums : ∀ node ∈ enumNodes package descriptor.messageType descriptor.enumType,
    TextGiven node.2.name
  services : ∀ service ∈ descriptor.service, TextGiven service.name
  methods : ∀ service ∈ descriptor.service, ∀ method ∈ service.method,
    TextGiven method.name ∧ TextGiven method.inputType ∧ TextGiven method.outputType

/-- What the two translations of a field have to agree on. A field without a label has one in a proto2
descriptor, and the value of a map is compared as it is written. -/
structure FieldAgrees (resolve : String → String → String) (source : ProtoFile)
    (allTypes : ExtTreeSet String) (scope : String) (field : ProtoField) : Prop where
  label : isMapType field.typeName = false → field.label = .normal → source.version = "proto3"
  type : isMapType field.typeName = false →
    ReadAs allTypes source.package scope field.typeName (denotedType resolve scope field.typeName)
  map : ∀ key value, IsScalarWord key → field.typeName = mapText key value →
    value = denotedType resolve scope value

/-- **The condition under which a descriptor has the shape of its source file.** -/
structure Agrees (resolve : String → String → String) (source : ProtoFile)
    (allTypes : ExtTreeSet String) (descriptor : FileDescriptorProto) : Prop where
  texts : TextsGiven source.package descriptor
  fields : ∀ message ∈ values source.messages, ∀ field ∈ message.fields,
    FieldAgrees resolve source allTypes message.coordinate field
  methods : ∀ service ∈ values source.services, ∀ method ∈ service.methods,
    ReadAs allTypes source.package source.package method.inputType
      (resolve source.package method.inputType) ∧
    ReadAs allTypes source.package source.package method.outputType
      (resolve source.package method.outputType)

end ContractScan
