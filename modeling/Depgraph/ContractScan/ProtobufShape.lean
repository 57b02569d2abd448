import Depgraph.Library.Collect
import Depgraph.Protocol.CrossLanguage

/-!
# Shapes of a Protobuf file and of its descriptor

A descriptor is admitted as the provenance of a source file when the two have one shape. Each shape is
computed on its own: `sourceShape` from the declarations that were parsed, `descriptorShape` from the
compiled `FileDescriptorProto`, with its nested messages and its entry messages for map fields.
-/

namespace ContractScan

open Std Fallible OrderedMap

/-! ### Parsed files -/

inductive ImportKind
  | normal
  | publicImport
  | weak
deriving DecidableEq

inductive FieldLabel
  | normal
  | optional
  | required
  | repeated
deriving DecidableEq

structure ProtoImport where
  path : String
  kind : ImportKind

structure ProtoField where
  name : String
  number : Int
  label : FieldLabel
  typeName : String
  oneof : Option String

structure ProtoMessage where
  coordinate : String
  fields : List ProtoField

structure ProtoMethod where
  name : String
  inputType : String
  outputType : String
  clientStreaming : Bool
  serverStreaming : Bool

structure ProtoService where
  coordinate : String
  methods : List ProtoMethod

structure ProtoFile where
  version : String
  package : String
  imports : List ProtoImport
  messages : ExtTreeMap String ProtoMessage
  enums : ExtTreeSet String
  services : ExtTreeMap String ProtoService

/-! ### Descriptors -/

/-- `FieldDescriptorProto`; `fieldType` is its field `type`. -/
structure FieldDescriptorProto where
  name : Option String
  number : Option Int
  label : Option Int
  fieldType : Option Int
  typeName : Option String
  oneofIndex : Option Int
  proto3Optional : Option Bool

structure EnumDescriptorProto where
  name : Option String

structure OneofDescriptorProto where
  name : Option String

structure MessageOptions where
  mapEntry : Option Bool

inductive DescriptorProto
  | mk (name : Option String) (field : List FieldDescriptorProto)
      (nestedType : List DescriptorProto) (enumType : List EnumDescriptorProto)
      (oneofDecl : List OneofDescriptorProto) (options : Option MessageOptions)

namespace DescriptorProto

def name : DescriptorProto → Option String
  | mk name _ _ _ _ _ => name

def field : DescriptorProto → List FieldDescriptorProto
  | mk _ field _ _ _ _ => field

def nestedType : DescriptorProto → List DescriptorProto
  | mk _ _ nestedType _ _ _ => nestedType

def enumType : DescriptorProto → List EnumDescriptorProto
  | mk _ _ _ enumType _ _ => enumType

def oneofDecl : DescriptorProto → List OneofDescriptorProto
  | mk _ _ _ _ oneofDecl _ => oneofDecl

def options : DescriptorProto → Option MessageOptions
  | mk _ _ _ _ _ options => options

/-- The message is the entry of a map field. -/
def isMapEntry (descriptor : DescriptorProto) : Bool :=
  descriptor.options.bind MessageOptions.mapEntry == some true

end DescriptorProto

structure MethodDescriptorProto where
  name : Option String
  inputType : Option String
  outputType : Option String
  clientStreaming : Option Bool
  serverStreaming : Option Bool

structure ServiceDescriptorProto where
  name : Option String
  method : List MethodDescriptorProto

structure FileDescriptorProto where
  package : Option String
  dependency : List String
  publicDependency : List Int
  weakDependency : List Int
  messageType : List DescriptorProto
  enumType : List EnumDescriptorProto
  service : List ServiceDescriptorProto
  syntaxVersion : Option String

/-! ### Shapes -/

structure FieldShape where
  number : Int
  label : FieldLabel
  typeName : String
  oneof : Option String
deriving DecidableEq

@[ext] structure MessageShape where
  fields : ExtTreeMap String FieldShape

structure MethodShape where
  inputType : String
  outputType : String
  clientStreaming : Bool
  serverStreaming : Bool
deriving DecidableEq

@[ext] structure ServiceShape where
  methods : ExtTreeMap String MethodShape

@[ext] structure ContractShape where
  version : String
  package : String
  imports : ExtTreeMap String ImportKind
  messages : ExtTreeMap String MessageShape
  enums : ExtTreeSet String
  services : ExtTreeMap String ServiceShape

/-! ### Names -/

/-- `trim_start_matches('.')`. -/
def trimDots (name : String) : String :=
  String.ofList (name.toList.dropWhile (· == '.'))

/-- `starts_with("map<")`. -/
def isMapType (name : String) : Bool :=
  "map<".toList.isPrefixOf name.toList

def isScalarType (value : String) : Bool :=
  ["double", "float", "int32", "int64", "uint32", "uint64", "sint32", "sint64", "fixed32", "fixed64",
    "sfixed32", "sfixed64", "bool", "string", "bytes", "group"].contains value

def maxBoundedText : Nat := 4096

def boundedText (value : String) : Bool :=
  value ≠ "" && value.utf8ByteSize ≤ maxBoundedText && !value.toList.any Protocol.isControl

/-- `valid_proto_locator`; on the paths that its text checks let through, every component is normal. -/
def validProtoLocator (locator : String) : Bool :=
  locator ≠ "" && ".proto".toList.isSuffixOf locator.toList && !("/".toList.isPrefixOf locator.toList)
    && !locator.toList.contains '\\' && locator.toUTF8.data[1]? != some 58
    && (locator.toList.splitOn '/').all fun component =>
      !(["".toList, ".".toList, "..".toList].contains component)

def qualify (package parent name : String) : String :=
  if parent ≠ "" then parent ++ "." ++ name
  else if package ≠ "" then package ++ "." ++ name
  else name

/-- The name `name` in the scope `scope`. -/
def inScope (scope name : String) : String :=
  if scope = "" then name else scope ++ "." ++ name

/-- What `rsplit_once('.')` leaves of a scope, again and again; of the reversed characters. -/
def parents : List Char → List String
  | [] => []
  | c :: rest => if c = '.' then String.ofList rest.reverse :: parents rest else parents rest

/-- The scopes that are tried for a name, innermost first. -/
def scopes (scope : String) : List String :=
  scope :: parents scope.toList.reverse

/-- The loop of `canonical_type`: the first scope that declares the name. -/
def findInScopes (trimmed : String) (allTypes : ExtTreeSet String) : List String → Option String
  | [] => none
  | scope :: rest =>
    if inScope scope trimmed ∈ allTypes then some (inScope scope trimmed)
    else findInScopes trimmed allTypes rest

def canonicalType (raw scope package : String) (allTypes : ExtTreeSet String) : String :=
  if isScalarType raw || isMapType raw then raw
  else if raw.toList.head? = some '.' ∨ trimDots raw ∈ allTypes then trimDots raw
  else
    match findInScopes (trimDots raw) allTypes (scopes scope) with
    | some candidate => candidate
    | none =>
      if inScope package (trimDots raw) ∈ allTypes then inScope package (trimDots raw)
      else trimDots raw

/-- `insert_same`: a second value under a key has to be the first one again. -/
def insertSame {V : Type} [DecidableEq V] (map : ExtTreeMap String V) (key : String) (value : V)
    (error : String) : Except String (ExtTreeMap String V) :=
  match map[key]? with
  | some existing => if existing = value then .ok map else .error error
  | none => .ok (map.insert key value)

/-- `insert`, where a key that is there is an error. -/
def insertNew {V : Type} (map : ExtTreeMap String V) (key : String) (value : V) (error : String) :
    Except String (ExtTreeMap String V) :=
  if key ∈ map then .error error else .ok (map.insert key value)

def insertName (names : ExtTreeSet String) (name : String) (error : String) :
    Except String (ExtTreeSet String) :=
  if name ∈ names then .error error else .ok (names.insert name)

/-! ### The shape of a source file -/

def sourceField (source : ProtoFile) (allTypes : ExtTreeSet String) (scope : String)
    (field : ProtoField) : FieldShape where
  number := field.number
  label := field.label
  typeName := canonicalType field.typeName scope source.package allTypes
  oneof := field.oneof

def sourceMethod (source : ProtoFile) (allTypes : ExtTreeSet String) (method : ProtoMethod) :
    MethodShape where
  inputType := canonicalType method.inputType source.package source.package allTypes
  outputType := canonicalType method.outputType source.package source.package allTypes
  clientStreaming := method.clientStreaming
  serverStreaming := method.serverStreaming

def sourceMessageShape (source : ProtoFile) (allTypes : ExtTreeSet String) (message : ProtoMessage) :
    Except String MessageShape := do
  let fields ← message.fields.foldlM (fun fields field =>
    insertSame fields field.name (sourceField source allTypes message.coordinate field)
      "duplicate-protobuf-field") ∅
  pure ⟨fields⟩

def sourceServiceShape (source : ProtoFile) (allTypes : ExtTreeSet String) (service : ProtoService) :
    Except String ServiceShape := do
  let methods ← service.methods.foldlM (fun methods method =>
    insertSame methods method.name (sourceMethod source allTypes method)
      "duplicate-protobuf-method") ∅
  pure ⟨methods⟩

/-- `version.starts_with("edition:")`. -/
def isEdition (version : String) : Bool :=
  "edition:".toList.isPrefixOf version.toList

def sourceShape (source : ProtoFile) (allTypes : ExtTreeSet String) :
    Except String ContractShape := do
  check (isEdition source.version = false) "protobuf-descriptor-edition-not-supported"
  let imports ← source.imports.foldlM (fun imports declared =>
    insertSame imports declared.path declared.kind "duplicate-protobuf-import") ∅
  let messages ← (values source.messages).foldlM (fun messages message => do
    let shape ← sourceMessageShape source allTypes message
    pure (messages.insert message.coordinate shape)) ∅
  let services ← (values source.services).foldlM (fun services service => do
    let shape ← sourceServiceShape source allTypes service
    pure (services.insert service.coordinate shape)) ∅
  pure { version := source.version, package := source.package, imports, messages,
         enums := source.enums, services }

/-! ### The shape of a descriptor -/

def requiredName (value : Option String) : Except String String :=
  required (value.filter boundedText) "protobuf-descriptor-name-missing-or-invalid"

/-- The word of a field type without a name. -/
def fieldTypeWord : Int → Except String String
  | 1 => .ok "double"
  | 2 => .ok "float"
  | 3 => .ok "int64"
  | 4 => .ok "uint64"
  | 5 => .ok "int32"
  | 6 => .ok "fixed64"
  | 7 => .ok "fixed32"
  | 8 => .ok "bool"
  | 9 => .ok "string"
  | 10 => .ok "group"
  | 11 => .error "protobuf-descriptor-message-type-name-missing"
  | 12 => .ok "bytes"
  | 13 => .ok "uint32"
  | 14 => .error "protobuf-descriptor-enum-type-name-missing"
  | 15 => .ok "sfixed32"
  | 16 => .ok "sfixed64"
  | 17 => .ok "sint32"
  | 18 => .ok "sint64"
  | _ => .error "protobuf-descriptor-field-type-missing"

def descriptorFieldType (field : FieldDescriptorProto) (mapEntries : ExtTreeMap String String) :
    Except String String :=
  match field.typeName with
  | some typeName =>
    if boundedText (trimDots typeName) = true then
      .ok ((mapEntries[trimDots typeName]?).getD (trimDots typeName))
    else .error "protobuf-descriptor-type-name-invalid"
  | none => required field.fieldType "protobuf-descriptor-field-type-missing" >>= fieldTypeWord

def descriptorFieldLabel (field : FieldDescriptorProto) (version : String) :
    Except String FieldLabel :=
  match field.label with
  | some 3 => .ok .repeated
  | some 2 => .ok .required
  | some 1 =>
    if version = "proto3" ∧ field.proto3Optional ≠ some true then .ok .normal else .ok .optional
  | _ => .error "protobuf-descriptor-field-label-missing"

def descriptorIndexSet (values : List Int) (dependencyCount : Nat) :
    Except String (ExtTreeSet Nat) :=
  values.foldlM (fun indexes value => do
    check (0 ≤ value ∧ value.toNat < dependencyCount) "protobuf-descriptor-import-index-invalid"
    check (value.toNat ∉ indexes) "protobuf-descriptor-import-index-duplicate"
    pure (indexes.insert value.toNat)) ∅

/-- The text of an entry message: `map<key,value>`. -/
def mapText (key value : String) : String := "map<" ++ key ++ "," ++ value ++ ">"

/-- What `collect_map_entries` does at one message. -/
def collectMapEntry (coordinate : String) (descriptor : DescriptorProto)
    (output : ExtTreeMap String String) : Except String (ExtTreeMap String String) :=
  if descriptor.isMapEntry = true then
    match descriptor.field with
    | [keyField, valueField] => do
      let key ← descriptorFieldType keyField ∅
      let value ← descriptorFieldType valueField ∅
      pure (output.insert coordinate (mapText key value))
    | _ => .error "protobuf-descriptor-map-entry-invalid"
  else .ok output

mutual

/-- A turn of the loop of `collect_map_entries`. -/
def collectMapEntriesIn (package parent : String) (output : ExtTreeMap String String) :
    DescriptorProto → Except String (ExtTreeMap String String)
  | .mk name field nestedType enumType oneofDecl options => do
    let name ← requiredName name
    let output ← collectMapEntry (qualify package parent name)
      (.mk name field nestedType enumType oneofDecl options) output
    collectMapEntries package (qualify package parent name) output nestedType
termination_by structural descriptor => descriptor

def collectMapEntries (package parent : String) (output : ExtTreeMap String String) :
    List DescriptorProto → Except String (ExtTreeMap String String)
  | [] => .ok output
  | descriptor :: rest => do
    let output ← collectMapEntriesIn package parent output descriptor
    collectMapEntries package parent output rest
termination_by structural descriptors => descriptors

end

/-- The oneof of a field; the oneof of an explicit `optional` is synthetic. -/
def descriptorOneof (oneofs : List String) (field : FieldDescriptorProto) :
    Except String (Option String) :=
  if field.proto3Optional = some true then .ok none
  else
    match field.oneofIndex with
    | some index =>
      if 0 ≤ index then
        (required oneofs[index.toNat]? "protobuf-descriptor-oneof-index-invalid").map some
      else .error "protobuf-descriptor-oneof-index-invalid"
    | none => .ok none

def descriptorFieldShape (version : String) (mapEntries : ExtTreeMap String String)
    (oneofs : List String) (field : FieldDescriptorProto) : Except String FieldShape := do
  let typeName ← descriptorFieldType field mapEntries
  let label ← if isMapType typeName = true then .ok .normal else descriptorFieldLabel field version
  let oneof ← descriptorOneof oneofs field
  let number ← required (field.number.filter fun number => 0 < number)
    "protobuf-descriptor-field-number-invalid"
  pure { number, label, typeName, oneof }

def descriptorMessageShape (version : String) (mapEntries : ExtTreeMap String String)
    (descriptor : DescriptorProto) : Except String MessageShape := do
  let oneofs ← descriptor.oneofDecl.mapM fun oneof => requiredName oneof.name
  let fields ← descriptor.field.foldlM (fun fields field => do
    let fieldName ← requiredName field.name
    let shape ← descriptorFieldShape version mapEntries oneofs field
    insertSame fields fieldName shape "duplicate-protobuf-descriptor-field") ∅
  pure ⟨fields⟩

def collectEnums (package parent : String) (enums : ExtTreeSet String)
    (enumType : List EnumDescriptorProto) : Except String (ExtTreeSet String) :=
  enumType.foldlM (fun enums enumeration => do
    let name ← requiredName enumeration.name
    insertName enums (qualify package parent name) "duplicate-protobuf-descriptor-enum") enums

/-- What `collect_descriptor_message` records of the message itself. -/
def collectMessage (version : String) (mapEntries : ExtTreeMap String String) (coordinate : String)
    (descriptor : DescriptorProto) (messages : ExtTreeMap String MessageShape) :
    Except String (ExtTreeMap String MessageShape) :=
  if descriptor.isMapEntry = true then .ok messages
  else do
    let shape ← descriptorMessageShape version mapEntries descriptor
    insertNew messages coordinate shape "duplicate-protobuf-descriptor-message"

mutual

def collectDescriptorMessage (package version : String) (mapEntries : ExtTreeMap String String)
    (parent : String) (state : ExtTreeMap String MessageShape × ExtTreeSet String) :
    DescriptorProto → Except String (ExtTreeMap String MessageShape × ExtTreeSet String)
  | .mk name field nestedType enumType oneofDecl options => do
    let name ← requiredName name
    let messages ← collectMessage version mapEntries (qualify package parent name)
      (.mk name field nestedType enumType oneofDecl options) state.1
    let enums ← collectEnums package (qualify package parent name) state.2 enumType
    collectDescriptorMessages package version mapEntries (qualify package parent name)
      (messages, enums) nestedType
termination_by structural descriptor => descriptor

/-- `collect_descriptor_message` for each message of a list. -/
def collectDescriptorMessages (package version : String) (mapEntries : ExtTreeMap String String)
    (parent : String) (state : ExtTreeMap String MessageShape × ExtTreeSet String) :
    List DescriptorProto → Except String (ExtTreeMap String MessageShape × ExtTreeSet String)
  | [] => .ok state
  | descriptor :: rest => do
    let state ← collectDescriptorMessage package version mapEntries parent state descriptor
    collectDescriptorMessages package version mapEntries parent state rest
termination_by structural descriptors => descriptors

end

def descriptorMethodShape (method : MethodDescriptorProto) : Except String MethodShape := do
  let inputType ← requiredName method.inputType
  let outputType ← requiredName method.outputType
  pure { inputType := trimDots inputType, outputType := trimDots outputType,
         clientStreaming := method.clientStreaming.getD false,
         serverStreaming := method.serverStreaming.getD false }

def descriptorServiceShape (service : ServiceDescriptorProto) : Except String ServiceShape := do
  let methods ← service.method.foldlM (fun methods method => do
    let name ← requiredName method.name
    let shape ← descriptorMethodShape method
    insertSame methods name shape "duplicate-protobuf-descriptor-method") ∅
  pure ⟨methods⟩

/-- The kind of the dependency with an index. -/
def dependencyKind (publicIndexes weakIndexes : ExtTreeSet Nat) (index : Nat) : ImportKind :=
  if index ∈ publicIndexes then .publicImport
  else if index ∈ weakIndexes then .weak
  else .normal

def descriptorShape (descriptor : FileDescriptorProto) : Except String ContractShape := do
  let version := descriptor.syntaxVersion.getD "proto2"
  check (version ∈ ["proto2", "proto3"]) "unsupported-protobuf-descriptor-version"
  let package := descriptor.package.getD ""
  let publicIndexes ← descriptorIndexSet descriptor.publicDependency descriptor.dependency.length
  let weakIndexes ← descriptorIndexSet descriptor.weakDependency descriptor.dependency.length
  check (publicIndexes.toList.all (fun index => !weakIndexes.contains index) = true)
    "protobuf-descriptor-import-kind-conflict"
  let imports ← descriptor.dependency.zipIdx.foldlM (fun imports entry => do
    check (validProtoLocator entry.1 = true) "protobuf-descriptor-import-out-of-root"
    insertSame imports entry.1 (dependencyKind publicIndexes weakIndexes entry.2)
      "duplicate-protobuf-descriptor-import") ∅
  let mapEntries ← collectMapEntries package "" ∅ descriptor.messageType
  let (messages, nestedEnums) ←
    collectDescriptorMessages package version mapEntries "" (∅, ∅) descriptor.messageType
  let enums ← collectEnums package "" nestedEnums descriptor.enumType
  let services ← descriptor.service.foldlM (fun services service => do
    let shape ← descriptorServiceShape service
    let name ← requiredName service.name
    insertNew services (qualify package "" name) shape "duplicate-protobuf-descriptor-service") ∅
  pure { version, package, imports, messages, enums, services }

end ContractScan
