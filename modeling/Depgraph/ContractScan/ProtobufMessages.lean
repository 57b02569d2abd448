import Depgraph.ContractScan.ProtobufFields

/-!
# Messages and services of a descriptor

The loops over fields, methods, messages and entry messages end exactly when the texts they read are
given, and what they collect is compared record by record with what the source file declares.
-/

namespace ContractScan

open Std Fallible OrderedMap

variable {resolve : String → String → String} {source : ProtoFile}

/-! ### Records in pairs -/

section

variable {α β : Type} {R : α → β → Prop} {l : List α} {l' : List β}

theorem exists_right_of_forall₂ (h : List.Forall₂ R l l') {a : α} (ha : a ∈ l) : ∃ b ∈ l', R a b := by
  induction h with
  | nil => cases ha
  | cons hab _ ih =>
    rcases List.mem_cons.1 ha with rfl | ha
    · exact ⟨_, List.mem_cons_self, hab⟩
    · obtain ⟨b, hb, hR⟩ := ih ha
      exact ⟨b, List.mem_cons_of_mem _ hb, hR⟩

theorem exists_left_of_forall₂ (h : List.Forall₂ R l l') {b : β} (hb : b ∈ l') : ∃ a ∈ l, R a b :=
  exists_right_of_forall₂ h.flip hb

theorem map_eq_of_forall₂ {γ : Type} {f : α → γ} {g : β → γ} (h : List.Forall₂ R l l')
    (hR : ∀ a b, R a b → f a = g b) : l.map f = l'.map g := by
  induction h with
  | nil => rfl
  | cons hab _ ih => rw [List.map_cons, List.map_cons, hR _ _ hab, ih]

end

/-! ### Fields of a message -/

/-- The turn of the loop over the fields of a descriptor. -/
theorem collectStep_fields (version : String) (entries : ExtTreeMap String String)
    (oneofs : List String) : CollectStep (fun field : FieldDescriptorProto => field.name.getD "")
      (fun _ => True)
      (fun field => requiredName field.name >>= fun _ =>
        descriptorFieldShape version entries oneofs field)
      (fun fields field => do
        let fieldName ← requiredName field.name
        let shape ← descriptorFieldShape version entries oneofs field
        insertSame fields fieldName shape "duplicate-protobuf-descriptor-field") := by
  refine collectStep_insertSame "duplicate-protobuf-descriptor-field" fun m field => ?_
  cases hname : requiredName field.name with
  | error e => rfl
  | ok name =>
    rw [(requiredName_eq_ok.1 hname).1]
    rfl

theorem collectStep_sourceFields (source : ProtoFile) (allTypes : ExtTreeSet String) (scope : String) :
    CollectStep ProtoField.name (fun _ => True)
      (fun field => (.ok (sourceField source allTypes scope field) : Except String FieldShape))
      (fun fields field => insertSame fields field.name (sourceField source allTypes scope field)
        "duplicate-protobuf-field") :=
  collectStep_insertSame "duplicate-protobuf-field" fun _ _ => rfl

/-- The texts that a message of a descriptor has to give. -/
structure MessageTexts (descriptor : DescriptorProto) : Prop where
  oneofs : ∀ oneof ∈ descriptor.oneofDecl, TextGiven oneof.name
  fields : ∀ field ∈ descriptor.field, TextGiven field.name
  types : ∀ field ∈ descriptor.field, TypeGiven field

theorem typeGiven_of_shape {version : String} {entries : ExtTreeMap String String}
    {oneofs : List String} {field : FieldDescriptorProto} {shape : FieldShape}
    (h : descriptorFieldShape version entries oneofs field = .ok shape) : TypeGiven field := by
  rw [descriptorFieldShape, bind_eq_ok] at h
  obtain ⟨typeName, htype, -⟩ := h
  exact typeGiven_of_ok htype

variable {messages : List (String × DescriptorProto)} {entries : ExtTreeMap String String}
  {message : ProtoMessage} {descriptor : DescriptorProto}

theorem sourceMessageShape_ok (source : ProtoFile) (allTypes : ExtTreeSet String)
    (hnames : (message.fields.map ProtoField.name).Nodup) :
    ∃ fields, sourceMessageShape source allTypes message = .ok ⟨fields⟩ ∧
      Collects ProtoField.name (fun _ => True)
        (fun field shape => (.ok (sourceField source allTypes message.coordinate field) :
          Except String FieldShape) = .ok shape) message.fields fields := by
  have hstep : CollectStep ProtoField.name (fun _ => True) _ _ :=
    collectStep_sourceFields source allTypes message.coordinate
  obtain ⟨fields, hfields⟩ := (hstep.exists_iff hnames).2 fun field _ _ => ⟨_, rfl⟩
  refine ⟨fields, ?_, hstep.collects hnames hfields⟩
  rw [sourceMessageShape, bind_of_ok hfields]
  rfl

theorem messageTexts_of_ok {version : String} {shape : MessageShape}
    (hnames : (descriptor.field.map fun field => field.name.getD "").Nodup)
    (h : descriptorMessageShape version entries descriptor = .ok shape) :
    MessageTexts descriptor := by
  rw [descriptorMessageShape, bind_eq_ok] at h
  obtain ⟨oneofs, honeofs, h⟩ := h
  rw [bind_eq_ok] at h
  obtain ⟨fields, hfields, -⟩ := h
  have hfound := ((collectStep_fields version entries oneofs).exists_iff hnames).1 ⟨fields, hfields⟩
  refine ⟨fun oneof hmem => ?_, fun field hmem => ?_, fun field hmem => ?_⟩
  · obtain ⟨name, -, hname⟩ := exists_right_of_forall₂ (mapM_eq_ok honeofs) hmem
    exact textGiven_iff.2 ⟨name, hname⟩
  · obtain ⟨shape, hshape⟩ := hfound field hmem trivial
    obtain ⟨name, hname, -⟩ := bind_eq_ok.1 hshape
    exact textGiven_iff.2 ⟨name, hname⟩
  · obtain ⟨shape, hshape⟩ := hfound field hmem trivial
    obtain ⟨name, -, hshape⟩ := bind_eq_ok.1 hshape
    exact typeGiven_of_shape hshape

/-- **The two shapes of a message are equal exactly when all its fields agree.** -/
theorem message_shape (allTypes : ExtTreeSet String)
    (h : List.Forall₂ (DenotesField resolve source.version message.coordinate messages
      descriptor.oneofDecl) message.fields descriptor.field)
    (hnames : (message.fields.map ProtoField.name).Nodup)
    (hentries : EntriesOf resolve messages entries) (htexts : MessageTexts descriptor) :
    ∃ shape, descriptorMessageShape source.version entries descriptor = .ok shape ∧
      ∀ declared, sourceMessageShape source allTypes message = .ok declared →
        (declared = shape ↔ ∀ field ∈ message.fields,
          FieldAgrees resolve source allTypes message.coordinate field) := by
  have hsameNames : message.fields.map ProtoField.name =
      descriptor.field.map fun field => field.name.getD "" :=
    map_eq_of_forall₂ h fun field fieldDescriptor hfield => by rw [hfield.name, Option.getD_some]
  have hnames' := hsameNames ▸ hnames
  have honeofs := mapM_of_ok (l := descriptor.oneofDecl)
    (f := fun oneof => requiredName oneof.name) fun oneof hmem =>
      textGiven_iff.1 (htexts.oneofs oneof hmem)
  obtain ⟨oneofs, honeofs⟩ : ∃ oneofs, descriptor.oneofDecl.mapM
      (fun oneof => requiredName oneof.name) = .ok oneofs := ⟨_, honeofs⟩
  have hstep := collectStep_fields source.version entries oneofs
  obtain ⟨fields, hfields⟩ := (hstep.exists_iff hnames').2 fun field hmem _ => by
    obtain ⟨declared, -, hfield⟩ := exists_left_of_forall₂ h hmem
    obtain ⟨shape, hshape, -⟩ :=
      hfield.shape allTypes hentries honeofs (htexts.types field hmem)
    obtain ⟨name, hname⟩ := textGiven_iff.1 (htexts.fields field hmem)
    exact ⟨shape, by rw [bind_of_ok hname, hshape]⟩
  refine ⟨⟨fields⟩, ?_, fun declared hdeclared => ?_⟩
  · rw [descriptorMessageShape, bind_of_ok honeofs, bind_of_ok hfields]
    rfl
  obtain ⟨declaredFields, hsource, hcollects⟩ :=
    sourceMessageShape_ok source allTypes hnames
  obtain rfl := Except.ok.inj (hsource.symm.trans hdeclared)
  rw [MessageShape.mk.injEq, hcollects.eq_iff (hstep.collects hnames' hfields)
    (P := FieldAgrees resolve source allTypes message.coordinate)]
  · simp
  · intro field hmem _
    obtain ⟨fieldDescriptor, hmem', hfield⟩ := exists_right_of_forall₂ h hmem
    obtain ⟨shape, hshape, hiff⟩ :=
      hfield.shape allTypes hentries honeofs (htexts.types _ hmem')
    refine ⟨fieldDescriptor, hmem', trivial, by rw [hfield.name, Option.getD_some],
      fun v w hv hw => ?_⟩
    obtain ⟨name, -, hw⟩ := bind_eq_ok.1 hw
    rw [← Except.ok.inj hv, ← hiff, Except.ok.inj (hshape.symm.trans hw)]
  · intro fieldDescriptor hmem _
    obtain ⟨field, hmem', hfield⟩ := exists_left_of_forall₂ h hmem
    exact ⟨field, hmem', trivial, by rw [hfield.name, Option.getD_some]⟩

/-! ### Methods of a service -/

theorem collectStep_methods : CollectStep (fun method : MethodDescriptorProto => method.name.getD "")
    (fun _ => True)
    (fun method => requiredName method.name >>= fun _ => descriptorMethodShape method)
    (fun methods method => do
      let name ← requiredName method.name
      let shape ← descriptorMethodShape method
      insertSame methods name shape "duplicate-protobuf-descriptor-method") := by
  refine collectStep_insertSame "duplicate-protobuf-descriptor-method" fun m method => ?_
  cases hname : requiredName method.name with
  | error e => rfl
  | ok name =>
    rw [(requiredName_eq_ok.1 hname).1]
    rfl

theorem collectStep_sourceMethods (source : ProtoFile) (allTypes : ExtTreeSet String) :
    CollectStep ProtoMethod.name (fun _ => True)
      (fun method => (.ok (sourceMethod source allTypes method) : Except String MethodShape))
      (fun methods method => insertSame methods method.name (sourceMethod source allTypes method)
        "duplicate-protobuf-method") :=
  collectStep_insertSame "duplicate-protobuf-method" fun _ _ => rfl

/-- The texts that a service of a descriptor has to give. -/
def ServiceTexts (descriptor : ServiceDescriptorProto) : Prop :=
  ∀ method ∈ descriptor.method,
    TextGiven method.name ∧ TextGiven method.inputType ∧ TextGiven method.outputType

variable {service : ProtoService} {serviceDescriptor : ServiceDescriptorProto}

theorem sourceServiceShape_ok (source : ProtoFile) (allTypes : ExtTreeSet String)
    (hnames : (service.methods.map ProtoMethod.name).Nodup) :
    ∃ methods, sourceServiceShape source allTypes service = .ok ⟨methods⟩ ∧
      Collects ProtoMethod.name (fun _ => True)
        (fun method shape => (.ok (sourceMethod source allTypes method) :
          Except String MethodShape) = .ok shape) service.methods methods := by
  have hstep : CollectStep ProtoMethod.name (fun _ => True) _ _ :=
    collectStep_sourceMethods source allTypes
  obtain ⟨methods, hmethods⟩ := (hstep.exists_iff hnames).2 fun method _ _ => ⟨_, rfl⟩
  refine ⟨methods, ?_, hstep.collects hnames hmethods⟩
  rw [sourceServiceShape, bind_of_ok hmethods]
  rfl

theorem serviceTexts_of_ok {shape : ServiceShape}
    (hnames : (serviceDescriptor.method.map fun method => method.name.getD "").Nodup)
    (h : descriptorServiceShape serviceDescriptor = .ok shape) : ServiceTexts serviceDescriptor := by
  rw [descriptorServiceShape, bind_eq_ok] at h
  obtain ⟨methods, hmethods, -⟩ := h
  intro method hmem
  obtain ⟨shape, hshape⟩ :=
    (collectStep_methods.exists_iff hnames).1 ⟨methods, hmethods⟩ method hmem trivial
  obtain ⟨name, hname, hshape⟩ := bind_eq_ok.1 hshape
  rw [descriptorMethodShape, bind_eq_ok] at hshape
  obtain ⟨input, hinput, hshape⟩ := hshape
  obtain ⟨output, houtput, -⟩ := bind_eq_ok.1 hshape
  exact ⟨textGiven_iff.2 ⟨name, hname⟩, textGiven_iff.2 ⟨input, hinput⟩,
    textGiven_iff.2 ⟨output, houtput⟩⟩

/-- The type names of a method are read as they are denoted. -/
def MethodAgrees (resolve : String → String → String) (source : ProtoFile)
    (allTypes : ExtTreeSet String) (method : ProtoMethod) : Prop :=
  ReadAs allTypes source.package source.package method.inputType
    (resolve source.package method.inputType) ∧
  ReadAs allTypes source.package source.package method.outputType
    (resolve source.package method.outputType)

/-- **The two shapes of a service are equal exactly when all its methods agree.** -/
theorem service_shape (allTypes : ExtTreeSet String)
    (h : List.Forall₂ (DenotesMethod resolve source.package) service.methods
      serviceDescriptor.method)
    (hnames : (service.methods.map ProtoMethod.name).Nodup)
    (htexts : ServiceTexts serviceDescriptor) :
    ∃ shape, descriptorServiceShape serviceDescriptor = .ok shape ∧
      ∀ declared, sourceServiceShape source allTypes service = .ok declared →
        (declared = shape ↔ ∀ method ∈ service.methods,
          MethodAgrees resolve source allTypes method) := by
  have hsameNames : service.methods.map ProtoMethod.name =
      serviceDescriptor.method.map fun method => method.name.getD "" :=
    map_eq_of_forall₂ h fun method methodDescriptor hmethod => by
      rw [hmethod.name, Option.getD_some]
  have hnames' := hsameNames ▸ hnames
  obtain ⟨methods, hmethods⟩ := (collectStep_methods.exists_iff hnames').2 fun method hmem _ => by
    obtain ⟨declared, -, hmethod⟩ := exists_left_of_forall₂ h hmem
    obtain ⟨hname, hinput, houtput⟩ := htexts method hmem
    obtain ⟨shape, hshape, -⟩ := hmethod.shape allTypes hinput houtput
    obtain ⟨name, hname⟩ := textGiven_iff.1 hname
    exact ⟨shape, by rw [bind_of_ok hname, hshape]⟩
  refine ⟨⟨methods⟩, ?_, fun declared hdeclared => ?_⟩
  · rw [descriptorServiceShape, bind_of_ok hmethods]
    rfl
  obtain ⟨declaredMethods, hsource, hcollects⟩ :=
    sourceServiceShape_ok source allTypes hnames
  obtain rfl := Except.ok.inj (hsource.symm.trans hdeclared)
  rw [ServiceShape.mk.injEq, hcollects.eq_iff (collectStep_methods.collects hnames' hmethods)
    (P := MethodAgrees resolve source allTypes)]
  · simp
  · intro method hmem _
    obtain ⟨methodDescriptor, hmem', hmethod⟩ := exists_right_of_forall₂ h hmem
    obtain ⟨-, hinput, houtput⟩ := htexts methodDescriptor hmem'
    obtain ⟨shape, hshape, hiff⟩ := hmethod.shape allTypes hinput houtput
    refine ⟨methodDescriptor, hmem', trivial, by rw [hmethod.name, Option.getD_some],
      fun v w hv hw => ?_⟩
    obtain ⟨name, -, hw⟩ := bind_eq_ok.1 hw
    rw [← Except.ok.inj hv, MethodAgrees, ← hiff, Except.ok.inj (hshape.symm.trans hw)]
  · intro methodDescriptor hmem _
    obtain ⟨method, hmem', hmethod⟩ := exists_left_of_forall₂ h hmem
    exact ⟨method, hmem', trivial, by rw [hmethod.name, Option.getD_some]⟩

end ContractScan
