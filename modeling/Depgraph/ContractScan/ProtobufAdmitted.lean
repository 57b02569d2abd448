import Depgraph.ContractScan.ProtobufAgree

/-!
# Which descriptors have the shape of their source

`shapes_iff_agrees` puts the loops together: both shapes are computed and equal exactly under `Agrees`.
-/

namespace ContractScan

open Std Fallible OrderedMap

variable {resolve : String → String → String} {source : ProtoFile}
  {descriptor : FileDescriptorProto}

/-! ### Services -/

theorem collectStep_services (package : String) :
    CollectStep (serviceCoordinate package) (fun _ => True)
      (fun service => do
        let shape ← descriptorServiceShape service
        let _ ← requiredName service.name
        pure shape)
      (fun services service => do
        let shape ← descriptorServiceShape service
        let name ← requiredName service.name
        insertNew services (qualify package "" name) shape
          "duplicate-protobuf-descriptor-service") := by
  refine collectStep_insertNew "duplicate-protobuf-descriptor-service" fun m service => ?_
  rw [bind_assoc]
  refine bind_congr fun shape => ?_
  rw [serviceCoordinate]
  cases hname : requiredName service.name with
  | error e => rfl
  | ok name =>
    rw [(requiredName_eq_ok.1 hname).1]
    rfl

section

variable (h : Denotes resolve source descriptor) (hdistinct : DistinctNames source descriptor)

include h hdistinct

/-- The service of the source file at a service of the descriptor. -/
theorem declared_service {service : ServiceDescriptorProto} (hmem : service ∈ descriptor.service) :
    ∃ declared ∈ values source.services,
      declared.coordinate = serviceCoordinate source.package service ∧
      (declared.methods.map ProtoMethod.name).Nodup ∧
      List.Forall₂ (DenotesMethod resolve source.package) declared.methods service.method := by
  obtain ⟨declared, hfound, hmethods⟩ := h.services service hmem
  have hvalue : declared ∈ values source.services := mem_values.2 ⟨_, hfound⟩
  exact ⟨declared, hvalue, hdistinct.serviceKeys _ declared hfound,
    hdistinct.methods declared hvalue, hmethods⟩

/-- **The services are collected when their texts are given.** -/
theorem exists_services_iff :
    (∃ services, descriptor.service.foldlM (fun services service => do
        let shape ← descriptorServiceShape service
        let name ← requiredName service.name
        insertNew services (qualify source.package "" name) shape
          "duplicate-protobuf-descriptor-service") ∅ =
            (.ok services : Except String (ExtTreeMap String ServiceShape))) ↔
      ∀ service ∈ descriptor.service, TextGiven service.name ∧ ServiceTexts service := by
  rw [(collectStep_services source.package).exists_iff hdistinct.services]
  refine forall₂_congr fun service hmem => ⟨fun hfound => ?_, fun htexts _ => ?_⟩
  · obtain ⟨shape, hshape⟩ := hfound trivial
    obtain ⟨shape, hshape, hname⟩ := bind_eq_ok.1 hshape
    obtain ⟨name, hname, -⟩ := bind_eq_ok.1 hname
    obtain ⟨declared, -, -, hnames, hmethods⟩ := declared_service h hdistinct hmem
    have hsame : declared.methods.map ProtoMethod.name =
        service.method.map fun method => method.name.getD "" :=
      map_eq_of_forall₂ hmethods fun method methodDescriptor hmethod => by
        rw [hmethod.name, Option.getD_some]
    exact ⟨textGiven_iff.2 ⟨name, hname⟩, serviceTexts_of_ok (hsame ▸ hnames) hshape⟩
  · obtain ⟨name, hname⟩ := textGiven_iff.1 htexts.1
    obtain ⟨declared, -, -, hnames, hmethods⟩ := declared_service h hdistinct hmem
    obtain ⟨shape, hshape, -⟩ := service_shape ∅ hmethods hnames htexts.2
    exact ⟨shape, by rw [bind_of_ok hshape, bind_of_ok hname]; rfl⟩

omit h in
theorem sourceServices_ok (allTypes : ExtTreeSet String) :
    ∃ services, (values source.services).foldlM (fun services service => do
        let shape ← sourceServiceShape source allTypes service
        pure (services.insert service.coordinate shape)) ∅ =
          (.ok services : Except String (ExtTreeMap String ServiceShape)) ∧
      Collects ProtoService.coordinate (fun _ => True)
        (fun service shape => sourceServiceShape source allTypes service = .ok shape)
        (values source.services) services := by
  have hstep : CollectStep ProtoService.coordinate (fun _ => True)
      (fun service => sourceServiceShape source allTypes service)
      (fun services service => do
        let shape ← sourceServiceShape source allTypes service
        pure (services.insert service.coordinate shape)) :=
    collectStep_insert fun _ _ => rfl
  have hnodup : ((values source.services).map ProtoService.coordinate).Nodup := by
    rw [map_key_values hdistinct.serviceKeys, ← ExtTreeMap.map_fst_toList_eq_keys]
    exact keys_nodup
  obtain ⟨services, hservices⟩ := (hstep.exists_iff hnodup).2 fun service hmem _ => by
    obtain ⟨methods, hmethods, -⟩ := sourceServiceShape_ok source allTypes
      (hdistinct.methods service hmem)
    exact ⟨_, hmethods⟩
  exact ⟨services, hservices, hstep.collects hnodup hservices⟩

/-- **The services of the two shapes are equal exactly when all methods agree.** -/
theorem services_eq_iff {allTypes : ExtTreeSet String}
    {declared found : ExtTreeMap String ServiceShape}
    (hfound : descriptor.service.foldlM (fun services service => do
        let shape ← descriptorServiceShape service
        let name ← requiredName service.name
        insertNew services (qualify source.package "" name) shape
          "duplicate-protobuf-descriptor-service") ∅ = Except.ok found)
    (hdeclared : Collects ProtoService.coordinate (fun _ => True)
      (fun service shape => sourceServiceShape source allTypes service = .ok shape)
      (values source.services) declared) :
    declared = found ↔ ∀ service ∈ values source.services, ∀ method ∈ service.methods,
      MethodAgrees resolve source allTypes method := by
  have htexts := (exists_services_iff h hdistinct).1 ⟨found, hfound⟩
  rw [hdeclared.eq_iff ((collectStep_services source.package).collects hdistinct.services hfound)
    (P := fun service => ∀ method ∈ service.methods, MethodAgrees resolve source allTypes method)]
  · simp only [true_implies]
  · intro service hmem _
    obtain ⟨coordinate, hlookup⟩ := mem_values.1 hmem
    obtain ⟨serviceDescriptor, hmem', rfl⟩ := h.allServices coordinate (mem_iff.2 ⟨service, hlookup⟩)
    obtain ⟨service', hlookup', hmethods⟩ := h.services serviceDescriptor hmem'
    obtain rfl := Option.some.inj (hlookup.symm.trans hlookup')
    obtain ⟨shape, hshape, hiff⟩ := service_shape allTypes hmethods
      (hdistinct.methods service hmem) (htexts serviceDescriptor hmem').2
    refine ⟨serviceDescriptor, hmem', trivial,
      (hdistinct.serviceKeys _ service hlookup).symm, fun v w hv hw => ?_⟩
    obtain ⟨shape', hshape', hw⟩ := bind_eq_ok.1 hw
    obtain ⟨_, -, hw⟩ := bind_eq_ok.1 hw
    obtain rfl : shape' = w := Except.ok.inj hw
    obtain rfl := Except.ok.inj (hshape.symm.trans hshape')
    exact hiff v hv
  · intro serviceDescriptor hmem _
    obtain ⟨service, hmem', hcoordinate, -⟩ := declared_service h hdistinct hmem
    exact ⟨service, hmem', trivial, hcoordinate⟩

/-! ### The two shapes -/

theorem enums_eq_iff {enums : ExtTreeSet String} :
    (enumNodes source.package descriptor.messageType descriptor.enumType).foldlM enumStep ∅ =
        .ok enums ↔
      (∀ node ∈ enumNodes source.package descriptor.messageType descriptor.enumType,
        TextGiven node.2.name) ∧ source.enums = enums := by
  rw [foldlM_enumStep hdistinct.enums fun _ _ => ExtTreeSet.not_mem_empty]
  simp only [textGiven_iff]
  refine and_congr_right fun _ => ⟨fun hmem => ExtTreeSet.ext_mem fun name => ?_, fun heq name => ?_⟩
  · rw [hmem, h.enums]
    simp
  · rw [← heq, h.enums]
    simp

theorem sourceShape_ok (allTypes : ExtTreeSet String) {imports : ExtTreeMap String ImportKind}
    (himports : source.imports.foldlM (fun imports declared =>
      insertSame imports declared.path declared.kind "duplicate-protobuf-import") ∅ = .ok imports) :
    ∃ messages services, sourceShape source allTypes =
        .ok ⟨source.version, source.package, imports, messages, source.enums, services⟩ ∧
      Collects ProtoMessage.coordinate (fun _ => True)
        (fun message shape => sourceMessageShape source allTypes message = .ok shape)
        (values source.messages) messages ∧
      Collects ProtoService.coordinate (fun _ => True)
        (fun service shape => sourceServiceShape source allTypes service = .ok shape)
        (values source.services) services := by
  have hedition : isEdition source.version = false := by
    have hall : ∀ version ∈ ["proto2", "proto3"], isEdition version = false := by decide +kernel
    exact hall _ h.known
  obtain ⟨messages, hmessages, hmessagesCollected⟩ := sourceMessages_ok hdistinct allTypes
  obtain ⟨services, hservices, hservicesCollected⟩ := sourceServices_ok hdistinct allTypes
  refine ⟨messages, services, ?_, hmessagesCollected, hservicesCollected⟩
  rw [sourceShape, bind_of_ok (check_of hedition _), bind_of_ok himports, bind_of_ok hmessages,
    bind_of_ok hservices]
  rfl

/-- **The descriptor of a file has its shape exactly when the two translations agree.** -/
theorem shapes_iff_agrees (allTypes : ExtTreeSet String) :
    (∃ shape, sourceShape source allTypes = .ok shape ∧ descriptorShape descriptor = .ok shape) ↔
      Agrees resolve source allTypes descriptor := by
  obtain ⟨publicIndexes, weakIndexes, hpublic, hweak, hdisjoint, imports, himports, hfoundImports⟩ :=
    h.importShapes hdistinct.imports
  obtain ⟨messages, services, hsource, hmessages, hservices⟩ :=
    sourceShape_ok h hdistinct allTypes himports
  have hshape (shape : ContractShape) : descriptorShape descriptor = .ok shape ↔
      ∃ imports, descriptor.dependency.zipIdx.foldlM (fun imports entry => do
          check (validProtoLocator entry.1 = true) "protobuf-descriptor-import-out-of-root"
          insertSame imports entry.1 (dependencyKind publicIndexes weakIndexes entry.2)
            "duplicate-protobuf-descriptor-import") ∅ = .ok imports ∧
        ∃ entries, collectMapEntries source.package "" ∅ descriptor.messageType = .ok entries ∧
          ∃ messages enums, (∃ nested, collectDescriptorMessages source.package source.version
              entries "" (∅, ∅) descriptor.messageType = .ok (messages, nested) ∧
              collectEnums source.package "" nested descriptor.enumType = .ok enums) ∧
            ∃ services, descriptor.service.foldlM (fun services service => do
                let shape ← descriptorServiceShape service
                let name ← requiredName service.name
                insertNew services (qualify source.package "" name) shape
                  "duplicate-protobuf-descriptor-service") ∅ = .ok services ∧
              shape = ⟨source.version, source.package, imports, messages, enums, services⟩ := by
    rw [descriptorShape, h.version, h.package, bind_of_ok (check_of h.known _), bind_of_ok hpublic,
      bind_of_ok hweak, bind_of_ok (check_of hdisjoint _)]
    simp only [bind_eq_ok, pure, Except.pure, Except.ok.injEq]
    constructor
    · rintro ⟨imports, himports, entries, hentries, ⟨messages, nested⟩, hmessages, enums, henums,
        services, hservices, rfl⟩
      exact ⟨imports, himports, entries, hentries, messages, enums, ⟨nested, hmessages, henums⟩,
        services, hservices, rfl⟩
    · rintro ⟨imports, himports, entries, hentries, messages, enums, ⟨nested, hmessages, henums⟩,
        services, hservices, rfl⟩
      exact ⟨imports, himports, entries, hentries, (messages, nested), hmessages, enums, henums,
        services, hservices, rfl⟩
  constructor
  · rintro ⟨shape, hsource', hdescriptor⟩
    obtain rfl := Except.ok.inj (hsource.symm.trans hsource')
    obtain ⟨imports', himports', entries, hentries, messages', enums, hmessages', services',
      hservices', hsame⟩ := (hshape _).1 hdescriptor
    obtain ⟨-, -, -, rfl, -, rfl⟩ := ContractShape.mk.inj hsame
    have hfound := entriesOf_mapEntries h hdistinct hentries
    obtain ⟨hnames, hentryTypes⟩ := (exists_mapEntries_iff h hdistinct).1 ⟨entries, hentries⟩
    obtain ⟨⟨-, hrun⟩, henums⟩ := collectEnums_after.1 hmessages'
    have htexts := (exists_messages_iff h hdistinct hfound).1 ⟨messages, hrun⟩
    have hserviceTexts := (exists_services_iff h hdistinct).1 ⟨services, hservices'⟩
    refine ⟨⟨((hfoundImports imports').1 himports').1, hnames,
      fun node hmem hkeeps => (htexts node hmem hkeeps).oneofs,
      fun node hmem hkeeps => (htexts node hmem hkeeps).fields, fun node hmem => ?_,
      ((enums_eq_iff h hdistinct).1 henums).1, fun service hmem => (hserviceTexts service hmem).1,
      fun service hmem => (hserviceTexts service hmem).2⟩,
      (messages_eq_iff h hdistinct hfound hrun hmessages).1 rfl,
      (services_eq_iff h hdistinct hservices' hservices).1 rfl⟩
    cases hkind : node.2.isMapEntry with
    | true => exact hentryTypes node hmem hkind
    | false => exact (htexts node hmem hkind).types
  · intro hagrees
    have htexts := hagrees.texts
    obtain ⟨entries, hentries⟩ := (exists_mapEntries_iff h hdistinct).2
      ⟨htexts.messages, fun node hmem _ => htexts.types node hmem⟩
    have hfound := entriesOf_mapEntries h hdistinct hentries
    obtain ⟨messages', hrun⟩ := (exists_messages_iff h hdistinct hfound).2 fun node hmem hkeeps =>
      ⟨htexts.oneofs node hmem hkeeps, htexts.fields node hmem hkeeps, htexts.types node hmem⟩
    obtain ⟨services', hservices'⟩ := (exists_services_iff h hdistinct).2 fun service hmem =>
      ⟨htexts.services service hmem, htexts.methods service hmem⟩
    obtain rfl := (messages_eq_iff h hdistinct hfound hrun hmessages).2 hagrees.fields
    obtain rfl := (services_eq_iff h hdistinct hservices' hservices).2 hagrees.methods
    refine ⟨_, hsource, (hshape _).2 ⟨imports, (hfoundImports imports).2 ⟨htexts.imports, rfl⟩,
      entries, hentries, messages, source.enums, ?_, services, hservices', rfl⟩⟩
    exact collectEnums_after.2 ⟨⟨htexts.messages, hrun⟩,
      (enums_eq_iff h hdistinct).2 ⟨htexts.enums, rfl⟩⟩

end

end ContractScan
