import Depgraph.ContractScan.ProtobufFile

/-!
# Files that are read as a whole

What the parser does not read of a file is a field whose type or number it cannot read, and a member
of a oneof or a service that an empty statement swallows. `SourceFile.Whole` says that there is no such
field or member.
-/

namespace ContractScan

open Std Fallible OrderedMap

/-! ### Members -/

section

variable {α β κ : Type} (blockOf : α → Bool) (readable : α → Prop)

/-- The members are readable, and no empty statement swallows one. -/
def MembersWhole : Next → List (Member α) → Prop
  | _, [] => True
  | .swallowed, member :: members =>
    member.declares? = none ∧ MembersWhole (.after (member.endsInBlock blockOf)) members
  | .afterBlock, .empty :: members => MembersWhole .statement members
  | .statement, .empty :: members => MembersWhole .swallowed members
  | .statement, .option statement :: members | .afterBlock, .option statement :: members =>
    MembersWhole (.after statement.block.isSome) members
  | .statement, .declares a :: members | .afterBlock, .declares a :: members =>
    readable a ∧ MembersWhole .statement members

variable {blockOf readable} {read : α → Option β}

theorem readMembers_of_whole {declared : α → β} (h : ∀ a, readable a → read a = some (declared a))
    {members : List (Member α)} {next : Next} (hwhole : MembersWhole blockOf readable next members) :
    readMembers blockOf read next members =
      (members.filterMap Member.declares?).map declared := by
  induction members generalizing next with
  | nil => rw [readMembers]; rfl
  | cons member members ih =>
    cases next with
    | swallowed =>
      obtain ⟨hnone, hwhole⟩ := hwhole
      rw [readMembers, ih hwhole, List.filterMap_cons_none hnone]
    | statement | afterBlock =>
      cases member with
      | declares a =>
        obtain ⟨ha, hwhole⟩ := hwhole
        have hsome : Member.declares? (.declares a) = some a := rfl
        rw [readMembers, ih hwhole, h a ha, List.filterMap_cons_some hsome]
        rfl
      | option statement => exact ih hwhole
      | empty => exact ih hwhole

theorem exists_of_mem_readMembers {members : List (Member α)} {next : Next} {b : β}
    (hmem : b ∈ readMembers blockOf read next members) :
    ∃ a ∈ members.filterMap Member.declares?, read a = some b := by
  induction members generalizing next with
  | nil => rw [readMembers] at hmem; cases hmem
  | cons member members ih =>
    have hrest {a : α} (ha : a ∈ members.filterMap Member.declares?) :
        a ∈ (member :: members).filterMap Member.declares? := by
      rw [List.filterMap_cons]
      split
      · exact ha
      · exact List.mem_cons_of_mem _ ha
    have hnext {next : Next} (hmem : b ∈ readMembers blockOf read next members) :
        ∃ a ∈ (member :: members).filterMap Member.declares?, read a = some b := by
      obtain ⟨a, ha, hb⟩ := ih hmem
      exact ⟨a, hrest ha, hb⟩
    cases next with
    | swallowed => exact hnext hmem
    | statement | afterBlock =>
      cases member with
      | declares a =>
        rw [readMembers, List.mem_append, Option.mem_toList] at hmem
        rcases hmem with hb | hmem
        · exact ⟨a, List.mem_cons_self, hb⟩
        · exact hnext hmem
      | option statement => exact hnext hmem
      | empty => exact hnext hmem

/-- **Where all that is declared is read, the members are whole**: what is read of a member has its
name, and names are not declared twice. -/
theorem membersWhole_of_read {name : α → String} {nameOf : β → String} (declared : α → β → Prop)
    (hname : ∀ a b, read a = some b → nameOf b = name a)
    (hdeclared : ∀ a b, declared a b → nameOf b = name a)
    (hreadable : ∀ a b, read a = some b → declared a b → readable a) {members : List (Member α)}
    {next : Next} (hnodup : ((members.filterMap Member.declares?).map name).Nodup)
    (hall : ∀ a ∈ members.filterMap Member.declares?,
      ∃ b ∈ readMembers blockOf read next members, declared a b) :
    MembersWhole blockOf readable next members := by
  induction members generalizing next with
  | nil => exact trivial
  | cons member members ih =>
    cases next with
    | swallowed =>
      have hnone : member.declares? = none := by
        cases hsome : member.declares? with
        | none => rfl
        | some a =>
          rw [List.filterMap_cons_some hsome] at hnodup hall
          obtain ⟨b, hb, hab⟩ := hall a List.mem_cons_self
          rw [readMembers] at hb
          obtain ⟨a', ha', hread⟩ := exists_of_mem_readMembers hb
          have hsame : name a' = name a := (hname a' b hread).symm.trans (hdeclared a b hab)
          exact absurd (hsame ▸ List.mem_map_of_mem ha') (List.nodup_cons.1 hnodup).1
      rw [List.filterMap_cons_none hnone] at hnodup hall
      exact ⟨hnone, ih hnodup hall⟩
    | statement | afterBlock =>
      cases member with
      | declares a =>
        have hsome : Member.declares? (.declares a) = some a := rfl
        rw [List.filterMap_cons_some hsome] at hnodup hall
        obtain ⟨hnew, hnodup⟩ := List.nodup_cons.1 hnodup
        simp only [readMembers, List.mem_append, Option.mem_toList, or_and_right, exists_or] at hall
        refine ⟨?_, ih hnodup fun a' ha' => ?_⟩
        · rcases hall a List.mem_cons_self with ⟨b, hread, hab⟩ | ⟨b, hb, hab⟩
          · exact hreadable a b hread hab
          · obtain ⟨a', ha', hread⟩ := exists_of_mem_readMembers hb
            have hsame : name a' = name a := (hname a' b hread).symm.trans (hdeclared a b hab)
            exact absurd (hsame ▸ List.mem_map_of_mem ha') hnew
        · rcases hall a' (List.mem_cons_of_mem _ ha') with ⟨b, hread, hab⟩ | hrest
          · have hsame : name a' = name a := (hdeclared a' b hab).symm.trans (hname a b hread)
            exact absurd (hsame ▸ List.mem_map_of_mem ha') hnew
          · exact hrest
      | option statement => exact ih hnodup hall
      | empty => exact ih hnodup hall

end

/-! ### Fields -/

/-- The parser reads the type and the number of the field. -/
structure WrittenField.Readable (field : WrittenField) : Prop where
  type : field.type.readable = true
  number : readNumber field.literal.text = some field.number

theorem WrittenField.read_of_readable {field : WrittenField} (h : field.Readable)
    (oneof : Option String) : field.read oneof = some (field.declared oneof) := by
  rw [read, if_pos h.type, h.number]
  rfl

theorem WrittenField.read_name {field : WrittenField} {oneof : Option String} {read : ProtoField}
    (h : field.read oneof = some read) : read.name = field.name.text := by
  unfold WrittenField.read at h
  split_ifs at h
  obtain ⟨number, -, rfl⟩ := Option.map_eq_some_iff.1 h
  rfl

theorem WrittenField.readable_of_read {field : WrittenField} {oneof : Option String}
    {read : ProtoField} (h : field.read oneof = some read) (hnumber : read.number = field.number) :
    field.Readable := by
  unfold WrittenField.read at h
  split_ifs at h with htype
  obtain ⟨number, hread, rfl⟩ := Option.map_eq_some_iff.1 h
  exact ⟨htype, hread.trans (congrArg some hnumber)⟩

/-- Two fields have the same name and number. -/
def SameField (field read : ProtoField) : Prop :=
  read.name = field.name ∧ read.number = field.number

namespace Body

/-- The fields of the message, not those of a message within it, are read. -/
def Whole : Body → Prop
  | nil => True
  | field f rest => f.Readable ∧ rest.Whole
  | oneof _ members rest =>
    MembersWhole (fun _ => false) WrittenField.Readable .statement members ∧ rest.Whole
  | message _ _ rest | enumeration _ _ rest | skipped _ _ rest | empty rest => rest.Whole

theorem readFields_of_whole {body : Body} (h : body.Whole) : body.readFields = body.declaredFields := by
  induction body with
  | nil => rfl
  | field f rest ih =>
    rw [readFields, declaredFields, f.read_of_readable h.1, ih h.2]
    rfl
  | oneof name members rest ih =>
    have hmembers : readOneof name members = _ :=
      readMembers_of_whole (fun field hreadable => field.read_of_readable hreadable (some name.text)) h.1
    rw [readFields, declaredFields, hmembers, ih h.2]
  | message _ _ rest _ ih => exact ih h
  | enumeration _ _ rest ih | skipped _ _ rest ih | empty rest ih => exact ih h

theorem name_mem_of_mem_readFields {body : Body} {read : ProtoField} (h : read ∈ body.readFields) :
    read.name ∈ body.declaredFields.map ProtoField.name := by
  induction body with
  | nil => cases h
  | field f rest ih =>
    rw [readFields, List.mem_append, Option.mem_toList] at h
    rw [declaredFields, List.map_cons]
    rcases h with hread | h
    · rw [f.read_name hread]
      exact List.mem_cons_self
    · exact List.mem_cons_of_mem _ (ih h)
  | oneof name members rest ih =>
    rw [readFields, List.mem_append] at h
    rw [declaredFields, List.map_append]
    rcases h with hread | h
    · obtain ⟨field, hmem, hread⟩ := exists_of_mem_readMembers hread
      rw [WrittenField.read_name hread]
      exact List.mem_append_left _ (List.mem_map.2 ⟨_, List.mem_map_of_mem hmem, rfl⟩)
    · exact List.mem_append_right _ (ih h)
  | message _ _ rest _ ih => exact ih h
  | enumeration _ _ rest ih | skipped _ _ rest ih | empty rest ih => exact ih h

/-- **Where all declared fields are read with their numbers, the message is whole.** -/
theorem whole_of_read {body : Body} (hnodup : (body.declaredFields.map ProtoField.name).Nodup)
    (hall : ∀ field ∈ body.declaredFields, ∃ read ∈ body.readFields, SameField field read) :
    body.Whole := by
  induction body with
  | nil => exact trivial
  | field f rest ih =>
    rw [declaredFields, List.map_cons] at hnodup
    obtain ⟨hnew, hnodup⟩ := List.nodup_cons.1 hnodup
    simp only [readFields, declaredFields, List.mem_append, Option.mem_toList, or_and_right,
      exists_or] at hall
    refine ⟨?_, ih hnodup fun field hmem => ?_⟩
    · rcases hall _ List.mem_cons_self with ⟨read, hread, hsame⟩ | ⟨read, hmem, hsame⟩
      · exact f.readable_of_read hread hsame.2
      · exact absurd (hsame.1 ▸ name_mem_of_mem_readFields hmem) hnew
    · rcases hall field (List.mem_cons_of_mem _ hmem) with ⟨read, hread, hsame⟩ | hrest
      · have hname : field.name = (f.declared none).name := hsame.1.symm.trans (f.read_name hread)
        exact absurd (hname ▸ List.mem_map_of_mem hmem) hnew
      · exact hrest
  | oneof name members rest ih =>
    rw [declaredFields, List.map_append, List.map_map] at hnodup
    obtain ⟨hmembers, hrest, hdisjoint⟩ := List.nodup_append.1 hnodup
    simp only [readFields, declaredFields, List.mem_append, or_and_right, exists_or] at hall
    have hname (field : WrittenField) (read : ProtoField)
        (hread : field.read (some name.text) = some read) : read.name = field.name.text :=
      field.read_name hread
    refine ⟨membersWhole_of_read
      (fun (field : WrittenField) read => SameField (field.declared (some name.text)) read)
      hname (fun _ _ hsame => hsame.1) (fun field _ hread hsame => field.readable_of_read hread hsame.2)
      hmembers fun field hmem => ?_, ih hrest fun field hmem => ?_⟩
    · rcases hall _ (.inl (List.mem_map_of_mem hmem)) with hread | ⟨read, hread, hsame⟩
      · exact hread
      · exact absurd hsame.1.symm
          (hdisjoint _ (List.mem_map_of_mem hmem) _ (name_mem_of_mem_readFields hread))
    · rcases hall field (.inr hmem) with ⟨read, hread, hsame⟩ | hread
      · obtain ⟨other, hother, hread⟩ := exists_of_mem_readMembers hread
        exact absurd ((WrittenField.read_name hread).symm.trans hsame.1)
          (hdisjoint _ (List.mem_map_of_mem hother) _ (List.mem_map_of_mem hmem))
      · exact hread
  | message _ _ rest _ ih => exact ih hnodup hall
  | enumeration _ _ rest ih | skipped _ _ rest ih | empty rest ih => exact ih hnodup hall

end Body

/-! ### Methods -/

/-- No method is swallowed. -/
def ServiceWhole (members : List (Member WrittenRpc)) : Prop :=
  MembersWhole (fun method => method.body.isSome) (fun _ => True) .statement members

theorem readService_of_whole {members : List (Member WrittenRpc)} (h : ServiceWhole members) :
    readService members = declaredMethods members :=
  readMembers_of_whole (fun _ _ => rfl) h

/-- **Where all declared methods are read, the service is whole.** -/
theorem serviceWhole_of_read {members : List (Member WrittenRpc)}
    (hnodup : ((declaredMethods members).map ProtoMethod.name).Nodup)
    (hall : ∀ method ∈ declaredMethods members, ∃ read ∈ readService members,
      read.name = method.name) : ServiceWhole members := by
  rw [declaredMethods, List.map_map] at hnodup
  have hname (method : WrittenRpc) (read : ProtoMethod) (hread : some method.declared = some read) :
      read.name = method.name.text := by
    rw [← Option.some.inj hread]
    rfl
  exact membersWhole_of_read
    (fun (method : WrittenRpc) (read : ProtoMethod) => read.name = method.name.text) hname
    (fun _ _ hsame => hsame) (fun _ _ _ _ => trivial) hnodup
    fun method hmem => hall _ (List.mem_map_of_mem hmem)

/-! ### Files -/

namespace SourceFile

/-- **The condition under which the parser reads the whole file.** -/
structure Whole (file : SourceFile) : Prop where
  fields : ∀ entry ∈ file.bodies, entry.2.Whole
  methods : ∀ entry ∈ file.services, ServiceWhole entry.2

theorem read_of_whole {file : SourceFile} (h : file.Whole) : file.read = file.declared := by
  have hbodies : file.bodies.map (recordOf Body.readFields) =
      file.bodies.map (recordOf Body.declaredFields) := by
    refine List.map_congr_left fun entry hmem => ?_
    rw [recordOf, recordOf, Body.readFields_of_whole (h.fields entry hmem)]
  have hservices : file.services.map (serviceOf readService) =
      file.services.map (serviceOf declaredMethods) := by
    refine List.map_congr_left fun entry hmem => ?_
    rw [serviceOf, serviceOf, readService_of_whole (h.methods entry hmem)]
  rw [read, declared, record, record, hbodies, hservices]

end SourceFile

end ContractScan
