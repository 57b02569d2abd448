import Depgraph.ContractScan.ProtobufShape

/-!
# The messages of a descriptor, one after another

The two recursions over nested messages visit them in one order, and what they do at a message depends
on it and its coordinate alone. Each is a loop over the list of all messages (`collectMapEntries_eq`,
`collectDescriptorMessages_eq`), and so collects one record for each message it keeps.
-/

namespace ContractScan

open Std Fallible OrderedMap

/-! ### Steps -/

section

variable {V : Type} {m m' : ExtTreeMap String V} {key : String} {value : V} {error : String}

theorem insert_of_some (h : m[key]? = some value) : m.insert key value = m := by
  refine ExtTreeMap.ext_getElem? fun k => ?_
  rw [getElem?_insert]
  split_ifs with hk
  · rw [hk, h]
  · rfl

theorem insertSame_of_not_mem [DecidableEq V] (h : key ∉ m) :
    insertSame m key value error = .ok (m.insert key value) := by
  rw [insertSame, not_mem_iff.1 h]

theorem insert_of_insertSame [DecidableEq V] (h : insertSame m key value error = .ok m') :
    m' = m.insert key value := by
  cases hfound : m[key]? with
  | none =>
    rw [insertSame, hfound] at h
    exact (Except.ok.inj h).symm
  | some existing =>
    rw [insertSame, hfound] at h
    dsimp only at h
    split_ifs at h with hsame
    obtain rfl := Except.ok.inj h
    exact (insert_of_some (hsame ▸ hfound)).symm

theorem insertNew_of_not_mem (h : key ∉ m) :
    insertNew m key value error = .ok (m.insert key value) :=
  if_neg h

theorem insert_of_insertNew (h : insertNew m key value error = .ok m') :
    m' = m.insert key value := by
  rw [insertNew] at h
  split_ifs at h
  exact (Except.ok.inj h).symm

end

section

variable {α V : Type} {key : α → String} {find : α → Except String V}
  {step : ExtTreeMap String V → α → Except String (ExtTreeMap String V)}

/-- A loop that inserts what it finds, where it may find one thing twice. -/
theorem collectStep_insertSame [DecidableEq V] (error : String)
    (h : ∀ m a, step m a = find a >>= fun v => insertSame m (key a) v error) :
    CollectStep key (fun _ => True) find step where
  skip _ _ hkeeps := absurd trivial hkeeps
  take m a v _ hnew hv := by rw [h, bind_of_ok hv, insertSame_of_not_mem hnew]
  found m a m' _ hstep := by
    rw [h, bind_eq_ok] at hstep
    obtain ⟨v, hv, hinsert⟩ := hstep
    exact ⟨v, hv, insert_of_insertSame hinsert⟩

theorem collectStep_insertNew (error : String)
    (h : ∀ m a, step m a = find a >>= fun v => insertNew m (key a) v error) :
    CollectStep key (fun _ => True) find step where
  skip _ _ hkeeps := absurd trivial hkeeps
  take m a v _ hnew hv := by rw [h, bind_of_ok hv, insertNew_of_not_mem hnew]
  found m a m' _ hstep := by
    rw [h, bind_eq_ok] at hstep
    obtain ⟨v, hv, hinsert⟩ := hstep
    exact ⟨v, hv, insert_of_insertNew hinsert⟩

theorem collectStep_insert
    (h : ∀ m a, step m a = find a >>= fun v => .ok (m.insert (key a) v)) :
    CollectStep key (fun _ => True) find step where
  skip _ _ hkeeps := absurd trivial hkeeps
  take m a v _ _ hv := by rw [h, bind_of_ok hv]
  found m a m' _ hstep := by
    rw [h, bind_eq_ok] at hstep
    obtain ⟨v, hv, hinsert⟩ := hstep
    exact ⟨v, hv, (Except.ok.inj hinsert).symm⟩

end

theorem requiredName_eq_ok {value : Option String} {name : String} :
    requiredName value = .ok name ↔ value = some name ∧ boundedText name = true := by
  rw [requiredName, required_eq_ok, Option.filter_eq_some_iff]

/-! ### Nested messages -/

mutual

/-- A message and those nested in it, and their coordinates. -/
def nodesOf (package parent : String) : DescriptorProto → List (String × DescriptorProto)
  | .mk name field nestedType enumType oneofDecl options =>
    (qualify package parent (name.getD ""), .mk name field nestedType enumType oneofDecl options) ::
      nodes package (qualify package parent (name.getD "")) nestedType
termination_by structural descriptor => descriptor

/-- The messages of a list with those nested in them, and their coordinates. -/
def nodes (package parent : String) : List DescriptorProto → List (String × DescriptorProto)
  | [] => []
  | descriptor :: rest => nodesOf package parent descriptor ++ nodes package parent rest
termination_by structural descriptors => descriptors

end

/-- The enumerations of a descriptor, and their coordinates. -/
def enumNodes (package : String) (messageType : List DescriptorProto)
    (enumType : List EnumDescriptorProto) : List (String × EnumDescriptorProto) :=
  (nodes package "" messageType).flatMap (fun node =>
    node.2.enumType.map fun enumeration =>
      (qualify package node.1 (enumeration.name.getD ""), enumeration)) ++
    enumType.map fun enumeration => (qualify package "" (enumeration.name.getD ""), enumeration)

def mapEntryStep (output : ExtTreeMap String String) (node : String × DescriptorProto) :
    Except String (ExtTreeMap String String) :=
  requiredName node.2.name >>= fun _ => collectMapEntry node.1 node.2 output

mutual

theorem collectMapEntriesIn_eq (package parent : String) (output : ExtTreeMap String String) :
    ∀ descriptor : DescriptorProto, collectMapEntriesIn package parent output descriptor =
      (nodesOf package parent descriptor).foldlM mapEntryStep output
  | .mk name field nestedType enumType oneofDecl options => by
    rw [collectMapEntriesIn, nodesOf, List.foldlM_cons, mapEntryStep]
    change _ = (requiredName name >>= fun _ => _) >>= _
    cases hname : requiredName name with
    | error e => rfl
    | ok text =>
      obtain ⟨rfl, -⟩ := requiredName_eq_ok.1 hname
      rw [ok_bind, ok_bind]
      exact bind_congr fun output => collectMapEntries_eq package _ output nestedType

theorem collectMapEntries_eq (package parent : String) (output : ExtTreeMap String String) :
    ∀ descriptors : List DescriptorProto, collectMapEntries package parent output descriptors =
      (nodes package parent descriptors).foldlM mapEntryStep output
  | [] => by rw [collectMapEntries, nodes, List.foldlM_nil]; rfl
  | descriptor :: rest => by
    rw [collectMapEntries, nodes, List.foldlM_append, collectMapEntriesIn_eq package parent output]
    exact bind_congr fun output => collectMapEntries_eq package parent output rest

end

/-- What `collect_descriptor_message` does at a message. -/
def messageStep (package version : String) (mapEntries : ExtTreeMap String String)
    (state : ExtTreeMap String MessageShape × ExtTreeSet String) (node : String × DescriptorProto) :
    Except String (ExtTreeMap String MessageShape × ExtTreeSet String) := do
  let _ ← requiredName node.2.name
  let messages ← collectMessage version mapEntries node.1 node.2 state.1
  let enums ← collectEnums package node.1 state.2 node.2.enumType
  pure (messages, enums)

mutual

theorem collectDescriptorMessage_eq (package version : String)
    (mapEntries : ExtTreeMap String String) (parent : String)
    (state : ExtTreeMap String MessageShape × ExtTreeSet String) :
    ∀ descriptor : DescriptorProto,
      collectDescriptorMessage package version mapEntries parent state descriptor =
        (nodesOf package parent descriptor).foldlM (messageStep package version mapEntries) state
  | .mk name field nestedType enumType oneofDecl options => by
    rw [collectDescriptorMessage, nodesOf, List.foldlM_cons, messageStep]
    change _ = (requiredName name >>= fun _ => _) >>= _
    cases hname : requiredName name with
    | error e => rfl
    | ok text =>
      obtain ⟨rfl, -⟩ := requiredName_eq_ok.1 hname
      rw [ok_bind, ok_bind, bind_assoc]
      refine bind_congr fun messages => ?_
      rw [bind_assoc]
      refine bind_congr fun enums => ?_
      rw [pure_bind]
      exact collectDescriptorMessages_eq package version mapEntries _ (messages, enums) nestedType

theorem collectDescriptorMessages_eq (package version : String)
    (mapEntries : ExtTreeMap String String) (parent : String)
    (state : ExtTreeMap String MessageShape × ExtTreeSet String) :
    ∀ descriptors : List DescriptorProto,
      collectDescriptorMessages package version mapEntries parent state descriptors =
        (nodes package parent descriptors).foldlM (messageStep package version mapEntries) state
  | [] => by rw [collectDescriptorMessages, nodes, List.foldlM_nil]; rfl
  | descriptor :: rest => by
    rw [collectDescriptorMessages, nodes, List.foldlM_append,
      collectDescriptorMessage_eq package version mapEntries parent state]
    exact bind_congr fun state =>
      collectDescriptorMessages_eq package version mapEntries parent state rest

end

/-! ### Messages and enumerations -/

variable {package version : String} {mapEntries : ExtTreeMap String String}

/-- The messages alone. -/
def messageOnlyStep (version : String) (mapEntries : ExtTreeMap String String)
    (messages : ExtTreeMap String MessageShape) (node : String × DescriptorProto) :
    Except String (ExtTreeMap String MessageShape) :=
  requiredName node.2.name >>= fun _ => collectMessage version mapEntries node.1 node.2 messages

def enumStep (enums : ExtTreeSet String) (node : String × EnumDescriptorProto) :
    Except String (ExtTreeSet String) := do
  let _ ← requiredName node.2.name
  insertName enums node.1 "duplicate-protobuf-descriptor-enum"

theorem collectEnums_eq (package parent : String) (enums : ExtTreeSet String)
    (enumType : List EnumDescriptorProto) :
    collectEnums package parent enums enumType =
      (enumType.map fun enumeration =>
        (qualify package parent (enumeration.name.getD ""), enumeration)).foldlM enumStep enums := by
  rw [List.foldlM_map, collectEnums]
  refine foldlM_congr (fun enums enumeration _ => ?_) enums
  rw [enumStep]
  cases hname : requiredName enumeration.name with
  | error e => rfl
  | ok name =>
    rw [(requiredName_eq_ok.1 hname).1]
    rfl

/-- The messages and the enumerations are collected side by side. -/
theorem foldlM_messageStep {l : List (String × DescriptorProto)}
    {state state' : ExtTreeMap String MessageShape × ExtTreeSet String} :
    l.foldlM (messageStep package version mapEntries) state = .ok state' ↔
      l.foldlM (messageOnlyStep version mapEntries) state.1 = .ok state'.1 ∧
        (l.flatMap fun node => node.2.enumType.map fun enumeration =>
          (qualify package node.1 (enumeration.name.getD ""), enumeration)).foldlM enumStep state.2 =
            .ok state'.2 := by
  induction l generalizing state with
  | nil =>
    change Except.ok state = .ok state' ↔ Except.ok state.1 = .ok state'.1 ∧ Except.ok state.2 = .ok state'.2
    rw [Except.ok.injEq, Except.ok.injEq, Except.ok.injEq, Prod.ext_iff]
  | cons node l ih =>
    rw [List.foldlM_cons, List.foldlM_cons, List.flatMap_cons, List.foldlM_append, ← collectEnums_eq]
    simp only [bind_eq_ok, ih, messageStep, messageOnlyStep, pure, Except.pure, Except.ok.injEq]
    constructor
    · rintro ⟨_, ⟨_, hname, messages, hmessages, enums, henums, rfl⟩, hmsg, hen⟩
      exact ⟨⟨messages, ⟨_, hname, hmessages⟩, hmsg⟩, enums, henums, hen⟩
    · rintro ⟨⟨messages, ⟨_, hname, hmessages⟩, hmsg⟩, enums, henums, hen⟩
      exact ⟨_, ⟨_, hname, messages, hmessages, enums, henums, rfl⟩, hmsg, hen⟩

/-- **Enumerations with distinct coordinates and admissible names are all collected.** -/
theorem foldlM_enumStep {l : List (String × EnumDescriptorProto)} {init enums : ExtTreeSet String}
    (hnodup : (l.map Prod.fst).Nodup) (hnew : ∀ node ∈ l, node.1 ∉ init) :
    l.foldlM enumStep init = .ok enums ↔
      (∀ node ∈ l, ∃ name, requiredName node.2.name = .ok name) ∧
        ∀ name, name ∈ enums ↔ name ∈ init ∨ name ∈ l.map Prod.fst := by
  induction l generalizing init with
  | nil =>
    change Except.ok init = .ok enums ↔ _
    rw [Except.ok.injEq]
    constructor
    · rintro rfl
      simp
    · rintro ⟨-, hmem⟩
      exact ExtTreeSet.ext_mem fun name => by simp [hmem]
  | cons node l ih =>
    rw [List.map_cons, List.nodup_cons] at hnodup
    have hrest : ∀ other ∈ l, other.1 ∉ init.insert node.1 := by
      intro other hother hmem
      rcases mem_insert.1 hmem with heq | hmem
      · exact hnodup.1 (heq ▸ List.mem_map_of_mem hother)
      · exact hnew other (List.mem_cons_of_mem node hother) hmem
    have hinsert : insertName init node.1 "duplicate-protobuf-descriptor-enum" =
        .ok (init.insert node.1) := if_neg (hnew node List.mem_cons_self)
    have hmembers : ∀ name, (name ∈ init.insert node.1 ∨ name ∈ l.map Prod.fst) ↔
        (name ∈ init ∨ name ∈ (node :: l).map Prod.fst) := by
      intro name
      rw [mem_insert, List.map_cons, List.mem_cons]
      tauto
    rw [List.foldlM_cons, enumStep, hinsert, List.forall_mem_cons]
    simp only [bind_eq_ok, Except.ok.injEq]
    constructor
    · rintro ⟨_, ⟨name, hname, rfl⟩, hrun⟩
      obtain ⟨hnames, hmem⟩ := (ih hnodup.2 hrest).1 hrun
      exact ⟨⟨⟨name, hname⟩, hnames⟩, fun name => (hmem name).trans (hmembers name)⟩
    · rintro ⟨⟨⟨name, hname⟩, hnames⟩, hmem⟩
      exact ⟨_, ⟨name, hname, rfl⟩, (ih hnodup.2 hrest).2
        ⟨hnames, fun name => (hmem name).trans (hmembers name).symm⟩⟩

end ContractScan
