import Depgraph.ContractScan.ProtobufFields

/-!
# Type names and their scopes

A relative type name refers to the declared type of the innermost scope around it that makes the name
exist. `canonical_type` goes through the scopes in that order, but takes a name that is declared as it
is written before any of them: the two agree exactly on the names that no global type shadows.
-/

namespace ContractScan

open Std OrderedMap

/-! ### The types of a repository and the types of a field -/

def sourceTypeNames (sources : ExtTreeMap String ProtoFile) : ExtTreeSet String :=
  .ofList ((values sources).flatMap fun source => source.messages.keys ++ source.enums.toList)

/-- What stands between `map<` and `>`. -/
def mapInner (raw : String) : Option (List Char) :=
  ("map<".toList.isPrefixOf? raw.toList).bind (">".toList.isSuffixOf? ·)

def referencedFieldTypes (raw scope package : String) (allTypes : ExtTreeSet String) :
    List String :=
  match mapInner raw with
  | some inner =>
    match Protocol.splitOnce [','] inner with
    | some (key, value) => [String.ofList key, String.ofList value].map
        (canonicalType · scope package allTypes)
    | none => []
  | none => [canonicalType raw scope package allTypes]

/-! ### References and what they refer to -/

/-- What `parse_qualified_name` takes for a name, without its leading dot. -/
structure TypeName where
  text : String
  full : IsFullName text
  plain : ',' ∉ text.toList

inductive TypeReference
  | absolute (name : TypeName)
  | relative (name : TypeName)

namespace TypeReference

def text : TypeReference → String
  | absolute name => "." ++ name.text
  | relative name => name.text

end TypeReference

/-- The type of a field: a name, or the names of the key and the value of a map. -/
inductive FieldType
  | named (type : TypeReference)
  | map (key value : TypeReference)

namespace FieldType

def text : FieldType → String
  | named type => type.text
  | map key value => mapText key.text value.text

def references : FieldType → List TypeReference
  | named type => [type]
  | map key value => [key, value]

end FieldType

/-- What refers to types: a service of a package, or a message with the messages it is nested in. -/
inductive Referrer
  | service
  | message (outer : List String) (name : String)

/-- The scope of a referrer, as the parser qualifies it. -/
def Referrer.scope (package : String) : Referrer → String
  | service => package
  | message outer name => qualify package (outer.foldl (qualify package) "") name

/-- A scope is the global one, or a scope itself, or one further out. -/
def Encloses (outer scope : String) : Prop :=
  outer = "" ∨ outer = scope ∨ ∃ rest, scope = outer ++ "." ++ rest

/-- The declared type of the innermost scope that makes the name exist; the name itself when no scope
does. -/
inductive Resolves (types : ExtTreeSet String) (scope name : String) : String → Prop
  | declared {outer : String} (encloses : Encloses outer scope)
      (declares : inScope outer name ∈ types)
      (innermost : ∀ inner, Encloses inner scope → inScope inner name ∈ types →
        Encloses inner outer) : Resolves types scope name (inScope outer name)
  | undeclared (none : ∀ outer, Encloses outer scope → inScope outer name ∉ types) :
      Resolves types scope name name

/-- The type that a reference in a scope stands for. The word of a scalar type stands for itself. -/
inductive RefersTo (types : ExtTreeSet String) (scope : String) : TypeReference → String → Prop
  | absolute {name : TypeName} : RefersTo types scope (.absolute name) name.text
  | scalar {name : TypeName} (word : isScalarType name.text = true) :
      RefersTo types scope (.relative name) name.text
  | relative {name : TypeName} {result : String} (notWord : isScalarType name.text = false)
      (resolves : Resolves types scope name.text result) :
      RefersTo types scope (.relative name) result

/-- The name is declared in the global scope and in a scope inside it. -/
def ShadowedName (types : ExtTreeSet String) (scope name : String) : Prop :=
  name ∈ types ∧ ∃ inner, inner ≠ "" ∧ Encloses inner scope ∧ inScope inner name ∈ types

/-- A reference is a relative name that a global type shadows. -/
def Shadowed (types : ExtTreeSet String) (scope : String) : TypeReference → Prop
  | .absolute _ => False
  | .relative name => isScalarType name.text = false ∧ ShadowedName types scope name.text

/-! ### Scopes -/

theorem inScope_global (name : String) : inScope "" name = name := if_pos rfl

theorem toList_inScope {scope : String} (h : scope ≠ "") (name : String) :
    (inScope scope name).toList = scope.toList ++ '.' :: name.toList := by
  rw [inScope, if_neg h, String.toList_append, String.toList_append, List.append_assoc]
  rfl

theorem inScope_ne_self {scope name : String} (h : scope ≠ "") : inScope scope name ≠ name := by
  intro heq
  have hlength := congrArg List.length ((toList_inScope h name).symm.trans
    (congrArg String.toList heq))
  simp only [List.length_append, List.length_cons] at hlength
  omega

theorem encloses_global {outer : String} (h : Encloses outer "") : outer = "" := by
  rcases h with rfl | rfl | ⟨rest, hrest⟩
  · rfl
  · rfl
  · have hlist := congrArg String.toList hrest
    rw [String.toList_append, String.toList_append] at hlist
    simp at hlist

/-- The parents of a scope are what stands before one of its dots. -/
theorem mem_parents {cs : List Char} {outer : String} :
    outer ∈ parents cs ↔ ∃ rest, cs.reverse = outer.toList ++ '.' :: rest := by
  induction cs with
  | nil => simp [parents]
  | cons c cs ih =>
    have hrest : (∃ rest, (c :: cs).reverse = outer.toList ++ '.' :: rest) ↔
        (c = '.' ∧ outer = String.ofList cs.reverse) ∨ outer ∈ parents cs := by
      rw [ih, List.reverse_cons]
      constructor
      · rintro ⟨rest, hrest⟩
        -- the dot is the first character of the reversed text, or it comes later
        rcases List.eq_nil_or_concat rest with rfl | ⟨rest', d, rfl⟩
        · obtain ⟨hinit, hlast⟩ := List.append_inj' hrest rfl
          exact Or.inl ⟨List.head_eq_of_cons_eq hlast, by rw [hinit, String.ofList_toList]⟩
        · rw [List.concat_eq_append, ← List.cons_append, ← List.append_assoc] at hrest
          exact Or.inr ⟨rest', (List.append_inj' hrest rfl).1⟩
      · rintro (⟨rfl, rfl⟩ | ⟨rest, hrest⟩)
        · exact ⟨[], by rw [String.toList_ofList]⟩
        · exact ⟨rest ++ [c], by rw [hrest, List.append_assoc, List.cons_append]⟩
    rw [hrest, parents]
    by_cases hdot : c = '.'
    · rw [if_pos hdot, List.mem_cons, and_iff_right hdot]
    · rw [if_neg hdot, or_iff_right fun h => hdot h.1]

theorem mem_scopes {scope outer : String} :
    outer ∈ scopes scope ↔ outer = scope ∨ ∃ rest, scope = outer ++ "." ++ rest := by
  rw [scopes, List.mem_cons, mem_parents, List.reverse_reverse]
  refine or_congr Iff.rfl ⟨?_, ?_⟩
  · rintro ⟨rest, hrest⟩
    refine ⟨String.ofList rest, String.toList_inj.1 ?_⟩
    rw [hrest, String.toList_append, String.toList_append, @String.toList_ofList rest]
    exact (List.append_assoc _ ['.'] _).symm
  · rintro ⟨rest, rfl⟩
    refine ⟨rest.toList, ?_⟩
    rw [String.toList_append, String.toList_append, List.append_assoc]
    rfl

theorem encloses_iff {outer scope : String} :
    Encloses outer scope ↔ outer = "" ∨ outer ∈ scopes scope := by
  rw [Encloses, mem_scopes]

theorem parents_pairwise (cs : List Char) :
    (parents cs).Pairwise fun inner outer => Encloses outer inner := by
  induction cs with
  | nil => exact List.Pairwise.nil
  | cons c cs ih =>
    rw [parents]
    split
    · refine List.Pairwise.cons (fun outer houter => encloses_iff.2 (Or.inr ?_)) ih
      rw [scopes, String.toList_ofList, List.reverse_reverse]
      exact List.mem_cons_of_mem _ houter
    · exact ih

/-- **The scopes are tried from the inside outwards.** -/
theorem scopes_pairwise (scope : String) :
    (scopes scope).Pairwise fun inner outer => Encloses outer inner :=
  List.Pairwise.cons
    (fun _ houter => encloses_iff.2 (Or.inr (List.mem_cons_of_mem _ houter))) (parents_pairwise _)

/-! ### The scope of a referrer -/

theorem encloses_qualify {package parent name : String}
    (h : parent = "" ∨ Encloses package parent) : Encloses package (qualify package parent name) := by
  rw [qualify]
  split
  next hparent =>
    rcases h.resolve_left hparent with rfl | rfl | ⟨rest, rfl⟩
    · exact Or.inl rfl
    · exact Or.inr (Or.inr ⟨name, rfl⟩)
    · exact Or.inr (Or.inr ⟨rest ++ "." ++ name, by simp only [String.append_assoc]⟩)
  next =>
    split
    · exact Or.inr (Or.inr ⟨name, rfl⟩)
    next hpackage => exact Or.inl (not_not.1 hpackage)

/-- The package of a file encloses all that is declared in it. -/
theorem Referrer.encloses (package : String) (referrer : Referrer) :
    Encloses package (referrer.scope package) := by
  cases referrer with
  | service => exact Or.inr (Or.inl rfl)
  | message outer name =>
    have houter : ∀ (outer : List String) (parent : String), parent = "" ∨ Encloses package parent →
        outer.foldl (qualify package) parent = "" ∨
          Encloses package (outer.foldl (qualify package) parent) := by
      intro outer
      induction outer with
      | nil => exact fun parent hparent => hparent
      | cons name rest ih => exact fun parent hparent => ih _ (Or.inr (encloses_qualify hparent))
    exact encloses_qualify (houter outer "" (Or.inl rfl))

/-! ### Lookup of one name -/

section

variable {types : ExtTreeSet String} {scope name : String}

theorem Resolves.shadowing {result : String} (h : Resolves types scope name result)
    (hshadowed : ShadowedName types scope name) : result ≠ name := by
  obtain ⟨hmem, inner, hinner, hencloses, hdeclares⟩ := hshadowed
  cases h with
  | declared encloses declares innermost =>
    refine inScope_ne_self fun houter => hinner ?_
    exact encloses_global (houter ▸ innermost inner hencloses hdeclares)
  | undeclared hnone => exact absurd hdeclares (hnone inner hencloses)

/-- A global type is what its name refers to when no scope further in declares the name. -/
theorem resolves_global (hmem : name ∈ types) (hshadowed : ¬ ShadowedName types scope name) :
    Resolves types scope name name := by
  have hglobal : Resolves types scope name (inScope "" name) := by
    refine .declared (Or.inl rfl) ((inScope_global name).symm ▸ hmem) fun inner hinner hdeclares => ?_
    by_cases hempty : inner = ""
    · exact Or.inl hempty
    · exact absurd ⟨hmem, inner, hempty, hinner, hdeclares⟩ hshadowed
  rwa [inScope_global] at hglobal

/-- The first scope that declares the name is the innermost one. -/
theorem resolves_find {outer : String} (hmem : name ∉ types)
    (hfind : (scopes scope).find? (fun scope => types.contains (inScope scope name)) = some outer) :
    Resolves types scope name (inScope outer name) := by
  obtain ⟨hdeclares, before, after, hsplit, hbefore⟩ := List.find?_eq_some_iff_append.1 hfind
  have hpairwise := hsplit ▸ scopes_pairwise scope
  refine .declared (encloses_iff.2 (Or.inr (hsplit ▸ List.mem_append_right _ List.mem_cons_self)))
    (ExtTreeSet.contains_iff_mem.1 hdeclares) fun inner hinner hinnermem => ?_
  rcases encloses_iff.1 hinner with hglobal | hscope
  · exact absurd (inScope_global name ▸ hglobal ▸ hinnermem) hmem
  rw [hsplit, List.mem_append, List.mem_cons] at hscope
  -- what comes earlier does not declare the name, what comes later is further out
  rcases hscope with hearlier | rfl | hlater
  · have hnot := hbefore inner hearlier
    rw [ExtTreeSet.contains_iff_mem.2 hinnermem] at hnot
    exact absurd hnot (by decide)
  · exact Or.inr (Or.inl rfl)
  · exact List.rel_of_pairwise_cons (List.pairwise_append.1 hpairwise).2.1 hlater

theorem undeclared_of_find (hmem : name ∉ types)
    (hfind : (scopes scope).find? (fun scope => types.contains (inScope scope name)) = none)
    {outer : String} (houter : Encloses outer scope) : inScope outer name ∉ types := by
  intro hdeclares
  rcases encloses_iff.1 houter with rfl | hscope
  · exact hmem (inScope_global name ▸ hdeclares)
  · exact List.find?_eq_none.1 hfind outer hscope (ExtTreeSet.contains_iff_mem.2 hdeclares)

/-- A name that is declared as it is written is taken as it is written. -/
theorem canonicalType_of_mem {package : String} (hword : isScalarType name = false)
    (hfull : IsFullName name) (hmem : name ∈ types) :
    canonicalType name scope package types = name := by
  have htrim : trimDots name = name := trimDots_of_full hfull.1
  rw [canonicalType, hword, isMapType_of_full hfull.2, if_neg (by decide), htrim,
    if_pos (Or.inr hmem)]

/-- Any other name is looked for in the scopes. -/
theorem canonicalType_of_not_mem {package : String} (hword : isScalarType name = false)
    (hfull : IsFullName name) (hmem : name ∉ types) (hpackage : Encloses package scope) :
    canonicalType name scope package types =
      (((scopes scope).find? fun scope => types.contains (inScope scope name)).map
        (inScope · name)).getD name := by
  have htrim : trimDots name = name := trimDots_of_full hfull.1
  have hfind : ((scopes scope).map (inScope · name)).find? (types.contains ·) =
      ((scopes scope).find? fun scope => types.contains (inScope scope name)).map
        (inScope · name) := List.find?_map
  rw [canonicalType, hword, isMapType_of_full hfull.2, if_neg (by decide), htrim,
    if_neg (not_or.2 ⟨hfull.1, hmem⟩), canonicalType_findInScopes, hfind]
  cases hfirst : (scopes scope).find? fun scope => types.contains (inScope scope name) with
  | some outer => rfl
  | none => exact if_neg (undeclared_of_find hmem hfirst hpackage)

/-- **A relative name is resolved as its scope has it unless a global type shadows it.** -/
theorem resolves_canonicalType_iff {package : String} (hword : isScalarType name = false)
    (hfull : IsFullName name) (hpackage : Encloses package scope) :
    Resolves types scope name (canonicalType name scope package types) ↔
      ¬ ShadowedName types scope name := by
  -- a name that is declared as it is written is not looked for in any scope
  by_cases hmem : name ∈ types
  · rw [canonicalType_of_mem hword hfull hmem]
    exact ⟨fun h hshadowed => h.shadowing hshadowed rfl, resolves_global hmem⟩
  · rw [canonicalType_of_not_mem hword hfull hmem hpackage]
    refine iff_of_true ?_ fun h => hmem h.1
    cases hfind : (scopes scope).find? fun scope => types.contains (inScope scope name) with
    | some outer => exact resolves_find hmem hfind
    | none => exact .undeclared fun _ => undeclared_of_find hmem hfind

end

/-! ### References -/

section

variable (types : ExtTreeSet String) (package : String) (referrer : Referrer)

theorem isScalarType_absolute (name : String) : isScalarType ("." ++ name) = false := by
  have hhead : ("." ++ name).toList.head? = some '.' := by
    rw [String.toList_append]
    rfl
  have hall : ∀ word, isScalarType word = true → word.toList.head? ≠ some '.' := by
    intro word hword
    rw [isScalarType, List.contains_iff_mem] at hword
    revert word
    decide
  exact Bool.eq_false_iff.2 fun hword => hall _ hword hhead

theorem isMapType_absolute (name : String) : isMapType ("." ++ name) = false := by
  rw [isMapType, String.toList_append]
  rfl

/-- **What a reference stands for.** -/
theorem refersTo_canonicalType_iff (reference : TypeReference) :
    RefersTo types (referrer.scope package) reference
        (canonicalType reference.text (referrer.scope package) package types) ↔
      ¬ Shadowed types (referrer.scope package) reference := by
  cases reference with
  | absolute name =>
    have hroot : ("." ++ name.text).toList.head? = some '.' := by
      rw [String.toList_append]
      rfl
    have hname : canonicalType (TypeReference.absolute name).text (referrer.scope package) package
        types = name.text := by
      rw [TypeReference.text, canonicalType, isScalarType_absolute, isMapType_absolute,
        if_neg (by decide), if_pos (Or.inl hroot), trimDots_dot name.full.1]
    rw [hname]
    exact iff_of_true .absolute id
  | relative name =>
    rw [TypeReference.text, Shadowed]
    by_cases hword : isScalarType name.text = true
    · rw [canonicalType, hword, Bool.true_or, if_pos rfl]
      exact iff_of_true (.scalar hword) fun h => absurd h.1 (by decide)
    · have hnot : isScalarType name.text = false := Bool.eq_false_iff.2 hword
      rw [and_iff_right hnot, ← resolves_canonicalType_iff hnot name.full (referrer.encloses package)]
      constructor
      · intro h
        generalize canonicalType name.text (referrer.scope package) package types = result at h ⊢
        cases h with
        | scalar word => exact absurd word hword
        | relative _ resolves => exact resolves
      · exact .relative hnot

theorem isPrefixOf?_append (l rest : List Char) : l.isPrefixOf? (l ++ rest) = some rest := by
  induction l with
  | nil => rfl
  | cons c l ih => rw [List.cons_append, List.isPrefixOf?, beq_self_eq_true, if_pos rfl, ih]

theorem isSuffixOf?_append (l rest : List Char) : l.isSuffixOf? (rest ++ l) = some rest := by
  rw [List.isSuffixOf?, List.reverse_append, isPrefixOf?_append, Option.map_some,
    List.reverse_reverse]

theorem isPrefixOf?_eq_none {l m : List Char} (h : l.isPrefixOf m = false) :
    l.isPrefixOf? m = none := by
  induction l generalizing m with
  | nil => exact absurd h (by simp)
  | cons c l ih =>
    cases m with
    | nil => rfl
    | cons d m =>
      rw [List.isPrefixOf, Bool.and_eq_false_iff] at h
      rw [List.isPrefixOf?]
      split
      next heq => exact ih (h.resolve_left (by rw [heq]; decide))
      next => rfl

theorem splitOnce_comma {key : List Char} (h : ',' ∉ key) (value : List Char) :
    Protocol.splitOnce [','] (key ++ ',' :: value) = some (key, value) := by
  induction key with
  | nil => rfl
  | cons c key ih =>
    rw [List.mem_cons, not_or] at h
    have hhead : [','].isPrefixOf (c :: (key ++ ',' :: value)) = false := by
      simpa [List.isPrefixOf] using h.1
    rw [List.cons_append, Protocol.splitOnce, hhead, if_neg (by decide), ih h.2]
    rfl

theorem TypeReference.not_lt (reference : TypeReference) : '<' ∉ reference.text.toList := by
  cases reference with
  | absolute name =>
    rw [TypeReference.text, String.toList_append, List.mem_append]
    exact not_or.2 ⟨by decide, name.full.2⟩
  | relative name => exact name.full.2

theorem TypeReference.not_comma (reference : TypeReference) : ',' ∉ reference.text.toList := by
  cases reference with
  | absolute name =>
    rw [TypeReference.text, String.toList_append, List.mem_append]
    exact not_or.2 ⟨by decide, name.plain⟩
  | relative name => exact name.plain

/-- The types of a field are read one by one. -/
theorem referencedFieldTypes_text (fieldType : FieldType) (scope : String) :
    referencedFieldTypes fieldType.text scope package types =
      fieldType.references.map fun reference =>
        canonicalType reference.text scope package types := by
  cases fieldType with
  | named type =>
    have hinner : mapInner (FieldType.named type).text = none := by
      have hnot := isMapType_of_full type.not_lt
      rw [isMapType] at hnot
      rw [mapInner, FieldType.text, isPrefixOf?_eq_none hnot]
      rfl
    rw [referencedFieldTypes, hinner]
    rfl
  | map key value =>
    have hinner : mapInner (FieldType.map key value).text =
        some (key.text.toList ++ ',' :: value.text.toList) := by
      have hsuffix := isSuffixOf?_append ['>'] (key.text.toList ++ ',' :: value.text.toList)
      rw [List.append_assoc, List.cons_append] at hsuffix
      rw [mapInner, FieldType.text, toList_mapText, isPrefixOf?_append, Option.bind_some]
      exact hsuffix
    rw [referencedFieldTypes, hinner]
    simp only [splitOnce_comma key.not_comma]
    simp [FieldType.references]

/-- **A field edge goes where protobuf name lookup goes, except for shadowed names.** -/
theorem referencedFieldTypes_iff (fieldType : FieldType) :
    List.Forall₂ (RefersTo types (referrer.scope package)) fieldType.references
        (referencedFieldTypes fieldType.text (referrer.scope package) package types) ↔
      ∀ reference ∈ fieldType.references, ¬ Shadowed types (referrer.scope package) reference := by
  rw [referencedFieldTypes_text, List.forall₂_map_right_iff, List.forall₂_same]
  exact forall₂_congr fun reference _ => refersTo_canonicalType_iff types package referrer reference

/-- **`canonical_type` is the name lookup of protobuf on every reference that no global type shadows,
and on no other; the types of a map field are looked up alike.** -/
theorem canonicalType_isLookup_iff :
    (∀ reference : TypeReference, RefersTo types (referrer.scope package) reference
        (canonicalType reference.text (referrer.scope package) package types) ↔
      ¬ Shadowed types (referrer.scope package) reference) ∧
    ∀ fieldType : FieldType,
      List.Forall₂ (RefersTo types (referrer.scope package)) fieldType.references
          (referencedFieldTypes fieldType.text (referrer.scope package) package types) ↔
        ∀ reference ∈ fieldType.references, ¬ Shadowed types (referrer.scope package) reference :=
  ⟨refersTo_canonicalType_iff types package referrer, referencedFieldTypes_iff types package referrer⟩

end

/-! ### A global type that shadows the type of a package -/

namespace ScopeSample

def emptyFile (package : String) (messages : List ProtoMessage) : ProtoFile where
  version := "proto3"
  package := package
  imports := []
  messages := indexed ProtoMessage.coordinate messages
  enums := ∅
  services := ∅

/-- `package p; message Foo {} message M { Foo foo = 1; }`, and a file with a message `Foo` that names
no package. -/
def sources : ExtTreeMap String ProtoFile :=
  .ofList [
    ("m.proto", emptyFile "p" [⟨"p.Foo", []⟩, ⟨"p.M", [⟨"foo", 1, .normal, "Foo", none⟩]⟩]),
    ("foo.proto", emptyFile "" [⟨"Foo", []⟩])]

theorem foo_isFullName : IsFullName "Foo" := ⟨by decide, by decide⟩

theorem foo_plain : ',' ∉ "Foo".toList := by decide

def foo : TypeName := ⟨"Foo", foo_isFullName, foo_plain⟩

/-- The texts of the sample, evaluated once. -/
theorem sample_evaluates :
    (Referrer.message [] "M").scope "p" = "p.M" ∧ "p.M" ≠ "" ∧ "p" ≠ "" ∧ "p.M" = "p" ++ "." ++ "M" ∧
    canonicalType "Foo" "p.M" "p" (sourceTypeNames sources) = "Foo" ∧
    isScalarType "Foo" = false ∧ "Foo" ∈ sourceTypeNames sources ∧
    inScope "p" "Foo" ∈ sourceTypeNames sources ∧ inScope "p" "Foo" = "p.Foo" ∧
    inScope "p.M" "Foo" ∉ sourceTypeNames sources ∧ scopes "p.M" = ["p.M", "p"] := by
  decide +kernel

theorem foo_refersTo : RefersTo (sourceTypeNames sources) "p.M" (.relative foo) "p.Foo" := by
  obtain ⟨-, -, -, htext, -, hword, -, hdeclared, hname, hnested, hscopes⟩ := sample_evaluates
  have hresolves : Resolves (sourceTypeNames sources) "p.M" "Foo" (inScope "p" "Foo") := by
    refine .declared (Or.inr (Or.inr ⟨"M", htext⟩)) hdeclared fun inner hinner hmem => ?_
    rw [encloses_iff, hscopes, List.mem_pair] at hinner
    rcases hinner with rfl | rfl | rfl
    · exact Or.inl rfl
    · exact absurd hmem hnested
    · exact Or.inr (Or.inl rfl)
  exact .relative hword (hname ▸ hresolves)

theorem foo_shadowed : Shadowed (sourceTypeNames sources) "p.M" (.relative foo) := by
  obtain ⟨-, -, hp, htext, -, hword, hglobal, hdeclared, -⟩ := sample_evaluates
  exact ⟨hword, hglobal, "p", hp, Or.inr (Or.inr ⟨"M", htext⟩), hdeclared⟩

/-- The field `foo` refers to `p.Foo`, and the edge goes to `Foo`. -/
theorem global_type_shadows :
    (Referrer.message [] "M").scope "p" = "p.M" ∧
    referencedFieldTypes "Foo" "p.M" "p" (sourceTypeNames sources) = ["Foo"] ∧
    RefersTo (sourceTypeNames sources) "p.M" (.relative foo) "p.Foo" ∧
    ¬ RefersTo (sourceTypeNames sources) "p.M" (.relative foo) "Foo" := by
  have hscope := sample_evaluates.1
  have hcanonical := sample_evaluates.2.2.2.2.1
  have hreads : referencedFieldTypes "Foo" "p.M" "p" (sourceTypeNames sources) = ["Foo"] := by
    have htypes := referencedFieldTypes_text (sourceTypeNames sources) "p"
      (.named (.relative foo)) "p.M"
    exact htypes.trans (congrArg (fun name => [name]) hcanonical)
  have hlookup := refersTo_canonicalType_iff (sourceTypeNames sources) "p" (.message [] "M")
    (.relative foo)
  rw [hscope] at hlookup
  refine ⟨hscope, hreads, foo_refersTo, fun h => ?_⟩
  exact hlookup.1 (hcanonical.symm ▸ h) foo_shadowed

end ScopeSample

end ContractScan
