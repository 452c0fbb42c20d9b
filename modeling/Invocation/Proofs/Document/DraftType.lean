import Invocation.Document.Tool
import Invocation.Proofs.Document.DraftScript
import Invocation.Proofs.Document.Reading
import Invocation.Proofs.Json.Members
import Mathlib.Data.List.TakeWhile

/-!
# Types in draft documents

A draft document writes a number sign in front of names and an object with a script for a reference.
The relations `Drafts…` say what a draft document may have in the place of a part of a document, and
`readsAlike` that types and fields are read alike from both.  What is not read is left open.
-/

namespace Invocation.Document

/-! ## Names, expressions and types -/

/-- A name without a number sign in front, and what a draft document may write for it. -/
def IsSigned (name other : String) : Prop :=
  name.toList.head? ≠ some '#' ∧ (other = name ∨ other = "#" ++ name)

/-- What a draft document has for a value that names something. -/
inductive DraftsName : Json → Json → Prop
  | text {name other : String} : IsSigned name other → DraftsName (.string name) (.string other)
  | other {raw : Json} : raw.string? = none → DraftsName raw raw

/-- The value is an object that holds a script. -/
def HoldsScript (raw : Json) : Prop :=
  (raw.get? "class").bind Json.string? = some "Expression"

/-- What a draft document has for an expression: the same, or an object with the script of a reference
that is the whole text. -/
inductive DraftsExpression : Json → Json → Prop
  | same {raw : Json} : ¬ HoldsScript raw → DraftsExpression raw raw
  -- a sign in the body could be taken for that of a name, and a brace for the start of a function body
  | script {body : String} {members : Entries Json} :
      '$' ∉ body.toList → Text.trim body = body → (∀ rest, body.toList ≠ '\x7b' :: rest) →
      members.string? "class" = some "Expression" → members.string? "script" = some (scripted body) →
      DraftsExpression (.string ("$(" ++ body ++ ")")) (.object members)

/-- What a draft document has for the members of a binding. -/
structure DraftsBindingMembers (members others : Entries Json) : Prop where
  valueFrom : Option.Rel DraftsExpression (members.lookup "valueFrom") (others.lookup "valueFrom")
  same : ∀ key ∈ ["position", "prefix", "separate", "itemSeparator"],
    others.lookup key = members.lookup key

/-- What a draft document has for a binding; what is no object binds nothing. -/
inductive DraftsBinding : Json → Json → Prop
  | object {members others : Entries Json} :
      DraftsBindingMembers members others → DraftsBinding (.object members) (.object others)
  | other {raw : Json} : raw.members? = none → DraftsBinding raw raw

/-- What a draft document has for the symbols of an enumeration. -/
inductive DraftsSymbols : Json → Json → Prop
  | array {symbols others : List Json} :
      List.Forall₂ DraftsName symbols others → DraftsSymbols (.array symbols) (.array others)
  | other {raw : Json} : (∀ symbols, raw ≠ .array symbols) → DraftsSymbols raw raw

/-- The member that names a field. -/
def namingMember (members : Entries Json) : Option Json :=
  (members.lookup "name").or (members.lookup "id")

mutual

/-- What a draft document has for a type.  Members that are not read are left open. -/
inductive DraftsType : Json → Json → Prop
  | union {alternatives others : List Json} :
      List.Forall₂ DraftsType alternatives others → DraftsType (.array alternatives) (.array others)
  | object {members others : Entries Json} :
      others.string? "type" = members.string? "type" →
      Option.Rel DraftsBinding (members.lookup "inputBinding") (others.lookup "inputBinding") →
      (members.string? "type" = some "array" →
        Option.Rel DraftsType (members.lookup "items") (others.lookup "items")) →
      (members.string? "type" = some "record" →
        Option.Rel DraftsFields (members.lookup "fields") (others.lookup "fields")) →
      (members.string? "type" = some "enum" →
        Option.Rel DraftsSymbols (members.lookup "symbols") (others.lookup "symbols")) →
      DraftsType (.object members) (.object others)
  | other {raw : Json} : raw.members? = none → (∀ alternatives, raw ≠ .array alternatives) →
      DraftsType raw raw

/-- What a draft document has for the fields of a record, in a list or under their names. -/
inductive DraftsFields : Json → Json → Prop
  | array {items others : List Json} :
      List.Forall₂ DraftsField items others → DraftsFields (.array items) (.array others)
  | object {members others : Entries Json} :
      List.Forall₂ DraftsFieldEntry members others → DraftsFields (.object members) (.object others)
  | other {raw : Json} : raw.members? = none → (∀ items, raw ≠ .array items) → DraftsFields raw raw

/-- What a draft document has for a field of a list. -/
inductive DraftsField : Json → Json → Prop
  | object {members others : Entries Json} :
      Option.Rel DraftsName (namingMember members) (namingMember others) →
      Option.Rel DraftsType (members.lookup "type") (others.lookup "type") →
      Option.Rel DraftsBinding (members.lookup "inputBinding") (others.lookup "inputBinding") →
      DraftsField (.object members) (.object others)
  | other {raw : Json} : raw.members? = none → DraftsField raw raw

/-- What a draft document has for a field under its name: an object, or the type alone. -/
inductive DraftsFieldEntry : String × Json → String × Json → Prop
  | object {name other : String} {members others : Entries Json} : IsSigned name other →
      Option.Rel DraftsName (members.lookup "name") (others.lookup "name") →
      Option.Rel DraftsType (members.lookup "type") (others.lookup "type") →
      Option.Rel DraftsBinding (members.lookup "inputBinding") (others.lookup "inputBinding") →
      DraftsFieldEntry (name, .object members) (other, .object others)
  | type {name other : String} {raw draft : Json} : IsSigned name other → raw.members? = none →
      DraftsType raw draft → DraftsFieldEntry (name, raw) (other, draft)

end

/-- The name of a type stays as it is. -/
theorem DraftsType.string (name : String) : DraftsType (.string name) (.string name) :=
  .other rfl nofun

/-! ## Reading names, expressions and bindings -/

/-- Both ways of writing a name mean it. -/
theorem IsSigned.withoutSigns_eq {name other : String} (h : IsSigned name other) :
    withoutSigns other = name := by
  obtain ⟨hplain, hother⟩ := h
  rcases hother with rfl | rfl
  · exact withoutSigns_of_head?_ne hplain
  · have hsign : withoutSigns ("#" ++ name) = withoutSigns name := by
      unfold withoutSigns
      rw [String.toList_append]
      rfl
    rw [hsign, withoutSigns_of_head?_ne hplain]

/-- Names are read alike. -/
theorem map_plainName_eq {raw draft : Option Json} (h : Option.Rel DraftsName raw draft) :
    (draft.bind Json.string?).map (plainName .draft2) = (raw.bind Json.string?).map (plainName .v1) := by
  cases h with
  | none => rfl
  | some h =>
      cases h with
      | text hname => exact congrArg some hname.withoutSigns_eq
      | other hraw => simp [hraw]

/-- Expressions are read alike. -/
theorem readExpression_draft {raw draft : Json} (h : DraftsExpression raw draft) (location : String) :
    readExpression .draft2 location draft = readExpression .v1 location raw := by
  cases h with
  | same hscript =>
      cases raw with
      | object members =>
          have hclass : Entries.string? members "class" ≠ some "Expression" := hscript
          simp [readExpression, hclass]
      | null | bool | number | string | array => rfl
  | script hsigns htrim hbrace hclass hscript =>
      simp [readExpression, hclass, hscript, scriptSource_scripted hsigns htrim hbrace]

/-- Expressions that may be missing are read alike. -/
theorem readExpression?_draft {raw draft : Option Json} (h : Option.Rel DraftsExpression raw draft)
    (location : String) : readExpression? .draft2 location draft = readExpression? .v1 location raw := by
  cases h with
  | none => rfl
  | some h => rw [readExpression?, readExpression?, readExpression_draft h]

/-- Equal members have equal texts. -/
theorem string?_congr {members others : Entries Json} {key : String}
    (h : others.lookup key = members.lookup key) : others.string? key = members.string? key := by
  unfold Entries.string?
  rw [h]

/-- The members of bindings are read alike. -/
theorem DraftsBindingMembers.readBinding_eq {members others : Entries Json}
    (h : DraftsBindingMembers members others) (location : String) :
    readBinding .draft2 location others = readBinding .v1 location members := by
  unfold readBinding
  rw [readExpression?_draft h.valueFrom, string?_congr (h.same "prefix" (by simp)),
    string?_congr (h.same "itemSeparator" (by simp)), h.same "separate" (by simp)]

/-- Bindings are read alike. -/
theorem readBinding?_draft {raw draft : Option Json} (h : Option.Rel DraftsBinding raw draft)
    (location : String) : readBinding? .draft2 location draft = readBinding? .v1 location raw := by
  cases h with
  | none => rfl
  | some h =>
      cases h with
      | object h => exact congrArg (Except.map some) (h.readBinding_eq location)
      | other hraw => simp [readBinding?, hraw]

/-- Symbols are read alike. -/
theorem map_plainName_symbols {symbols others : List Json} (h : List.Forall₂ DraftsName symbols others) :
    (others.filterMap Json.string?).map (plainName .draft2) =
      (symbols.filterMap Json.string?).map (plainName .v1) := by
  induction h with
  | nil => rfl
  | @cons raw draft _ _ hname _ ih =>
      cases hname with
      | text hname =>
          simp only [List.filterMap_cons, Json.string?, List.map_cons, ih]
          exact congrArg (· :: _) hname.withoutSigns_eq
      | other hraw => rw [List.filterMap_cons_none hraw, List.filterMap_cons_none hraw, ih]

/-- Enumerations are read alike. -/
theorem readEnum_draft {members others : Entries Json}
    (h : Option.Rel DraftsSymbols (members.lookup "symbols") (others.lookup "symbols"))
    (location : String) : readEnum .draft2 location others = readEnum .v1 location members := by
  unfold readEnum
  rcases rel_iff.1 h with ⟨hraw, hdraft⟩ | ⟨raw, draft, hraw, hdraft, h⟩
  · rw [hraw, hdraft]
  · rw [hraw, hdraft]
    cases h with
    | array hsymbols => simp only [map_plainName_symbols hsymbols]
    | other hnot =>
        cases raw with
        | array symbols => exact absurd rfl (hnot symbols)
        | null | bool | number | string | object => rfl

/-! ## Reading types -/

/-- The type at a member is that of its value. -/
theorem readTypeAt_eq (version : DocumentVersion) (location key : String) (members : Entries Json) :
    readTypeAt version location key members =
      ((members.lookup key).map (readType version location)).getD missingType := by
  induction members with
  | nil => rfl
  | cons member rest ih =>
      obtain ⟨name, value⟩ := member
      rw [readTypeAt, ih]
      by_cases hkey : key = name
      · simp [hkey]
      · rw [if_neg hkey, Entries.lookup_cons_of_ne (Ne.symm hkey)]

/-- The fields at the member `fields` are those of its value. -/
theorem readFieldsAt_eq (version : DocumentVersion) (location : String) (members : Entries Json) :
    readFieldsAt version location members =
      ((members.lookup "fields").map (readFields version location)).getD (.ok []) := by
  induction members with
  | nil => rfl
  | cons member rest ih =>
      obtain ⟨name, value⟩ := member
      rw [readFieldsAt, ih]
      by_cases hkey : "fields" = name
      · simp [← hkey]
      · rw [if_neg hkey, Entries.lookup_cons_of_ne (Ne.symm hkey)]

/-- A value and what a draft document has for it are read alike. -/
structure ReadsAlike (raw : Json) : Prop where
  type : ∀ {draft : Json}, DraftsType raw draft → ∀ location,
    readType .draft2 location draft = readType .v1 location raw
  fields : ∀ {draft : Json}, DraftsFields raw draft → ∀ location,
    readFields .draft2 location draft = readFields .v1 location raw
  -- fields declare their types two levels below the value that holds them
  member : ∀ {members others : Entries Json} {key : String}, raw = .object members →
    Option.Rel DraftsType (members.lookup key) (others.lookup key) → ∀ location,
    readTypeAt .draft2 location key others = readTypeAt .v1 location key members

/-- Types at members are read alike when the values are. -/
theorem readTypeAt_draft {members others : Entries Json} {key : String}
    (hvalues : ∀ member ∈ members, ReadsAlike member.2)
    (h : Option.Rel DraftsType (members.lookup key) (others.lookup key)) (location : String) :
    readTypeAt .draft2 location key others = readTypeAt .v1 location key members := by
  rw [readTypeAt_eq, readTypeAt_eq]
  rcases rel_iff.1 h with ⟨hraw, hdraft⟩ | ⟨raw, draft, hraw, hdraft, h⟩
  · rw [hraw, hdraft]
    rfl
  · rw [hraw, hdraft]
    exact (hvalues _ (Entries.mem_of_lookup_eq_some hraw)).type h location

/-- Fields are read alike when the value that holds them is. -/
theorem readFieldsAt_draft {members others : Entries Json}
    (hvalues : ∀ member ∈ members, ReadsAlike member.2)
    (h : Option.Rel DraftsFields (members.lookup "fields") (others.lookup "fields")) (location : String) :
    readFieldsAt .draft2 location others = readFieldsAt .v1 location members := by
  rw [readFieldsAt_eq, readFieldsAt_eq]
  rcases rel_iff.1 h with ⟨hraw, hdraft⟩ | ⟨raw, draft, hraw, hdraft, h⟩
  · rw [hraw, hdraft]
    rfl
  · rw [hraw, hdraft]
    exact (hvalues _ (Entries.mem_of_lookup_eq_some hraw)).fields h location

/-- Objects that describe types are read alike. -/
theorem readTypeMembers_draft {members others : Entries Json} {items drafted : Reading (InputType × Bool)}
    {fields draftedFields : Reading (List Input)}
    (htype : others.string? "type" = members.string? "type")
    (hbinding : Option.Rel DraftsBinding (members.lookup "inputBinding") (others.lookup "inputBinding"))
    (hitems : members.string? "type" = some "array" → drafted = items)
    (hfields : members.string? "type" = some "record" → draftedFields = fields)
    (hsymbols : members.string? "type" = some "enum" →
      Option.Rel DraftsSymbols (members.lookup "symbols") (others.lookup "symbols")) (location : String) :
    readTypeMembers .draft2 location others drafted draftedFields =
      readTypeMembers .v1 location members items fields := by
  unfold readTypeMembers
  rw [readBinding?_draft hbinding, htype]
  refine bind_congr fun binding ↦ ?_
  split
  · rfl
  · next hname => rw [hitems hname]
  · next hname => rw [hfields hname]
  · next hname => exact readEnum_draft (hsymbols hname) location
  · rfl

/-- Alternatives of a union are read alike when each of them is. -/
theorem readAlternatives_draft {alternatives others : List Json}
    (hvalues : ∀ alternative ∈ alternatives, ReadsAlike alternative)
    (h : List.Forall₂ DraftsType alternatives others) (location : String) :
    (others.any (Json.isString "null") = alternatives.any (Json.isString "null")) ∧
      readAlternatives .draft2 location others = readAlternatives .v1 location alternatives := by
  induction h with
  | nil => exact ⟨rfl, rfl⟩
  | @cons raw draft _ _ htype _ ih =>
      obtain ⟨hraw, hrest⟩ := List.forall_mem_cons.1 hvalues
      obtain ⟨hany, hread⟩ := ih hrest
      have hnull : draft.isString "null" = raw.isString "null" := by
        cases htype <;> rfl
      simp only [List.any_cons, readAlternatives, hnull, hany, hread, hraw.type htype, and_self]

/-! ## Reading fields -/

/-- What binds fields is alike. -/
theorem rel_fieldBinding? {members others : Entries Json}
    (htype : Option.Rel DraftsType (members.lookup "type") (others.lookup "type"))
    (hbinding : Option.Rel DraftsBinding (members.lookup "inputBinding") (others.lookup "inputBinding")) :
    Option.Rel DraftsBinding (fieldBinding? members) (fieldBinding? others) := by
  unfold fieldBinding?
  rcases rel_iff.1 hbinding with ⟨hraw, hdraft⟩ | ⟨raw, draft, hraw, hdraft, h⟩
  · rw [hraw, hdraft, Option.none_or, Option.none_or]
    -- the binding of the type is looked for
    rcases rel_iff.1 htype with ⟨hraw, hdraft⟩ | ⟨raw, draft, hraw, hdraft, h⟩
    · rw [hraw, hdraft]
      exact .none
    · rw [hraw, hdraft]
      cases h with
      | union => exact .none
      | object _ hbinding => exact hbinding
      | other hnone =>
          cases raw with
          | object => cases hnone
          | null | bool | number | string | array => exact .none
  · rw [hraw, hdraft]
    exact .some h

/-- Fields are read alike when their types are. -/
theorem readFieldMembers_draft {members others : Entries Json} {type drafted : Reading (InputType × Bool)}
    (hname : Option.Rel DraftsName (namingMember members) (namingMember others))
    (hbinding : Option.Rel DraftsBinding (fieldBinding? members) (fieldBinding? others))
    (htype : drafted = type) (location : String) :
    readFieldMembers .draft2 location others drafted = readFieldMembers .v1 location members type := by
  have hid : fieldName? .draft2 others = fieldName? .v1 members := map_plainName_eq hname
  unfold readFieldMembers
  rw [hid, htype, readBinding?_draft hbinding]

/-- Fields of a list are read alike when their types are. -/
theorem readFieldItems_draft {items others : List Json} (hitems : ∀ item ∈ items, ReadsAlike item)
    (h : List.Forall₂ DraftsField items others) (location : String) (index : Nat) :
    readFieldItems .draft2 location index others = readFieldItems .v1 location index items := by
  induction h generalizing index with
  | nil => rfl
  | @cons raw draft _ _ hfield _ ih =>
      obtain ⟨hraw, hrest⟩ := List.forall_mem_cons.1 hitems
      rw [readFieldItems, readFieldItems, ih hrest]
      cases hfield with
      | object hname htype hbinding =>
          simp only [Json.members?, readOwnType]
          rw [readFieldMembers_draft hname (rel_fieldBinding? htype hbinding) (hraw.member rfl htype _)]
      | other hnone => simp only [hnone]

/-- A member that is added when it is missing is found afterwards, and the others stay. -/
theorem lookup_addMissing (key other : String) (value : Json) (members : Entries Json) :
    (addMissing key value members).lookup other =
      if other = key then some ((members.lookup key).getD value) else members.lookup other := by
  unfold addMissing Entries.hasKey
  by_cases hkey : other = key
  · subst hkey
    cases hlookup : members.lookup other <;> simp [hlookup, List.lookup_append]
  · have hnew : List.lookup other [(key, value)] = none :=
      Entries.lookup_cons_of_ne (Ne.symm hkey : (key, value).1 ≠ other) []
    rw [if_neg hkey]
    split <;> simp [List.lookup_append, hnew]

/-- Names that are added when they are missing are alike. -/
theorem rel_addMissing {naming name other : String} {members others : Entries Json}
    (hsigned : IsSigned name other)
    (hname : Option.Rel DraftsName (members.lookup naming) (others.lookup naming)) :
    Option.Rel DraftsName ((addMissing naming (.string name) members).lookup naming)
      ((addMissing naming (.string other) others).lookup naming) := by
  rw [lookup_addMissing, lookup_addMissing, if_pos rfl, if_pos rfl]
  rcases rel_iff.1 hname with ⟨hraw, hdraft⟩ | ⟨raw, draft, hraw, hdraft, h⟩
  · rw [hraw, hdraft]
    exact .some (.text hsigned)
  · rw [hraw, hdraft]
    exact .some h

/-- A type that is no object is no object in a draft document. -/
theorem DraftsType.members?_eq_none {raw draft : Json} (h : DraftsType raw draft)
    (hraw : raw.members? = none) : draft.members? = none := by
  cases h with
  | union => rfl
  | object => cases hraw
  | other => exact hraw

/-- A field under its name has the parts of a field. -/
theorem DraftsFieldEntry.parts {raw draft : String × Json} (h : DraftsFieldEntry raw draft) :
    let members := entryMembers "name" "type" raw.1 raw.2
    let others := entryMembers "name" "type" draft.1 draft.2
    Option.Rel DraftsName (namingMember members) (namingMember others) ∧
      Option.Rel DraftsType (members.lookup "type") (others.lookup "type") ∧
      Option.Rel DraftsBinding (members.lookup "inputBinding") (others.lookup "inputBinding") := by
  have hnaming {members others : Entries Json}
      (h : Option.Rel DraftsName (members.lookup "name") (others.lookup "name"))
      (hfound : (members.lookup "name").isSome) :
      Option.Rel DraftsName (namingMember members) (namingMember others) := by
    obtain ⟨hraw, -⟩ | ⟨raw, draft, hraw, hdraft, h⟩ := rel_iff.1 h
    · rw [hraw] at hfound
      cases hfound
    · unfold namingMember
      rw [hraw, hdraft]
      exact .some h
  cases h with
  | object hsigned hname htype hbinding =>
      refine ⟨hnaming (rel_addMissing hsigned hname) ?_, ?_, ?_⟩
      · simp [entryMembers, lookup_addMissing]
      · simpa [entryMembers, lookup_addMissing, Json.members?] using htype
      · simpa [entryMembers, lookup_addMissing, Json.members?] using hbinding
  | type hsigned hnone htype =>
      have hdraft := htype.members?_eq_none hnone
      refine ⟨hnaming (rel_addMissing hsigned ?_) ?_, ?_, ?_⟩
      · simp [hnone, hdraft, List.lookup_cons]
      · simp [entryMembers, lookup_addMissing]
      · simpa [entryMembers, lookup_addMissing, hnone, hdraft, List.lookup_cons] using htype
      · simp [entryMembers, lookup_addMissing, hnone, hdraft, List.lookup_cons]

/-- Fields under their names are read alike when their types are. -/
theorem readFieldEntries_draft {members others : Entries Json}
    (hvalues : ∀ member ∈ members, ReadsAlike member.2)
    (h : List.Forall₂ DraftsFieldEntry members others) (location : String) (index : Nat) :
    readFieldEntries .draft2 location index others = readFieldEntries .v1 location index members := by
  induction h generalizing index with
  | nil => rfl
  | @cons raw draft _ _ hfield _ ih =>
      obtain ⟨hraw, hrest⟩ := List.forall_mem_cons.1 hvalues
      obtain ⟨hname, hdeclared, hbinding⟩ := hfield.parts
      rw [readFieldEntries, readFieldEntries, ih hrest]
      rw [readFieldMembers_draft hname (rel_fieldBinding? hdeclared hbinding)]
      cases hfield with
      | object _ _ htype => exact hraw.member rfl htype _
      | type _ hnone htype =>
          simp only [hnone, htype.members?_eq_none hnone]
          exact hraw.type htype _

/-! ## Types -/

/-- A value that is neither an array nor an object stays as it is. -/
theorem readsAlike_of_plain {raw : Json} (hobject : raw.members? = none)
    (harray : ∀ items, raw ≠ .array items) : ReadsAlike raw := by
  cases raw with
  | object members => cases hobject
  | array items => exact absurd rfl (harray items)
  | null | bool | number | string =>
      refine ⟨fun h _ ↦ ?_, fun h _ ↦ ?_, nofun⟩
      · cases h
        rfl
      · cases h
        rfl

/-- Every value is read like what a draft document has for it. -/
theorem readsAlike (raw : Json) : ReadsAlike raw := by
  induction raw using Json.induction with
  | null => exact readsAlike_of_plain rfl nofun
  | bool b => exact readsAlike_of_plain rfl nofun
  | number n => exact readsAlike_of_plain rfl nofun
  | string s => exact readsAlike_of_plain rfl nofun
  | array items ih =>
      refine ⟨?_, ?_, nofun⟩
      · intro draft h location
        cases h with
        | union h =>
            obtain ⟨hany, hread⟩ := readAlternatives_draft ih h location
            rw [readType, readType, hany, hread]
        | other _ hnot => exact absurd rfl (hnot items)
      · intro draft h location
        cases h with
        | array h => exact readFieldItems_draft ih h location 0
        | other _ hnot => exact absurd rfl (hnot items)
  | object members ih =>
      refine ⟨?_, ?_, ?_⟩
      · intro draft h location
        cases h with
        | object htype hbinding hitems hfields hsymbols =>
            rw [readType, readType, readTypeMembers_draft htype hbinding
              (fun hname ↦ readTypeAt_draft ih (hitems hname) _)
              (fun hname ↦ readFieldsAt_draft ih (hfields hname) _) hsymbols]
        | other hnone => cases hnone
      · intro draft h location
        cases h with
        | object h => exact readFieldEntries_draft ih h location 0
        | other hnone => cases hnone
      · intro found others key hfound h location
        cases hfound
        exact readTypeAt_draft ih h location

end Invocation.Document
