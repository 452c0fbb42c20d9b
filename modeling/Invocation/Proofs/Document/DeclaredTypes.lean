import Invocation.Proofs.Document.Places
import Invocation.Proofs.Document.Spellings
import Invocation.Proofs.Rendering.Lookup

/-!
# Types that a document declares

A type that is read is put together from types, fields and bindings that stand in the document.  `Inherited`
says that a property passes from the parts of a type to the type, so that every type has it that is read from a
document (`Inherited.yields_readType`), and so have the inputs of a tool (`Inherited.declaredAt_of_readTool`).
-/

namespace Invocation

/-- The entries of a list are entries of the list, each of them once. -/
theorem Entries.subperm_ofList {α : Type} (pairs : List (String × α)) : (Entries.ofList pairs).Subperm pairs := by
  have hput (key : String) (value : α) (entries : Entries α) :
      (put key value entries).Subperm ((key, value) :: entries) :=
    (perm_put key value entries).subperm.trans (List.eraseP_sublist.cons_cons _).subperm
  have hfold (entries : Entries α) :
      (pairs.foldl (fun entries pair ↦ put pair.1 pair.2 entries) entries).Subperm (pairs ++ entries) := by
    induction pairs generalizing entries with
    | nil => exact .refl entries
    | cons pair rest ih =>
        have hrest := (ih (put pair.1 pair.2 entries)).trans
          ((List.subperm_append_left rest).2 (hput pair.1 pair.2 entries))
        exact hrest.trans List.perm_middle.subperm
  have hall := hfold []
  rwa [List.append_nil] at hall

namespace Json

/-- The items of an array, or the values of the members of an object. -/
def parts : Json → List Json
  | .array items => items
  | .object members => members.map Prod.snd
  | _ => []

/-- `document.Holds value` says that a value stands in a document, at any depth. -/
inductive Holds (document : Json) : Json → Prop where
  | here : Holds document document
  | part {whole part : Json} : Holds document whole → part ∈ whole.parts → Holds document part

/-- The value of a member is a part of its object. -/
theorem mem_parts_of_get? {value found : Json} {key : String} (h : value.get? key = some found) :
    found ∈ value.parts := by
  cases value with
  | object members => exact List.mem_map_of_mem (f := Prod.snd) (Entries.mem_of_lookup_eq_some h)
  | null | bool | number | string | array => cases h

/-- The value of a member stands in the document when the object does. -/
theorem Holds.get? {document value found : Json} {key : String} (h : document.Holds value)
    (hfound : value.get? key = some found) : document.Holds found :=
  h.part (mem_parts_of_get? hfound)

/-- What holds of a value when it holds of its parts holds of every value. -/
theorem induction_parts {motive : Json → Prop} (h : ∀ value, (∀ part ∈ value.parts, motive part) → motive value)
    (value : Json) : motive value := by
  induction value using Json.induction with
  | null | bool | number | string => exact h _ nofun
  | array items ih => exact h _ ih
  | object members ih => exact h _ (List.forall_mem_map.2 ih)

end Json

namespace Document

/-! ## Readings -/

variable {α β : Type} {good : α → Prop} {holds : β → Prop}

/-- What is read, if anything, has the property. -/
def Yields (good : α → Prop) (reading : Reading α) : Prop :=
  ∀ value, reading = .ok value → good value

namespace Yields

/-- A value that is read at once. -/
theorem ok {value : α} (h : good value) : Yields good (.ok value) := by
  rintro _ ⟨⟩
  exact h

/-- Nothing is read. -/
theorem error (failure : DocumentError) : Yields good (.error failure) :=
  nofun

/-- What is read in two parts has what the second part gives to it. -/
theorem bind {first : Reading α} {next : α → Reading β} (h : Yields good first)
    (hnext : ∀ value, good value → Yields holds (next value)) : Yields holds (first >>= next) := by
  intro result hresult
  obtain ⟨value, hvalue, hresult⟩ := bind_eq_ok_iff.1 hresult
  exact hnext value (h value hvalue) result hresult

/-- What is made of a reading has what is made of its value. -/
theorem map {reading : Reading α} (h : Yields good reading) {make : α → β}
    (hmake : ∀ value, good value → holds (make value)) : Yields holds (reading.map make) := by
  cases reading with
  | ok value => exact ok (hmake value (h value rfl))
  | error failure => exact error failure

/-- The items of a list have what is read from each of them at its place. -/
theorem readItems {good : String → α → Prop} {read : String → Json → Reading α} {items : List Json}
    (h : ∀ item ∈ items, ∀ place, Yields (good place) (read place item)) (location : String) (start : Nat) :
    Yields (fun values ↦ ∀ value ∈ values, ∃ index, good (elementAt location index) value)
      (readItems read location start items) := by
  induction items generalizing start with
  | nil => exact ok (List.forall_mem_nil _)
  | cons item rest ih =>
      obtain ⟨hitem, hrest⟩ := List.forall_mem_cons.1 h
      refine (hitem (elementAt location start)).bind fun value hvalue ↦
        (ih hrest (start + 1)).bind fun values hvalues ↦ ok ?_
      exact List.forall_mem_cons.2 ⟨⟨start, hvalue⟩, hvalues⟩

end Yields

/-! ## What passes to a type from its parts -/

/-- The binding is read at a place from an object in the document. -/
def BindingAt (document : Json) (version : DocumentVersion) (place : String) (binding : Binding) : Prop :=
  ∃ members, document.Holds (.object members) ∧ readBinding version place members = .ok binding

/-- The input or field is read at a place: it stands there, its type has a property below, and its binding is
plain or read from the document. -/
structure DeclaredAt (document : Json) (version : DocumentVersion) (good : String → InputType → Prop)
    (place : String) (input : Input) : Prop where
  location : input.location = place
  type : good (child place "type") input.type
  binding : input.binding = .plain ∨
    BindingAt document version (child place "inputBinding") input.binding

/-- The fields are read at the items of a list at a place, each at an item of its own. -/
structure DeclaredIn (document : Json) (version : DocumentVersion) (good : String → InputType → Prop)
    (place : String) (fields : List Input) : Prop where
  declared : ∀ field ∈ fields, ∃ index, DeclaredAt document version good (elementAt place index) field
  nodup : (fields.map Parameter.location).Nodup

/-- The fields of a record are declared where they are read, also when later ones have replaced earlier ones. -/
theorem DeclaredIn.recordType {document : Json} {version : DocumentVersion} {good : String → InputType → Prop}
    {place : String} {fields : List Input} (h : DeclaredIn document version good place fields) :
    DeclaredIn document version good place
      ((Entries.ofList (fields.map fun field ↦ (field.id, field))).map Prod.snd) := by
  obtain ⟨kept, hperm, hsublist⟩ := Entries.subperm_ofList (fields.map fun field ↦ (field.id, field))
  have hkept : (kept.map Prod.snd).Sublist fields := by
    simpa [Function.comp_def] using hsublist.map Prod.snd
  have hfields := hperm.map Prod.snd
  exact ⟨fun field hfield ↦ h.declared field (hkept.subset (hfields.mem_iff.2 hfield)),
    (hfields.map Parameter.location).nodup_iff.1 ((hkept.map Parameter.location).nodup h.nodup)⟩

/-- A property of types and the places at which they are read has to hold of types without parts, and passes
from the items and the fields to the type. -/
structure Inherited (document : Json) (version : DocumentVersion) (good : String → InputType → Prop) :
    Prop where
  primitive (place : String) (kind : Primitive) : good place (.primitive kind)
  flag (place : String) : good place (.boolean none)
  enum (place : String) (symbols : List String) : good place (.enum symbols)
  unresolved (place tag : String) : good place (.unresolved tag)
  -- an array that is written as a name with brackets has its items at its own place
  list {place : String} {items : InputType} : good place items → good place (.array items none)
  array {place : String} {itemBinding : Option Binding} {items : InputType} :
    (∀ binding ∈ itemBinding, BindingAt document version (child place "inputBinding") binding) →
    good (child place "items") items → good place (arrayType itemBinding items)
  record {place : String} {fields : List Input} :
    DeclaredIn document version good (child place "fields") fields → good place (.record fields)

/-- The declaration of an input or a field has its binding in the document, and a type with the property that
stands there as well. -/
structure DeclaresType (document : Json) (version : DocumentVersion) (good : String → InputType → Prop)
    (raw : Json) : Prop where
  type : ∀ value ∈ raw.get? "type", document.Holds value ∧
    ∀ place, Yields (fun read ↦ good place read.1) (readType version place value)
  binding : ∀ value ∈ raw.get? "inputBinding", document.Holds value

variable {document : Json} {version : DocumentVersion} {good : String → InputType → Prop}

/-- A binding is read from the value at its place, or missing. -/
theorem yields_readBinding? {raw : Option Json} (h : ∀ value ∈ raw, document.Holds value)
    (version : DocumentVersion) (place : String) :
    Yields (fun found ↦ ∀ binding ∈ found, BindingAt document version place binding)
      (readBinding? version place raw) := by
  unfold readBinding?
  split
  · exact .ok fun _ hfound ↦ absurd hfound (Option.not_mem_none _)
  · next members hmembers =>
    have hread : Yields (BindingAt document version place) (readBinding version place members) := by
      intro binding hbinding
      obtain ⟨value, hvalue, hobject⟩ := Option.bind_eq_some_iff.1 hmembers
      cases value with
      | object found =>
          cases hobject
          exact ⟨members, h _ hvalue, hbinding⟩
      | null | bool | number | string | array => cases hobject
    refine hread.map fun binding hbinding other hother ↦ ?_
    cases hother
    exact hbinding

/-- A binding is plain when none is found. -/
theorem binding_of_found {place : String} {found : Option Binding}
    (h : ∀ binding ∈ found, BindingAt document version place binding) :
    found.getD .plain = .plain ∨ BindingAt document version place (found.getD .plain) := by
  cases found with
  | none => exact .inl rfl
  | some binding => exact .inr (h binding rfl)

/-- A union has the type of a member. -/
theorem yields_unionType {good : InputType → Prop} (hunresolved : ∀ tag, good (.unresolved tag))
    (optional : Bool) {alternatives : List (Reading (InputType × Bool))}
    (h : ∀ alternative ∈ alternatives, Yields (fun read ↦ good read.1) alternative) :
    Yields (fun read ↦ good read.1) (unionType optional alternatives) := by
  unfold unionType
  split
  · exact (h _ List.mem_cons_self).map fun _ hread ↦ hread
  · exact .ok (hunresolved _)

/-- A field stands at the place at which it is read. -/
theorem location_readField {version : DocumentVersion} {place : String} {raw : Json} {field : Input}
    (h : readField version place raw = .ok field) : field.location = place := by
  unfold readField readFieldMembers at h
  split at h
  · cases h
  · split at h
    · cases h
    · obtain ⟨⟨type, optional⟩, -, h⟩ := bind_eq_ok_iff.1 h
      obtain ⟨binding, -, h⟩ := bind_eq_ok_iff.1 h
      cases h
      rfl

namespace Inherited

/-- The type that a reversed name means has the property. -/
theorem typeOfReversedName (h : Inherited document version good) (place : String) (name : List Char) :
    good place (typeOfReversedName name).1 := by
  fun_induction Document.typeOfReversedName name with
  | case1 rest ih => exact ih
  | case2 rest ih => exact h.list ih
  | case3 name =>
      dsimp only
      unfold typeOfName
      split
      · exact h.flag place
      · split
        · exact h.primitive place _
        · exact h.unresolved place _

/-- The type at a member is read from its value, or missing. -/
theorem yields_readTypeAt (h : Inherited document version good) {members : Entries Json} {key : String}
    (hvalue : ∀ value ∈ members.lookup key, ∀ place,
      Yields (fun read ↦ good place read.1) (readType version place value)) (place : String) :
    Yields (fun read ↦ good place read.1) (readTypeAt version place key members) := by
  rw [readTypeAt_eq]
  cases hfound : members.lookup key with
  | none => exact .ok (h.unresolved place _)
  | some value => exact hvalue value hfound place

/-- A field is read from its declaration. -/
theorem yields_readField (h : Inherited document version good) {raw : Json}
    (hdeclares : DeclaresType document version good raw) (place : String) :
    Yields (DeclaredAt document version good place) (readField version place raw) := by
  cases raw with
  | object members =>
      have hfield : ∀ value ∈ fieldBinding? members, document.Holds value := by
        intro value hvalue
        rcases Option.or_eq_some_iff.1 hvalue with hvalue | ⟨-, hvalue⟩
        · exact hdeclares.binding value hvalue
        · -- the binding stands in the object that describes the type
          obtain ⟨type, hfound, hget⟩ := Option.bind_eq_some_iff.1 hvalue
          exact (hdeclares.type type hfound).1.get? hget
      show Yields _ (readFieldMembers version place members _)
      unfold readFieldMembers
      split
      · exact .error _
      · refine Yields.bind (h.yields_readTypeAt (fun value hvalue ↦ (hdeclares.type value hvalue).2) _)
          fun read hread ↦ (yields_readBinding? hfield version _).bind fun found hfound ↦
            .ok ⟨rfl, hread, ?_⟩
        exact binding_of_found hfound
  | null | bool | number | string | array => exact .error _

/-- An input is read from its declaration. -/
theorem yields_readInput (h : Inherited document version good) {raw : Json}
    (hdeclares : DeclaresType document version good raw) (place : String) :
    Yields (fun declared ↦ DeclaredAt document version good place declared.input)
      (readInput version place raw) := by
  cases raw with
  | object members =>
      unfold readInput
      dsimp only [Json.members?]
      split
      · exact .error _
      · refine Yields.bind (h.yields_readTypeAt (fun value hvalue ↦ (hdeclares.type value hvalue).2) _)
          fun read hread ↦ (yields_readBinding? hdeclares.binding version _).bind fun found hfound ↦
            .ok ⟨rfl, hread, ?_⟩
        exact binding_of_found hfound
  | null | bool | number | string | array => exact .error _

/-- An object that describes a type has the property when its items and its fields have it. -/
theorem yields_readTypeMembers (h : Inherited document version good) {place : String}
    {members : Entries Json} {items : Reading (InputType × Bool)} {fields : Reading (List Input)}
    (hbinding : ∀ value ∈ members.lookup "inputBinding", document.Holds value)
    (hitems : Yields (fun read ↦ good (child place "items") read.1) items)
    (hfields : Yields (DeclaredIn document version good (child place "fields")) fields) :
    Yields (good place) (readTypeMembers version place members items fields) := by
  unfold readTypeMembers
  refine (yields_readBinding? hbinding version _).bind fun binding hread ↦ ?_
  split
  · exact .ok (h.unresolved place _)
  · exact hitems.bind fun read hitem ↦ .ok (h.array hread hitem)
  · exact hfields.bind fun fields hdeclared ↦ .ok (h.record hdeclared.recordType)
  · unfold readEnum
    split
    · exact .ok (h.enum place _)
    · exact .error _
  · exact .ok (h.typeOfReversedName place _)

end Inherited

/-- What is read from a value has the property, as a type, as fields and as the type of an input or a field. -/
structure Inherits (document : Json) (version : DocumentVersion) (good : String → InputType → Prop)
    (raw : Json) : Prop where
  type (place : String) : Yields (fun read ↦ good place read.1) (readType version place raw)
  fields (place : String) : Yields (DeclaredIn document version good place) (readFields version place raw)
  declared : DeclaresType document version good raw

/-- What is found in an entry besides its name is a member of its value, or the value as a type. -/
theorem get?_or_eq_of_lookup_entryMembers {naming key name : String} {value found : Json} (h : key ≠ naming)
    (hfound : (entryMembers naming "type" name value).lookup key = some found) :
    value.get? key = some found ∨ key = "type" ∧ found = value := by
  rw [lookup_entryMembers h] at hfound
  cases value with
  | object members => exact .inl hfound
  | null | bool | number | string | array =>
      obtain ⟨rfl, rfl⟩ := Prod.mk.inj (List.mem_singleton.1 (Entries.mem_of_lookup_eq_some hfound))
      exact .inr ⟨rfl, rfl⟩

/-- Inputs or fields are declared by the items of a list, or by its entries under their names. -/
theorem declaresType_of_mem_listForm {naming : String} {raw item : Json} (htype : naming ≠ "type")
    (hbinding : naming ≠ "inputBinding") (hraw : document.Holds raw)
    (hparts : ∀ part ∈ raw.parts, Inherits document version good part)
    (hitem : item ∈ listForm naming "type" (some raw)) : DeclaresType document version good item := by
  cases raw with
  | array items => exact (hparts item hitem).declared
  | object members =>
      obtain ⟨member, hmember, rfl⟩ := List.mem_map.1 hitem
      have hpart : member.2 ∈ (Json.object members).parts := List.mem_map_of_mem hmember
      have hentry := hparts _ hpart
      refine ⟨fun value hvalue ↦ ?_, fun value hvalue ↦ ?_⟩
      · rcases get?_or_eq_of_lookup_entryMembers htype.symm hvalue with hvalue | ⟨-, rfl⟩
        · exact hentry.declared.type value hvalue
        · exact ⟨hraw.part hpart, hentry.type⟩
      · rcases get?_or_eq_of_lookup_entryMembers hbinding.symm hvalue with hvalue | ⟨hkey, -⟩
        · exact hentry.declared.binding value hvalue
        · exact absurd hkey (by decide)
  | null | bool | number | string => cases hitem

namespace Inherited

/-- Every type that is read from a value in the document has the property when those inside of it have it. -/
theorem yields_readType_of_parts (h : Inherited document version good) {raw : Json}
    (hraw : document.Holds raw) (hparts : ∀ part ∈ raw.parts, Inherits document version good part)
    (place : String) : Yields (fun read ↦ good place read.1) (readType version place raw) := by
  cases raw with
  | null | bool | number => exact .ok (h.unresolved place _)
  | string name => exact .ok (h.typeOfReversedName place _)
  | array union =>
      rw [readType, readAlternatives_eq]
      refine yields_unionType (h.unresolved place) _ (List.forall_mem_map.2 fun item hitem ↦ ?_)
      exact (hparts item (List.mem_filter.1 hitem).1).type place
  | object members =>
      have hmember {key : String} {value : Json} (hvalue : members.lookup key = some value) :
          Inherits document version good value :=
        hparts value (Json.mem_parts_of_get? hvalue)
      rw [readType]
      refine Yields.bind (h.yields_readTypeMembers (fun _ ↦ hraw.get?) ?_ ?_) fun _ htype ↦ .ok htype
      · exact h.yields_readTypeAt (fun _ hvalue ↦ (hmember hvalue).type) _
      · rw [readFieldsAt_eq]
        cases hfields : members.lookup "fields" with
        | none => exact .ok ⟨List.forall_mem_nil _, List.nodup_nil⟩
        | some value => exact (hmember hfields).fields _

/-- What is read from a value in the document has the property. -/
theorem inherits (h : Inherited document version good) {raw : Json} (hraw : document.Holds raw) :
    Inherits document version good raw := by
  induction raw using Json.induction_parts with
  | h raw ih =>
  have hparts : ∀ part ∈ raw.parts, Inherits document version good part :=
    fun part hpart ↦ ih part hpart (hraw.part hpart)
  refine ⟨h.yields_readType_of_parts hraw hparts, fun place ↦ ?_, fun value hvalue ↦ ?_, fun _ ↦ hraw.get?⟩
  · rw [readFields_eq]
    have hitems : ∀ item ∈ listForm "name" "type" (some raw), DeclaresType document version good item :=
      fun item hitem ↦ declaresType_of_mem_listForm (by decide) (by decide) hraw hparts hitem
    intro fields hread
    refine ⟨Yields.readItems (fun item hitem ↦ h.yields_readField (hitems item hitem)) place 0 fields hread, ?_⟩
    rw [map_readItems location_readField hread]
    exact nodup_itemPlaces place fields.length
  · exact ⟨hraw.get? hvalue, (hparts value (Json.mem_parts_of_get? hvalue)).type⟩

/-- Every input of a tool that is read from the document has a type with the property. -/
theorem declaredAt_of_readTool {tool : Tool} (h : Inherited document tool.version good)
    (hread : readTool document = .ok tool) : ∀ declared ∈ tool.inputs, ∃ index,
      DeclaredAt document tool.version good (elementAt (child root "inputs") index) declared.input := by
  obtain ⟨members, rfl, hparts⟩ := exists_isReadFrom hread
  refine Yields.readItems (fun item hitem place ↦ h.yields_readInput ?_ place) _ 0 _ hparts.inputs
  cases hinputs : members.lookup "inputs" with
  | none =>
      rw [hinputs] at hitem
      cases hitem
  | some raw =>
      rw [hinputs] at hitem
      have hraw : (Json.object members).Holds raw := Json.Holds.here.get? hinputs
      exact declaresType_of_mem_listForm (by decide) (by decide) hraw
        (fun part hpart ↦ h.inherits (hraw.part hpart)) hitem

end Inherited

end Document

end Invocation
