import Invocation.Proofs.Document.Spellings

/-!
# Documents in list form

The inputs of a tool and the fields of a record can be written in a list, or as an object that maps their names
to them.  `listed` writes all of them in lists, at any depth, so that no object is left in the place of a list
(`ListedTool`), and the document is read as the same tool or has the same fault (`readTool_listed`).
-/

namespace Invocation.Document

/-! ## Writing lists -/

/-- The item of a list for an entry of an object: a value that is no object is a type, and the key of the entry
is its name unless it brings one along. -/
def entryItem (naming key : String) (value : Json) : Json :=
  let members := value.members?.getD [("type", value)]
  .object (if naming ∈ members.keys then members else members ++ [(naming, .string key)])

mutual

/-- The type with the fields of its records in lists. -/
def listedType : Json → Json
  | .array union => .array (listedUnion union)
  | .object members => .object (listedTypeMembers (Entries.string? members "type") members)
  | raw => raw

/-- The members of a union with the fields of their records in lists. -/
def listedUnion : List Json → List Json
  | [] => []
  | item :: rest => listedType item :: listedUnion rest

/-- The members of an object that describes a type of this kind, with the fields of records in lists.  Only
arrays have items and only records have fields. -/
def listedTypeMembers (kind : Option String) : List (String × Json) → List (String × Json)
  | [] => []
  | member :: rest =>
    (member.1,
      if kind = some "array" ∧ member.1 = "items" then listedType member.2
      else if kind = some "record" ∧ member.1 = "fields" then listedDeclarations "name" member.2
      else member.2) :: listedTypeMembers kind rest

/-- Inputs or fields in a list, with the fields of the records in their types in lists as well. -/
def listedDeclarations (naming : String) : Json → Json
  | .array items => .array (listedItems items)
  | .object members => .array (listedEntries naming members)
  | raw => raw

/-- The inputs or fields of a list with the fields of the records in their types in lists. -/
def listedItems : List Json → List Json
  | [] => []
  | item :: rest => listedDeclaration item :: listedItems rest

/-- The items of a list for the entries of an object. -/
def listedEntries (naming : String) : List (String × Json) → List Json
  | [] => []
  | (key, .object members) :: rest =>
    entryItem naming key (.object (listedMembers members)) :: listedEntries naming rest
  | (key, raw) :: rest => entryItem naming key (listedType raw) :: listedEntries naming rest

/-- The input or field with the fields of the records in its type in lists. -/
def listedDeclaration : Json → Json
  | .object members => .object (listedMembers members)
  | raw => raw

/-- The members of an input or a field with the fields of the records in its type in lists. -/
def listedMembers : List (String × Json) → List (String × Json)
  | [] => []
  | member :: rest =>
    (member.1, if member.1 = "type" then listedType member.2 else member.2) :: listedMembers rest

end

/-- The document with its inputs and the fields of all records in lists. -/
def listed : Json → Json
  | .object members =>
    .object (members.map fun member ↦
      (member.1, if member.1 = "inputs" then listedDeclarations "id" member.2 else member.2))
  | raw => raw

/-! ## Nothing but lists -/

mutual

/-- The fields of every record in a type are written in a list. -/
inductive ListedType : Json → Prop where
  | union {alternatives : List Json} :
      (∀ alternative ∈ alternatives, ListedType alternative) → ListedType (.array alternatives)
  | object {members : Entries Json} :
      (members.string? "type" = some "array" → ∀ value, ("items", value) ∈ members → ListedType value) →
      (members.string? "type" = some "record" →
        ∀ value, ("fields", value) ∈ members → ListedDeclarations value) →
      ListedType (.object members)
  | other {raw : Json} : raw.members? = none → (∀ alternatives, raw ≠ .array alternatives) → ListedType raw

/-- The inputs or fields are no object, and the fields in their types are none either. -/
inductive ListedDeclarations : Json → Prop where
  | array {items : List Json} :
      (∀ item ∈ items, ListedDeclaration item) → ListedDeclarations (.array items)
  | other {raw : Json} : raw.members? = none → (∀ items, raw ≠ .array items) → ListedDeclarations raw

/-- The fields in the type of an input or a field are written in lists. -/
inductive ListedDeclaration : Json → Prop where
  | object {members : Entries Json} :
      (∀ value, ("type", value) ∈ members → ListedType value) → ListedDeclaration (.object members)
  | other {raw : Json} : raw.members? = none → ListedDeclaration raw

end

/-- The inputs of a tool and the fields of all records in their types are written in lists. -/
inductive ListedTool : Json → Prop where
  | object {members : Entries Json} :
      (∀ value, ("inputs", value) ∈ members → ListedDeclarations value) → ListedTool (.object members)
  | other {raw : Json} : raw.members? = none → ListedTool raw

/-! ## The parts of what is listed -/

/-- Every member of a union is listed. -/
theorem listedUnion_eq_map (union : List Json) : listedUnion union = union.map listedType := by
  induction union with
  | nil => rfl
  | cons item rest ih => rw [listedUnion, ih, List.map_cons]

/-- Every input or field of a list is listed. -/
theorem listedItems_eq_map (items : List Json) : listedItems items = items.map listedDeclaration := by
  induction items with
  | nil => rfl
  | cons item rest ih => rw [listedItems, ih, List.map_cons]

/-- Every entry becomes an item with its value listed, as a declaration or as a type. -/
theorem listedEntries_eq_map (naming : String) (members : Entries Json) :
    listedEntries naming members = members.map fun member ↦
      entryItem naming member.1
        (if member.2.members?.isSome then listedDeclaration member.2 else listedType member.2) := by
  induction members with
  | nil => rfl
  | cons member rest ih =>
      obtain ⟨key, value⟩ := member
      rw [List.map_cons, ← ih]
      cases value <;> rfl

/-- The type of an input or a field is listed. -/
theorem listedMembers_eq_map (members : Entries Json) :
    listedMembers members = members.map fun member ↦
      (member.1, if member.1 = "type" then listedType member.2 else member.2) := by
  induction members with
  | nil => rfl
  | cons member rest ih => rw [listedMembers, ih, List.map_cons]

/-- The value of a member of an object that describes a type of this kind is listed as a type, as fields or not
at all. -/
def listedMember (kind : Option String) (key : String) (value : Json) : Json :=
  if kind = some "array" ∧ key = "items" then listedType value
  else if kind = some "record" ∧ key = "fields" then listedDeclarations "name" value
  else value

/-- The items of an array are listed as a type. -/
theorem listedMember_items (kind : Option String) (value : Json) :
    listedMember kind "items" value = if kind = some "array" then listedType value else value := by
  simp [listedMember]

/-- The fields of a record are listed. -/
theorem listedMember_fields (kind : Option String) (value : Json) :
    listedMember kind "fields" value =
      if kind = some "record" then listedDeclarations "name" value else value := by
  simp [listedMember]

/-- Other members stay. -/
theorem listedMember_of_ne {key : String} (hitems : key ≠ "items") (hfields : key ≠ "fields")
    (kind : Option String) : listedMember kind key = id := by
  funext value
  simp [listedMember, hitems, hfields]

/-- Every member of an object that describes a type is listed. -/
theorem listedTypeMembers_eq_map (kind : Option String) (members : Entries Json) :
    listedTypeMembers kind members =
      members.map fun member ↦ (member.1, listedMember kind member.1 member.2) := by
  induction members with
  | nil => rfl
  | cons member rest ih =>
      rw [listedTypeMembers, ih, List.map_cons]
      rfl

/-- What is found in an object that describes a type is listed. -/
theorem lookup_listedTypeMembers (kind : Option String) (members : Entries Json) (key : String) :
    (listedTypeMembers kind members).lookup key = (members.lookup key).map (listedMember kind key) := by
  rw [listedTypeMembers_eq_map]
  exact Entries.lookup_map (listedMember kind) members key

/-- What is found in an input or a field is its type, listed, or stays. -/
theorem lookup_listedMembers (members : Entries Json) (key : String) :
    (listedMembers members).lookup key =
      (members.lookup key).map fun value ↦ if key = "type" then listedType value else value := by
  rw [listedMembers_eq_map]
  exact Entries.lookup_map (fun key value ↦ if key = "type" then listedType value else value) members key

/-! ## Reading what is listed -/

/-- A value, and what is listed in its place, are read alike in every role. -/
structure ListedAlike (raw : Json) : Prop where
  type : TypesAlike raw (listedType raw)
  declaration : DeclarationAlike raw (listedDeclaration raw)
  declarations : ∀ naming, naming ≠ "type" →
    List.Forall₂ DeclarationAlike (listForm naming "type" (some raw))
      (listForm naming "type" (some (listedDeclarations naming raw)))

/-- A type is null exactly when it is null with its fields in lists. -/
theorem isString_listedType (raw : Json) (text : String) :
    (listedType raw).isString text = raw.isString text := by
  cases raw <;> rfl

/-- Values that are found are related to what they become. -/
theorem rel_map_self {R : Json → Json → Prop} {f : Json → Json} {found : Option Json}
    (h : ∀ value ∈ found, R value (f value)) : Option.Rel R found (found.map f) := by
  cases found with
  | none => exact .none
  | some value => exact .some (h value rfl)

/-- A union is read alike when its members are. -/
theorem typesAlike_union {union : List Json} (h : ∀ raw ∈ union, ListedAlike raw) :
    TypesAlike (.array union) (listedType (.array union)) := by
  refine ⟨fun version place ↦ ?_, by rw [listedType]; rfl⟩
  have hany : (union.map listedType).any (Json.isString "null") = union.any (Json.isString "null") := by
    rw [List.any_map]
    exact congrArg (List.any union) (funext fun raw ↦ isString_listedType raw "null")
  have hread : readAlternatives version place (union.map listedType) =
      readAlternatives version place union := by
    rw [readAlternatives_eq, readAlternatives_eq, List.filter_map, List.map_map]
    simp only [Function.comp_def, isString_listedType]
    refine List.map_congr_left fun raw hraw ↦ ?_
    exact ((h raw (List.mem_filter.1 hraw).1).type.read version place).symm
  rw [listedType, readType, readType, listedUnion_eq_map, hany, hread]

/-- An object that describes a type is read alike when its items and its fields are. -/
theorem typesAlike_described {members : Entries Json} (h : ∀ member ∈ members, ListedAlike member.2) :
    TypesAlike (.object members) (listedType (.object members)) := by
  have hfound {key : String} {value : Json} (hvalue : members.lookup key = some value) : ListedAlike value :=
    h _ (Entries.mem_of_lookup_eq_some hvalue)
  rw [listedType]
  refine typesAlike_object (fun key hitems hfields ↦ ?_) ?_ fun version place ↦ ?_
  · rw [lookup_listedTypeMembers, listedMember_of_ne hitems hfields, Option.map_id_apply]
  · rw [lookup_listedTypeMembers]
    refine rel_map_self fun value hvalue ↦ ?_
    rw [listedMember_items]
    split
    · exact (hfound hvalue).type
    · exact .refl value
  · rw [readFieldsAt_eq, readFieldsAt_eq, lookup_listedTypeMembers]
    cases hvalue : members.lookup "fields" with
    | none => rfl
    | some value =>
        show readFields version place value = readFields version place (listedMember _ "fields" value)
        rw [listedMember_fields]
        split
        · exact readFields_alike ((hfound hvalue).declarations "name" (by decide)) version place
        · rfl

/-- The members of an input or a field are alike when its type is read alike. -/
theorem membersAlike_listed {members : Entries Json} (h : ∀ member ∈ members, ListedAlike member.2) :
    MembersAlike members (listedMembers members) where
  type := by
    rw [lookup_listedMembers]
    exact rel_map_self fun value hvalue ↦ (h _ (Entries.mem_of_lookup_eq_some hvalue)).type
  rest {key} hkey := by
    rw [lookup_listedMembers]
    simp [hkey]

/-- The members of an item are those of its entry, with its name. -/
theorem entryItem_eq (naming key : String) (value : Json) :
    entryItem naming key value = .object (entryMembers naming "type" key value) := by
  unfold entryItem entryMembers addMissing
  simp only [Entries.hasKey_iff]

/-- An entry is alike as an item of a list. -/
theorem declarationAlike_entry {value : Json} (h : ListedAlike value) {naming : String}
    (hnaming : naming ≠ "type") (key : String) :
    DeclarationAlike (.object (entryMembers naming "type" key value))
      (entryItem naming key (if value.members?.isSome then listedDeclaration value else listedType value)) := by
  rw [entryItem_eq]
  refine declarationAlike_object (MembersAlike.addMissing ?_ hnaming _)
  cases value with
  | object members =>
      obtain ⟨h⟩ := h.declaration
      exact h
  | null | bool | number | string | array =>
      refine ⟨?_, fun hkey ↦ ?_⟩
      · exact .some h.type
      · exact (Entries.lookup_cons_of_ne (Ne.symm hkey) []).trans
          (Entries.lookup_cons_of_ne (Ne.symm hkey) []).symm

/-- Every value and what is listed in its place are read alike. -/
theorem listedAlike (raw : Json) : ListedAlike raw := by
  induction raw using Json.induction with
  | null | bool | number | string => exact ⟨.refl _, .refl _, fun _ _ ↦ .nil⟩
  | array items ih =>
      refine ⟨typesAlike_union ih, .refl _, fun naming _ ↦ ?_⟩
      show List.Forall₂ DeclarationAlike items (listedItems items)
      rw [listedItems_eq_map, List.forall₂_map_right_iff]
      exact List.forall₂_same.2 fun item hitem ↦ (ih item hitem).declaration
  | object members ih =>
      refine ⟨typesAlike_described ih, declarationAlike_object (membersAlike_listed ih),
        fun naming hnaming ↦ ?_⟩
      show List.Forall₂ DeclarationAlike (members.map _) (listedEntries naming members)
      rw [listedEntries_eq_map]
      exact forall₂_map_map fun member hmember ↦
        declarationAlike_entry (ih member hmember) hnaming member.1

/-! ## Lists are all that is left -/

/-- What is listed is written in lists, in every role. -/
structure WrittenInLists (raw : Json) : Prop where
  type : ListedType (listedType raw)
  declaration : ListedDeclaration (listedDeclaration raw)
  declarations : ∀ naming, naming ≠ "type" → ListedDeclarations (listedDeclarations naming raw)

/-- The type of an input or a field is written in lists. -/
theorem listedType_of_mem {members : Entries Json} (h : ∀ member ∈ members, WrittenInLists member.2)
    {value : Json} (hvalue : ("type", value) ∈ listedMembers members) : ListedType value := by
  rw [listedMembers_eq_map] at hvalue
  obtain ⟨member, hmember, heq⟩ := List.mem_map.1 hvalue
  obtain ⟨hkey, rfl⟩ := Prod.mk.inj heq
  rw [if_pos hkey]
  exact (h member hmember).type

/-- The item for an entry is written in lists when its type is. -/
theorem listedDeclaration_entryItem {naming : String} (hnaming : naming ≠ "type") (key : String) {value : Json}
    (h : ∀ type, ("type", type) ∈ value.members?.getD [("type", value)] → ListedType type) :
    ListedDeclaration (entryItem naming key value) := by
  refine .object fun type htype ↦ h type ?_
  split at htype
  · exact htype
  · rcases List.mem_append.1 htype with htype | htype
    · exact htype
    · obtain ⟨hkey, -⟩ := Prod.mk.inj (List.mem_singleton.1 htype)
      exact absurd hkey.symm hnaming

/-- The members of a type are written in lists where they are read. -/
theorem listedType_described {members : Entries Json} (h : ∀ member ∈ members, WrittenInLists member.2) :
    ListedType (listedType (.object members)) := by
  have hkind : Entries.string? (listedTypeMembers (members.string? "type") members) "type" =
      members.string? "type" := by
    unfold Entries.string?
    rw [lookup_listedTypeMembers, listedMember_of_ne (by decide) (by decide), Option.map_id_apply]
  have hlisted {key : String} {value : Json}
      (hvalue : (key, value) ∈ listedTypeMembers (members.string? "type") members) :
      ∃ raw, WrittenInLists raw ∧ value = listedMember (members.string? "type") key raw := by
    rw [listedTypeMembers_eq_map] at hvalue
    obtain ⟨member, hmember, heq⟩ := List.mem_map.1 hvalue
    obtain ⟨rfl, rfl⟩ := Prod.mk.inj heq
    exact ⟨member.2, h member hmember, rfl⟩
  rw [listedType]
  refine .object (fun harray value hvalue ↦ ?_) fun hrecord value hvalue ↦ ?_
  · obtain ⟨raw, hraw, rfl⟩ := hlisted hvalue
    rw [listedMember_items, if_pos (hkind ▸ harray)]
    exact hraw.type
  · obtain ⟨raw, hraw, rfl⟩ := hlisted hvalue
    rw [listedMember_fields, if_pos (hkind ▸ hrecord)]
    exact hraw.declarations "name" (by decide)

/-- The type of an entry is written in lists, which may be the whole entry. -/
theorem listedType_entry {value type : Json} (h : WrittenInLists value)
    (htype : let listed := if value.members?.isSome then listedDeclaration value else listedType value
      ("type", type) ∈ listed.members?.getD [("type", listed)]) : ListedType type := by
  cases value with
  | object members =>
      cases h.declaration with
      | object hmembers => exact hmembers type htype
      | other hnone => cases hnone
  | null | bool | number | string | array =>
      obtain ⟨-, rfl⟩ := Prod.mk.inj (List.mem_singleton.1 htype)
      exact h.type

/-- Every value is written in lists when it is listed. -/
theorem writtenInLists (raw : Json) : WrittenInLists raw := by
  induction raw using Json.induction with
  | null | bool | number | string => exact ⟨.other rfl nofun, .other rfl, fun _ _ ↦ .other rfl nofun⟩
  | array items ih =>
      refine ⟨?_, .other rfl, fun naming _ ↦ ?_⟩
      · rw [listedType, listedUnion_eq_map]
        exact .union (List.forall_mem_map.2 fun item hitem ↦ (ih item hitem).type)
      · rw [listedDeclarations, listedItems_eq_map]
        exact .array (List.forall_mem_map.2 fun item hitem ↦ (ih item hitem).declaration)
  | object members ih =>
      refine ⟨listedType_described ih, .object fun _ ↦ listedType_of_mem ih, fun naming hnaming ↦ ?_⟩
      rw [listedDeclarations, listedEntries_eq_map]
      exact .array (List.forall_mem_map.2 fun member hmember ↦
        listedDeclaration_entryItem hnaming _ fun _ ↦ listedType_entry (ih member hmember))

/-! ## Documents -/

/-- The inputs are read alike in a list. -/
theorem readInputs_listed (version : DocumentVersion) (raw : Option Json) :
    readItems (readInput version) (child root "inputs") 0
        (listForm "id" "type" (raw.map (listedDeclarations "id"))) =
      readItems (readInput version) (child root "inputs") 0 (listForm "id" "type" raw) := by
  cases raw with
  | none => rfl
  | some raw =>
      exact (readItems_alike (fun place _ _ hinput ↦ readInput_alike hinput version place)
        ((listedAlike raw).declarations "id" (by decide)) _).symm

/-- A document that has its inputs, and the fields of every record at any depth of unions, arrays and records,
written in lists instead of objects is read as the same tool, or has the same fault. -/
theorem readTool_listed (document : Json) :
    ListedTool (listed document) ∧ readTool (listed document) = readTool document := by
  cases document with
  | object members =>
      have hlookup (key : String) : List.lookup key (members.map fun member ↦
          (member.1, if member.1 = "inputs" then listedDeclarations "id" member.2 else member.2)) =
          (members.lookup key).map fun value ↦
            if key = "inputs" then listedDeclarations "id" value else value :=
        Entries.lookup_map (fun key value ↦ if key = "inputs" then listedDeclarations "id" value else value)
          members key
      rw [listed]
      refine ⟨.object fun value hvalue ↦ ?_, readTool_congr (fun key hkey ↦ ?_) fun version ↦ ?_⟩
      · obtain ⟨member, -, heq⟩ := List.mem_map.1 hvalue
        obtain ⟨hkey, rfl⟩ := Prod.mk.inj heq
        rw [if_pos hkey]
        exact (writtenInLists member.2).declarations "id" (by decide)
      · rw [hlookup]
        simp [hkey]
      · rw [hlookup]
        exact readInputs_listed version (members.lookup "inputs")
  | null | bool | number | string | array => exact ⟨.other rfl, rfl⟩

/-- The fields of a record in a union, one of them a type alone and one with a name that is no text. -/
example :
    listedType (.array [.string "null", .object [("type", .string "record"), ("fields", .object
      [("reads", .string "File"), ("mode", .object [("name", .null), ("type", .string "int")])])]]) =
    .array [.string "null", .object [("type", .string "record"), ("fields", .array
      [.object [("type", .string "File"), ("name", .string "reads")],
        .object [("name", .null), ("type", .string "int")]])]] :=
  rfl

end Invocation.Document
