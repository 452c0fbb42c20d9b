import Invocation.Proofs.Document.DraftTool
import Invocation.Proofs.Document.TypeNames

/-!
# Spellings of types

A type that stands at a member of its own, as the type of an input or a field or as the items of an array, can
be written in several ways.  `Spells` has the ways to write a type with a name, and `Respells` rewrites one of
them somewhere in a document, at any depth.  A document is read as the same tool, or has the same fault,
however often its types are rewritten (`RespellsTool.readTool_eq`).
-/

namespace Invocation.Document

/-! ## Rewriting -/

/-- Two ways to write a type by a name. -/
inductive Spells : Json → Json → Prop where
  | nullFirst {name : String} : name ≠ "null" →
      Spells (.string (name ++ "?")) (.array [.string "null", .string name])
  | nullLast {name : String} : name ≠ "null" →
      Spells (.string (name ++ "?")) (.array [.string name, .string "null"])
  | alone {name : String} : name ≠ "null" → Spells (.string name) (.array [.string name])
  | array (name : String) :
      Spells (.string (name ++ "[]")) (.object [("type", .string "array"), ("items", .string name)])
  | arrayOf (name : String) :
      Spells (.string (name ++ "[]")) (.object [("items", .string name), ("type", .string "array")])

/-- The members of two objects that differ in the value at one key. -/
inductive Replaces (key : String) (raw other : Json) : Entries Json → Entries Json → Prop where
  | intro (before after : Entries Json) : (∀ member ∈ before, member.1 ≠ key) →
      Replaces key raw other (before ++ (key, raw) :: after) (before ++ (key, other) :: after)

/-- What a value in a document is. -/
inductive Role where
  /-- The type of an input or a field, or the items of an array. -/
  | written
  /-- A type, also as an alternative of a union or in the place of an input or a field. -/
  | type
  /-- The inputs of a tool or the fields of a record. -/
  | declarations
  /-- An input or a field. -/
  | declaration
  /-- An input or a field under its name, which may be its type alone. -/
  | entry

/-- `Respells role raw other` says that one type inside of a value is written in another way, where the role of
the value says which types inside of it can be. -/
inductive Respells : Role → Json → Json → Prop where
  | spelling {raw other : Json} : Spells raw other → Respells .written raw other
  | inside {raw other : Json} : Respells .type raw other → Respells .written raw other
  | alternative (before after : List Json) {raw other : Json} : Respells .type raw other →
      Respells .type (.array (before ++ raw :: after)) (.array (before ++ other :: after))
  -- Only arrays have items and only records have fields; elsewhere such members are not read at all.
  | items {raw other : Json} {members others : Entries Json} : Replaces "items" raw other members others →
      Respells .written raw other → Respells .type (.object members) (.object others)
  | fields {raw other : Json} {members others : Entries Json} : Replaces "fields" raw other members others →
      Respells .declarations raw other → Respells .type (.object members) (.object others)
  | item (before after : List Json) {raw other : Json} : Respells .declaration raw other →
      Respells .declarations (.array (before ++ raw :: after)) (.array (before ++ other :: after))
  | named (before after : Entries Json) (name : String) {raw other : Json} : Respells .entry raw other →
      Respells .declarations (.object (before ++ (name, raw) :: after))
        (.object (before ++ (name, other) :: after))
  | declared {raw other : Json} {members others : Entries Json} : Replaces "type" raw other members others →
      Respells .written raw other → Respells .declaration (.object members) (.object others)
  | entry {raw other : Json} : Respells .declaration raw other → Respells .entry raw other
  | short {raw other : Json} : raw.members? = none → Respells .type raw other → Respells .entry raw other

/-- One type in the inputs of a tool is written in another way. -/
inductive RespellsTool : Json → Json → Prop where
  | inputs {raw other : Json} {members others : Entries Json} : Replaces "inputs" raw other members others →
      Respells .declarations raw other → RespellsTool (.object members) (.object others)

/-! ## Members -/

namespace Replaces

variable {key : String} {raw other : Json} {members others : Entries Json}

/-- The value at the key is another one. -/
theorem lookup_self (h : Replaces key raw other members others) :
    members.lookup key = some raw ∧ others.lookup key = some other := by
  obtain ⟨before, after, hbefore⟩ := h
  have hnone : List.lookup key before = none :=
    List.lookup_eq_none_iff.2 fun member hmem ↦ bne_iff_ne.2 (hbefore member hmem).symm
  simp [List.lookup_append, hnone]

/-- The values at other keys stay. -/
theorem lookup_of_ne (h : Replaces key raw other members others) {found : String} (hne : found ≠ key) :
    members.lookup found = others.lookup found := by
  obtain ⟨before, after, -⟩ := h
  have hskip (value : Json) : List.lookup found ((key, value) :: after) = List.lookup found after :=
    Entries.lookup_cons_of_ne (Ne.symm hne) after
  rw [List.lookup_append, List.lookup_append, hskip, hskip]

end Replaces

/-! ## Fields one by one -/

/-- Reads a field of a list. -/
def readField (version : DocumentVersion) (place : String) (raw : Json) : Reading Input :=
  match raw.members? with
  | none => .error ⟨place, .fieldNotObject⟩
  | some members =>
    readFieldMembers version place members (readTypeAt version (child place "type") "type" members)

/-- The fields of a list are read one by one. -/
theorem readFieldItems_eq (version : DocumentVersion) (location : String) (index : Nat) (items : List Json) :
    readFieldItems version location index items = readItems (readField version) location index items := by
  induction items generalizing index with
  | nil => rfl
  | cons item rest ih =>
      unfold readFieldItems readItems readField
      rw [ih]
      cases item <;> rfl

/-- The members of an entry are its own, but for the name. -/
theorem lookup_entryMembers {naming shorthand key : String} (h : key ≠ naming) (name : String)
    (value : Json) :
    (entryMembers naming shorthand name value).lookup key =
      (value.members?.getD [(shorthand, value)]).lookup key := by
  rw [entryMembers, lookup_addMissing, if_neg h]

/-- The type of an entry is that of its value, or the value itself. -/
theorem readTypeAt_entryMembers (version : DocumentVersion) (place name : String) (value : Json) :
    readTypeAt version place "type" (entryMembers "name" "type" name value) =
      match value.members? with
      | none => readType version place value
      | some _ => readOwnType version place value := by
  rw [readTypeAt_eq, lookup_entryMembers (by decide)]
  cases value with
  | object members => exact (readTypeAt_eq version place "type" members).symm
  | null | bool | number | string | array => rfl

/-- The fields of an object are read one by one. -/
theorem readFieldEntries_eq (version : DocumentVersion) (location : String) (index : Nat)
    (members : Entries Json) :
    readFieldEntries version location index members =
      readItems (readField version) location index
        (members.map fun member ↦ .object (entryMembers "name" "type" member.1 member.2)) := by
  induction members generalizing index with
  | nil => rfl
  | cons member rest ih =>
      rw [List.map_cons, readFieldEntries, readItems, ih]
      dsimp only [readField, Json.members?]
      rw [readTypeAt_entryMembers]
      rfl

/-- The fields of a record are read one by one, in a list or under their names. -/
theorem readFields_eq (version : DocumentVersion) (location : String) (raw : Json) :
    readFields version location raw =
      readItems (readField version) location 0 (listForm "name" "type" (some raw)) := by
  cases raw with
  | array items => exact readFieldItems_eq version location 0 items
  | object members => exact readFieldEntries_eq version location 0 members
  | null | bool | number | string => rfl

/-! ## What is read alike -/

/-- The types are read alike, and bind a field alike. -/
structure TypesAlike (raw other : Json) : Prop where
  read (version : DocumentVersion) (place : String) : readType version place raw = readType version place other
  inputBinding : raw.get? "inputBinding" = other.get? "inputBinding"

/-- The members of two declarations differ in their types only, which are read alike. -/
structure MembersAlike (members others : Entries Json) : Prop where
  type : Option.Rel TypesAlike (members.lookup "type") (others.lookup "type")
  rest {key : String} : key ≠ "type" → members.lookup key = others.lookup key

/-- Neither declaration is an object, or their members differ in their types only. -/
def DeclarationAlike (raw other : Json) : Prop :=
  Option.Rel MembersAlike raw.members? other.members?

theorem TypesAlike.refl (raw : Json) : TypesAlike raw raw :=
  ⟨fun _ _ ↦ rfl, rfl⟩

theorem TypesAlike.rel_refl (raw : Option Json) : Option.Rel TypesAlike raw raw := by
  cases raw with
  | none => exact .none
  | some raw => exact .some (.refl raw)

theorem MembersAlike.refl (members : Entries Json) : MembersAlike members members :=
  ⟨TypesAlike.rel_refl _, fun _ ↦ rfl⟩

theorem DeclarationAlike.refl (raw : Json) : DeclarationAlike raw raw := by
  unfold DeclarationAlike
  cases raw.members? with
  | none => exact .none
  | some members => exact .some (.refl members)

/-- Objects are alike when their members are. -/
theorem declarationAlike_object {members others : Entries Json} (h : MembersAlike members others) :
    DeclarationAlike (.object members) (.object others) :=
  .some h

/-- Types at a member are read alike when their values are. -/
theorem readTypeAt_alike {members others : Entries Json} {key : String}
    (h : Option.Rel TypesAlike (members.lookup key) (others.lookup key)) (version : DocumentVersion)
    (place : String) : readTypeAt version place key members = readTypeAt version place key others := by
  rw [readTypeAt_eq, readTypeAt_eq]
  rcases rel_iff.1 h with ⟨hraw, hother⟩ | ⟨raw, other, hraw, hother, h⟩
  · rw [hraw, hother]
  · rw [hraw, hother]
    exact h.read version place

/-- What binds a field is the same. -/
theorem MembersAlike.fieldBinding?_eq {members others : Entries Json} (h : MembersAlike members others) :
    fieldBinding? members = fieldBinding? others := by
  unfold fieldBinding?
  rw [h.rest (by decide)]
  rcases rel_iff.1 h.type with ⟨hraw, hother⟩ | ⟨raw, other, hraw, hother, htype⟩
  · rw [hraw, hother]
  · rw [hraw, hother]
    exact congrArg _ htype.inputBinding

/-- Fields are read alike. -/
theorem readField_alike {raw other : Json} (h : DeclarationAlike raw other) (version : DocumentVersion)
    (place : String) : readField version place raw = readField version place other := by
  unfold readField
  rcases rel_iff.1 h with ⟨hraw, hother⟩ | ⟨members, others, hraw, hother, h⟩
  · rw [hraw, hother]
  · rw [hraw, hother]
    dsimp only
    unfold readFieldMembers fieldName?
    rw [h.rest (by decide), h.rest (by decide), h.fieldBinding?_eq, readTypeAt_alike h.type]

/-- Inputs are read alike. -/
theorem readInput_alike {raw other : Json} (h : DeclarationAlike raw other) (version : DocumentVersion)
    (place : String) : readInput version place raw = readInput version place other := by
  unfold readInput
  rcases rel_iff.1 h with ⟨hraw, hother⟩ | ⟨members, others, hraw, hother, h⟩
  · rw [hraw, hother]
  · rw [hraw, hother]
    dsimp only
    have hbinding : members.lookup "inputBinding" = others.lookup "inputBinding" := h.rest (by decide)
    have hdefault : members.lookup "default" = others.lookup "default" := h.rest (by decide)
    rw [string?_congr (h.rest (by decide)), readTypeAt_alike h.type, hbinding, hdefault]

/-! ## Types that are read alike -/

/-- The alternatives of a union are read one by one, without null. -/
theorem readAlternatives_eq (version : DocumentVersion) (place : String) (union : List Json) :
    readAlternatives version place union =
      (union.filter fun item ↦ !item.isString "null").map (readType version place) := by
  induction union with
  | nil => rfl
  | cons item rest ih =>
      rw [readAlternatives, ih, List.filter_cons]
      cases item.isString "null" <;> rfl

/-- A union with one alternative other than null is its type, and admits null like the union or the type. -/
theorem readType_union (name : String) {union : List Json}
    (hunion : union.filter (fun item ↦ !item.isString "null") = [.string name]) (version : DocumentVersion)
    (place : String) :
    readType version place (.array union) =
      .ok ((namedType name).1, union.any (Json.isString "null") || (namedType name).2) := by
  rw [readType, readAlternatives_eq, hunion, List.map_singleton, readType]
  rfl

/-- The ways to write a type by a name are read alike. -/
theorem Spells.typesAlike {raw other : Json} (h : Spells raw other) : TypesAlike raw other := by
  have hplain {name : String} (h : name ≠ "null") : (Json.string name).isString "null" = false :=
    beq_false_of_ne h
  have hnull : (Json.string "null").isString "null" = true := rfl
  refine ⟨fun version place ↦ ?_, ?_⟩
  · cases h with
    | @nullFirst name h =>
        rw [readType, namedType_optional, readType_union name (by simp [hplain h, hnull])]
        simp [hnull]
    | @nullLast name h =>
        rw [readType, namedType_optional, readType_union name (by simp [hplain h, hnull])]
        simp [hnull]
    | @alone name h =>
        rw [readType, readType_union name (by simp [hplain h])]
        simp [hplain h]
    | array name | arrayOf name =>
        rw [readType, namedType_list, ← arrayType_none]
        rfl
  · cases h <;> rfl

/-- Unions with one alternative written in another way are read alike. -/
theorem TypesAlike.union {raw other : Json} (h : TypesAlike raw other)
    (hnull : raw.isString "null" = other.isString "null") (before after : List Json) :
    TypesAlike (.array (before ++ raw :: after)) (.array (before ++ other :: after)) := by
  refine ⟨fun version place ↦ ?_, rfl⟩
  unfold readType
  simp only [readAlternatives_eq, List.any_append, List.any_cons, List.filter_append, List.filter_cons,
    hnull, List.map_append]
  split
  · rw [List.map_cons, List.map_cons, h.read]
  · rfl

/-- Objects that describe types are read alike when their items and their fields are. -/
theorem typesAlike_object {members others : Entries Json}
    (hrest : ∀ key, key ≠ "items" → key ≠ "fields" → members.lookup key = others.lookup key)
    (hitems : Option.Rel TypesAlike (members.lookup "items") (others.lookup "items"))
    (hfields : ∀ version place, readFieldsAt version place members = readFieldsAt version place others) :
    TypesAlike (.object members) (.object others) := by
  have htype : members.lookup "type" = others.lookup "type" := hrest _ (by decide) (by decide)
  have hbinding : members.lookup "inputBinding" = others.lookup "inputBinding" :=
    hrest _ (by decide) (by decide)
  have hsymbols : members.lookup "symbols" = others.lookup "symbols" := hrest _ (by decide) (by decide)
  refine ⟨fun version place ↦ ?_, hbinding⟩
  unfold readType readTypeMembers readEnum
  rw [readTypeAt_alike hitems, hfields, hbinding, hsymbols, string?_congr htype]

/-! ## Documents that are read alike -/

/-- Declarations under a name are alike when they are without it. -/
theorem MembersAlike.addMissing {members others : Entries Json} (h : MembersAlike members others)
    {naming : String} (hnaming : naming ≠ "type") (name : Json) :
    MembersAlike (Document.addMissing naming name members) (Document.addMissing naming name others) where
  type := by
    rw [lookup_addMissing, lookup_addMissing, if_neg hnaming.symm, if_neg hnaming.symm]
    exact h.type
  rest {key} hkey := by
    rw [lookup_addMissing, lookup_addMissing, h.rest hnaming, h.rest hkey]

/-- How two values with a role are alike. -/
def Agree : Role → Json → Json → Prop
  | .written, raw, other => TypesAlike raw other
  | .type, raw, other => TypesAlike raw other
  | .declarations, raw, other => ∀ naming, naming ≠ "type" →
    List.Forall₂ DeclarationAlike (listForm naming "type" (some raw)) (listForm naming "type" (some other))
  | .declaration, raw, other => DeclarationAlike raw other
  | .entry, raw, other => ∀ naming name, naming ≠ "type" →
    MembersAlike (entryMembers naming "type" name raw) (entryMembers naming "type" name other)

/-- Declarations are alike when one of them is written in another way. -/
theorem forall₂_declarations {raw other : Json} (h : DeclarationAlike raw other) (before after : List Json) :
    List.Forall₂ DeclarationAlike (before ++ raw :: after) (before ++ other :: after) :=
  List.rel_append (List.forall₂_same.2 fun item _ ↦ .refl item)
    (.cons h (List.forall₂_same.2 fun item _ ↦ .refl item))

/-- Declarations are read alike one by one. -/
theorem readItems_alike {α : Type} {read : String → Json → Reading α}
    (hread : ∀ place raw other, DeclarationAlike raw other → read place raw = read place other)
    {items others : List Json} (h : List.Forall₂ DeclarationAlike items others) (location : String) :
    readItems read location 0 items = readItems read location 0 others :=
  (readItems_congr (fun raw other hitem place ↦ (hread place raw other hitem).symm) h location 0).symm

/-- Fields that are alike are read alike. -/
theorem readFields_alike {raw other : Json}
    (h : List.Forall₂ DeclarationAlike (listForm "name" "type" (some raw))
      (listForm "name" "type" (some other)))
    (version : DocumentVersion) (location : String) :
    readFields version location raw = readFields version location other := by
  rw [readFields_eq, readFields_eq]
  exact readItems_alike (fun place _ _ hfield ↦ readField_alike hfield version place) h location

/-- A type that has others inside of it is a union or an object. -/
theorem Respells.shape {raw other : Json} (h : Respells .type raw other) :
    raw.isString "null" = other.isString "null" ∧ (raw.members? = none → other.members? = none) := by
  cases h with
  | alternative => exact ⟨rfl, fun _ ↦ rfl⟩
  | items | fields => exact ⟨rfl, nofun⟩

/-- Values are alike when a type inside of them is written in another way. -/
theorem Respells.agree {role : Role} {raw other : Json} (h : Respells role raw other) :
    Agree role raw other := by
  induction h with
  | spelling h => exact h.typesAlike
  | inside _ ih => exact ih
  | alternative before after h ih => exact TypesAlike.union ih h.shape.1 before after
  | items hreplaces _ ih =>
      obtain ⟨hraw, hother⟩ := hreplaces.lookup_self
      refine typesAlike_object (fun key hkey _ ↦ hreplaces.lookup_of_ne hkey) ?_ fun version place ↦ ?_
      · rw [hraw, hother]
        exact .some ih
      · rw [readFieldsAt_eq, readFieldsAt_eq, hreplaces.lookup_of_ne (by decide)]
  | fields hreplaces _ ih =>
      obtain ⟨hraw, hother⟩ := hreplaces.lookup_self
      refine typesAlike_object (fun key _ hkey ↦ hreplaces.lookup_of_ne hkey) ?_ fun version place ↦ ?_
      · rw [hreplaces.lookup_of_ne (by decide)]
        exact TypesAlike.rel_refl _
      · rw [readFieldsAt_eq, readFieldsAt_eq, hraw, hother]
        exact readFields_alike (ih "name" (by decide)) version place
  | item before after _ ih => exact fun _ _ ↦ forall₂_declarations ih before after
  | named before after name _ ih =>
      intro naming hnaming
      rw [listForm, listForm, List.map_append, List.map_append, List.map_cons, List.map_cons]
      exact forall₂_declarations (declarationAlike_object (ih naming name hnaming)) _ _
  | declared hreplaces _ ih =>
      obtain ⟨hraw, hother⟩ := hreplaces.lookup_self
      refine .some ⟨?_, fun hkey ↦ hreplaces.lookup_of_ne hkey⟩
      rw [hraw, hother]
      exact .some ih
  | entry h ih =>
      intro naming name hnaming
      cases h with
      | declared =>
          obtain ⟨h⟩ := ih
          exact h.addMissing hnaming _
  | @short raw other hnone h ih =>
      intro naming name hnaming
      unfold entryMembers
      rw [hnone, h.shape.2 hnone]
      have htype : TypesAlike raw other := ih
      refine MembersAlike.addMissing ⟨by simpa using htype, fun {key} hkey ↦ ?_⟩ hnaming _
      have hempty (value : Json) : List.lookup key [("type", value)] = none :=
        Entries.lookup_cons_of_ne (Ne.symm hkey : ("type", value).1 ≠ key) []
      rw [Option.getD_none, Option.getD_none, hempty, hempty]

/-- Tools whose members differ in their inputs only are read alike when the inputs are. -/
theorem readTool_congr {members others : Entries Json}
    (hrest : ∀ key, key ≠ "inputs" → members.lookup key = others.lookup key)
    (hinputs : ∀ version,
      readItems (readInput version) (child root "inputs") 0 (listForm "id" "type" (members.lookup "inputs")) =
        readItems (readInput version) (child root "inputs") 0
          (listForm "id" "type" (others.lookup "inputs"))) :
    readTool (.object members) = readTool (.object others) := by
  have hversion : readVersion members = readVersion others := by
    unfold readVersion
    rw [string?_congr (hrest _ (by decide))]
  have harguments (version : DocumentVersion) :
      readArguments version members = readArguments version others := by
    unfold readArguments
    rw [hrest _ (by decide)]
  have hstream (version : DocumentVersion) (kind : StreamKind) :
      readStream version kind members = readStream version kind others := by
    unfold readStream
    rw [hrest _ (by cases kind <;> decide)]
  have hid : members.string? "id" = others.string? "id" := string?_congr (hrest _ (by decide))
  unfold readTool
  simp only [Json.members?, hversion, readBaseCommand_congr (hrest _ (by decide)), hinputs, harguments,
    hstream, hid]

/-- A document in which one type is written in another way is read as the same tool, or has the same fault. -/
theorem RespellsTool.readTool_eq {document rewritten : Json} (h : RespellsTool document rewritten) :
    readTool document = readTool rewritten := by
  obtain @⟨raw, other, members, others, hreplaces, hrespells⟩ := h
  obtain ⟨hraw, hother⟩ := hreplaces.lookup_self
  refine readTool_congr (fun _ ↦ hreplaces.lookup_of_ne) fun version ↦ ?_
  rw [hraw, hother]
  exact readItems_alike (fun place _ _ hinput ↦ readInput_alike hinput version place)
    (hrespells.agree "id" (by decide)) _

/-- The ways to write a type agree.  A name with suffixes means as many arrays inside of each other as it has
brackets, around the type of the name without suffixes, and admits null exactly when its last suffix is a
question mark.  And a document is read as the same tool, or has the same fault, when any of its types that stand
at a member of their own are written in other ways, at any depth of arrays, unions and records. -/
theorem spellings_agree :
    (∀ (version : DocumentVersion) (place base : String) (suffixes : List TypeSuffix),
      (∀ suffix : TypeSuffix, ¬suffix.text.toList <:+ base.toList) →
      readType version place (.string base) = .ok (typeOfName base, false) ∧
      readType version place (.string (base ++ String.join (suffixes.map TypeSuffix.text))) =
        .ok (.nested (suffixes.count .list) (typeOfName base), suffixes.getLast? == some .optional)) ∧
    ∀ raw other, Relation.EqvGen RespellsTool raw other → readTool raw = readTool other := by
  refine ⟨fun version place base suffixes hbase ↦ ⟨?_, ?_⟩, fun raw other h ↦ ?_⟩
  · rw [readType, namedType_base hbase]
  · rw [readType, namedType_suffixes hbase]
  · induction h with
    | rel _ _ h => exact h.readTool_eq
    | refl => rfl
    | symm _ _ _ ih => exact ih.symm
    | trans _ _ _ _ _ ih ih' => exact ih.trans ih'

/-- A tool with the type of a field in a record, and that of the items of a list that may be missing. -/
def mapperDocument (reads seeds : Json) : Json :=
  .object [("baseCommand", .string "map"), ("inputs", .object
    [("sample", .object
      [("type", .object [("type", .string "record"),
        ("fields", .array [.object [("name", .string "reads"), ("type", reads)]])]),
      ("inputBinding", .object [])]),
    ("seeds", .array [.string "null", .object [("type", .string "array"), ("items", seeds)]])])]

/-- Two types of this tool in other ways, and a name with three suffixes. -/
theorem spellings_agree_mapperDocument :
    readType .v1 "type" (.string "File[][]?") = .ok (.nested 2 (.primitive .file), true) ∧
    ∃ tool, readTool (mapperDocument (.string "File[]") (.string "int?")) = .ok tool ∧
      readTool (mapperDocument (.object [("type", .string "array"), ("items", .string "File")])
        (.array [.string "null", .string "int"])) = .ok tool := by
  obtain ⟨hnames, hdocuments⟩ := spellings_agree
  have hbase (suffix : TypeSuffix) : ¬suffix.text.toList <:+ "File".toList := by
    cases suffix <;> decide
  have hreads (raw other seeds : Json) (h : Spells raw other) :
      RespellsTool (mapperDocument raw seeds) (mapperDocument other seeds) := by
    refine .inputs (.intro [_] [] (by simp))
      (.named [] [_] "sample" (.entry (.declared (.intro [] [_] nofun) ?_)))
    exact .inside (.fields (.intro [_] [] (by simp)) (.item [] []
      (.declared (.intro [_] [] (by simp)) (.spelling h))))
  have hseeds (reads raw other : Json) (h : Spells raw other) :
      RespellsTool (mapperDocument reads raw) (mapperDocument reads other) := by
    refine .inputs (.intro [_] [] (by simp)) (.named [_] [] "seeds" (.short rfl ?_))
    exact .alternative [_] [] (.items (.intro [_] [] (by simp)) (.spelling h))
  have hrespelled : Relation.EqvGen RespellsTool (mapperDocument (.string "File[]") (.string "int?"))
      (mapperDocument (.object [("type", .string "array"), ("items", .string "File")])
        (.array [.string "null", .string "int"])) :=
    .trans _ _ _ (.rel _ _ (hreads _ _ _ (.array "File")))
      (.rel _ _ (hseeds _ _ _ (.nullFirst (by decide : "int" ≠ "null"))))
  obtain ⟨tool, htool⟩ : ∃ tool, readTool (mapperDocument (.string "File[]") (.string "int?")) = .ok tool :=
    ⟨_, rfl⟩
  refine ⟨(hnames .v1 "type" "File" [.list, .list, .optional] hbase).2, tool, htool, ?_⟩
  exact (hdocuments _ _ hrespelled).symm.trans htool

end Invocation.Document
