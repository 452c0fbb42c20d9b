import Invocation.Job.Value
import Invocation.Proofs.Document.Reading
import Invocation.Proofs.Json.Members

/-!
# Decoding and encoding job values

A job value keeps all that its JSON value says, up to the order of members: only a path or a location that
is no string is left out of an object that denotes a file or a directory (`Json.kept`).  What is encoded is
decoded to the same value again, so nothing more is lost however often a value is passed on.
-/

namespace Invocation

namespace JobValue

/-- The values are equal up to the order of entries. -/
inductive Same : JobValue → JobValue → Prop where
  | refl (value : JobValue) : Same value value
  | list {items others : List JobValue} : List.Forall₂ Same items others → Same (.list items) (.list others)
  | mapping {entries others : Entries JobValue} :
      Entries.Alike Same entries others → Same (.mapping entries) (.mapping others)
  | file (kind : FileClass) (path location : Option String) {extra others : Entries JobValue} :
      Entries.Alike Same extra others → Same (.file kind path location extra) (.file kind path location others)

/-! ## Items and members -/

theorem itemsOfJson_eq_map (items : List Json) : itemsOfJson items = items.map ofJson := by
  induction items with
  | nil => rfl
  | cons item rest ih => rw [itemsOfJson, ih, List.map_cons]

theorem entriesOfJson_eq_mapValues (members : Entries Json) :
    entriesOfJson members = members.mapValues ofJson := by
  induction members with
  | nil => rfl
  | cons member rest ih => rw [entriesOfJson, ih]; rfl

theorem itemsToJson_eq_map (items : List JobValue) : itemsToJson items = items.map toJson := by
  induction items with
  | nil => rfl
  | cons item rest ih => rw [itemsToJson, ih, List.map_cons]

theorem entriesToJson_eq_mapValues (entries : Entries JobValue) :
    entriesToJson entries = entries.mapValues toJson := by
  induction entries with
  | nil => rfl
  | cons entry rest ih => rw [entriesToJson, ih]; rfl

end JobValue

namespace Json

/-! ## What is kept -/

/-- A member of a file reference that is kept: a path or a location has to be a string. -/
def isKeptMember (member : String × Json) : Bool :=
  (member.1 != "path" && member.1 != "location") || member.2.string?.isSome

mutual

/-- What a job keeps of a value: an object that denotes a file or a directory loses a path or a location
that is no string. -/
def kept : Json → Json
  | .array items => .array (keptItems items)
  | .object members =>
    if (JobValue.fileClassOf? members).isSome then
      .object ((keptMembers members).filter isKeptMember)
    else .object (keptMembers members)
  | value => value

/-- What is kept of each item. -/
def keptItems : List Json → List Json
  | [] => []
  | item :: rest => kept item :: keptItems rest

/-- The members with what is kept of their values. -/
def keptMembers : List (String × Json) → List (String × Json)
  | [] => []
  | member :: rest => (member.1, kept member.2) :: keptMembers rest

end

theorem keptItems_eq_map (items : List Json) : keptItems items = items.map kept := by
  induction items with
  | nil => rfl
  | cons item rest ih => rw [keptItems, ih, List.map_cons]

theorem keptMembers_eq_mapValues (members : Entries Json) :
    keptMembers members = members.mapValues kept := by
  induction members with
  | nil => rfl
  | cons member rest ih => rw [keptMembers, ih]; rfl

/-- A string is kept, and nothing else becomes one. -/
theorem string?_kept (value : Json) : value.kept.string? = value.string? := by
  cases value with
  | object members =>
      unfold kept
      split <;> rfl
  | _ => rfl

end Json

namespace JobValue

/-- What a value is encoded as after it has been decoded. -/
def reencode (value : Json) : Json :=
  (ofJson value).toJson

/-- A string is decoded and encoded as it is, and nothing else becomes one. -/
theorem string?_reencode (value : Json) : (reencode value).string? = value.string? := by
  cases value with
  | object members =>
      unfold reencode ofJson ofMembers
      cases fileClassOf? members <;> rfl
  | _ => rfl

theorem reencode_array (items : List Json) : reencode (.array items) = .array (items.map reencode) := by
  rw [reencode, ofJson, toJson, itemsOfJson_eq_map, itemsToJson_eq_map, List.map_map]
  rfl

theorem reencode_mapping {members : Entries Json} (h : fileClassOf? members = none) :
    reencode (.object members) = .object (members.mapValues reencode) := by
  rw [reencode, ofJson, ofMembers, h]
  dsimp only
  rw [toJson, entriesOfJson_eq_mapValues, entriesToJson_eq_mapValues, Entries.mapValues_mapValues]
  rfl

/-! ## File references -/

/-- The attributes of a file reference: the members that do not state what it refers to. -/
def isAttribute {α : Type} (entry : String × α) : Bool :=
  entry.1 ≠ "class" ∧ entry.1 ≠ "path" ∧ entry.1 ≠ "location"

/-- Erasing what a file reference refers to leaves its attributes, each of them once. -/
theorem perm_extraEntries {α : Type} {entries : Entries α} (h : entries.keys.Nodup) :
    (extraEntries entries).Perm (entries.filter isAttribute) := by
  have erased (key : String) {rest : Entries α} (hrest : rest.keys.Nodup) :
      (Entries.swapErase key rest).Perm (rest.filter fun entry ↦ entry.1 ≠ key) := by
    rw [← Entries.eraseP_eq_filter hrest]
    exact Entries.perm_swapErase key rest
  have nodup (key : String) {rest : Entries α} (hrest : rest.keys.Nodup) :
      (Entries.keys (Entries.swapErase key rest)).Nodup :=
    (((erased key hrest).map Prod.fst).nodup_iff).2 (Entries.nodup_keys_filter hrest _)
  have hpath := nodup "class" h
  have hlocation := nodup "path" hpath
  refine ((erased "location" hlocation).trans (((erased "path" hpath).filter _).trans
    (((erased "class" h).filter _).filter _))).trans (List.Perm.of_eq ?_)
  rw [List.filter_filter, List.filter_filter]
  refine List.filter_congr fun entry _ ↦ Bool.eq_iff_iff.2 ?_
  simp only [isAttribute, Bool.and_eq_true, decide_eq_true_eq]
  tauto

/-- The attributes of changed values are the changed attributes. -/
theorem filter_isAttribute_mapValues {α β : Type} (f : α → β) (entries : Entries α) :
    (entries.mapValues f).filter isAttribute = Entries.mapValues f (entries.filter isAttribute) := by
  unfold Entries.mapValues
  rw [List.filter_map]
  rfl

/-- What an object refers to depends on the strings among its members alone. -/
theorem fileClassOf?_congr {members others : Entries Json}
    (h : ∀ key, members.string? key = others.string? key) :
    fileClassOf? members = fileClassOf? others := by
  simp only [fileClassOf?, h]

/-- A class has one name. -/
theorem FileClass.ofName?_eq_some_iff {name : String} {kind : FileClass} :
    FileClass.ofName? name = some kind ↔ name = kind.name := by
  unfold FileClass.ofName?
  split_ifs with hfile hdirectory
  · cases kind <;> simp [hfile, FileClass.name]
  · cases kind <;> simp [hdirectory, FileClass.name]
  · cases kind <;> simp [hfile, hdirectory, FileClass.name]

/-- An object denotes a file by its class and by a path or a location. -/
theorem fileClassOf?_eq_some_iff {members : Entries Json} {kind : FileClass} :
    fileClassOf? members = some kind ↔
      members.string? "class" = some kind.name ∧
        ((members.string? "path").isSome ∨ (members.string? "location").isSome) := by
  have hclass : (members.string? "class").bind FileClass.ofName? = some kind ↔
      members.string? "class" = some kind.name := by
    simp [Option.bind_eq_some_iff, FileClass.ofName?_eq_some_iff]
  unfold fileClassOf?
  rw [← hclass, ← Bool.or_eq_true]
  cases (members.string? "class").bind FileClass.ofName? with
  | none => simp
  | some found =>
      by_cases h : ((members.string? "path").isSome || (members.string? "location").isSome) = true
      · simp [h]
      · simp [h]

/-- The members that state what a file reference refers to. -/
theorem mem_fileMembers_iff {kind : FileClass} {path location : Option String} {member : String × Json} :
    member ∈ fileMembers kind path location ↔
      member = ("class", .string kind.name) ∨ (∃ p, path = some p ∧ member = ("path", .string p)) ∨
        ∃ l, location = some l ∧ member = ("location", .string l) := by
  cases path <;> cases location <;> simp [fileMembers]

/-- The keys of a file reference are not repeated when those of its attributes are not. -/
theorem nodup_keys_fileMembers_append (kind : FileClass) (path location : Option String)
    {attributes : Entries Json} (h : attributes.keys.Nodup)
    (hall : ∀ entry ∈ attributes, isAttribute entry = true) :
    (Entries.keys (fileMembers kind path location ++ attributes)).Nodup := by
  have hfront : (Entries.keys (fileMembers kind path location)).Nodup := by
    cases path <;> cases location <;> simp [fileMembers, Entries.keys]
  unfold Entries.keys at *
  rw [List.map_append]
  refine List.nodup_append.2 ⟨hfront, h, ?_⟩
  rintro key hkey other hother rfl
  obtain ⟨entry, hentry, rfl⟩ := List.mem_map.1 hother
  have hattribute := hall entry hentry
  simp only [isAttribute, decide_eq_true_eq] at hattribute
  obtain ⟨member, hmember, hsame⟩ := List.mem_map.1 hkey
  rcases mem_fileMembers_iff.1 hmember with rfl | ⟨p, -, rfl⟩ | ⟨l, -, rfl⟩
  · exact hattribute.1 hsame.symm
  · exact hattribute.2.1 hsame.symm
  · exact hattribute.2.2 hsame.symm

/-- The strings among members whose values were changed, strings into themselves and nothing else into a
string. -/
theorem string?_mapValues {f : Json → Json} (hf : ∀ value, (f value).string? = value.string?)
    (members : Entries Json) (key : String) :
    Entries.string? (members.mapValues f) key = members.string? key := by
  unfold Entries.string?
  rw [Entries.lookup_mapValues]
  cases members.lookup key with
  | none => rfl
  | some value => exact hf value

/-- Where no key is repeated, the strings are the members that are strings. -/
theorem string?_eq_some_iff_mem {members : Entries Json} (h : members.keys.Nodup) {key text : String} :
    members.string? key = some text ↔ (key, .string text) ∈ members := by
  rw [← Entries.lookup_eq_some_iff_mem h]
  simp [Entries.string?, Option.bind_eq_some_iff, Document.string?_eq_some_iff]

/-- The members of a file reference that are kept are those that state what it refers to, and its
attributes. -/
theorem perm_filter_isKeptMember {members : Entries Json} (h : members.keys.Nodup) {kind : FileClass}
    (hkind : fileClassOf? members = some kind) :
    (members.filter Json.isKeptMember).Perm
      (fileMembers kind (members.string? "path") (members.string? "location")
        ++ members.filter isAttribute) := by
  have hright := Entries.nodup_of_keys (nodup_keys_fileMembers_append kind (members.string? "path")
    (members.string? "location") (Entries.nodup_keys_filter h isAttribute)
    fun entry hentry ↦ (List.mem_filter.1 hentry).2)
  have hleft := Entries.nodup_of_keys (Entries.nodup_keys_filter h Json.isKeptMember)
  have hclass : ("class", Json.string kind.name) ∈ members :=
    (string?_eq_some_iff_mem h).1 (fileClassOf?_eq_some_iff.1 hkind).1
  refine (List.perm_ext_iff_of_nodup hleft hright).2 fun member ↦ ?_
  rw [List.mem_append, mem_fileMembers_iff, List.mem_filter, List.mem_filter]
  obtain ⟨key, value⟩ := member
  constructor
  · rintro ⟨hin, hkept⟩
    by_cases hattribute : isAttribute (key, value) = true
    · exact .inr ⟨hin, hattribute⟩
    · have hkey : key = "class" ∨ key = "path" ∨ key = "location" := by
        simp only [isAttribute, decide_eq_true_eq] at hattribute
        tauto
      left
      rcases hkey with rfl | rfl | rfl
      · have hvalue := (Entries.lookup_eq_some_iff_mem h).2 hin
        rw [(Entries.lookup_eq_some_iff_mem h).2 hclass] at hvalue
        exact .inl (by rw [Option.some.inj hvalue])
      · obtain ⟨p, hp⟩ := Option.isSome_iff_exists.1 hkept
        obtain rfl := Document.string?_eq_some_iff.1 hp
        exact .inr (.inl ⟨p, (string?_eq_some_iff_mem h).2 hin, rfl⟩)
      · obtain ⟨l, hl⟩ := Option.isSome_iff_exists.1 hkept
        obtain rfl := Document.string?_eq_some_iff.1 hl
        exact .inr (.inr ⟨l, (string?_eq_some_iff_mem h).2 hin, rfl⟩)
  · rintro ((hmember | ⟨p, hp, hmember⟩ | ⟨l, hl, hmember⟩) | ⟨hin, hattribute⟩)
    · rw [hmember]
      exact ⟨hclass, rfl⟩
    · rw [hmember]
      exact ⟨(string?_eq_some_iff_mem h).1 hp, rfl⟩
    · rw [hmember]
      exact ⟨(string?_eq_some_iff_mem h).1 hl, rfl⟩
    · refine ⟨hin, ?_⟩
      simp only [isAttribute, decide_eq_true_eq] at hattribute
      simp [Json.isKeptMember, hattribute.2.1, hattribute.2.2]

/-- The attributes of a decoded file reference are the decoded attributes of its object, in some order. -/
theorem perm_extraEntries_entriesOfJson {members : Entries Json} (h : members.keys.Nodup) :
    (extraEntries (entriesOfJson members)).Perm
      (Entries.mapValues ofJson (members.filter isAttribute)) := by
  rw [entriesOfJson_eq_mapValues, ← filter_isAttribute_mapValues]
  refine perm_extraEntries ?_
  rwa [Entries.keys_mapValues]

/-- The members of the file reference that an object denotes, when it is encoded. -/
def recoded (kind : FileClass) (members : Entries Json) : Entries Json :=
  fileMembers kind (members.string? "path") (members.string? "location")
    ++ entriesToJson (extraEntries (entriesOfJson members))

variable {members : Entries Json} {kind : FileClass}

theorem reencode_file (h : fileClassOf? members = some kind) :
    reencode (.object members) = .object (recoded kind members) := by
  rw [reencode, ofJson, ofMembers, h]
  dsimp only
  rw [toJson]
  rfl

/-- Encoding a file reference gives the members that are kept, in some order. -/
theorem perm_recoded (h : members.keys.Nodup) (hkind : fileClassOf? members = some kind) :
    (recoded kind members).Perm (Entries.mapValues reencode (members.filter Json.isKeptMember)) := by
  have hstrings : Entries.mapValues reencode
      (fileMembers kind (members.string? "path") (members.string? "location")) =
        fileMembers kind (members.string? "path") (members.string? "location") := by
    cases members.string? "path" <;> cases members.string? "location" <;> rfl
  have hattributes : (entriesToJson (extraEntries (entriesOfJson members))).Perm
      (Entries.mapValues (fun value ↦ (ofJson value).toJson) (members.filter isAttribute)) := by
    rw [entriesToJson_eq_mapValues, ← Entries.mapValues_mapValues ofJson toJson]
    exact (perm_extraEntries_entriesOfJson h).map _
  have hkept := (perm_filter_isKeptMember h hkind).map fun entry ↦ (entry.1, reencode entry.2)
  rw [List.map_append] at hkept
  refine List.Perm.trans ?_ hkept.symm
  refine (hattributes.append_left _).trans (List.Perm.of_eq ?_)
  exact congrArg (· ++ _) hstrings.symm

/-- No key is repeated in an encoded file reference. -/
theorem nodup_keys_recoded (h : members.keys.Nodup) (hkind : fileClassOf? members = some kind) :
    (recoded kind members).keys.Nodup := by
  refine ((perm_recoded h hkind).map Prod.fst).nodup_iff.2 ?_
  show (Entries.keys (Entries.mapValues _ _)).Nodup
  rw [Entries.keys_mapValues]
  exact Entries.nodup_keys_filter h _

/-- An encoded file reference has the strings of its object. -/
theorem string?_recoded (h : members.keys.Nodup) (hkind : fileClassOf? members = some kind)
    (key : String) : (recoded kind members).string? key = members.string? key := by
  refine Option.ext fun text ↦ ?_
  rw [string?_eq_some_iff_mem (nodup_keys_recoded h hkind), string?_eq_some_iff_mem h,
    (perm_recoded h hkind).mem_iff]
  constructor
  · intro hmem
    obtain ⟨member, hmember, hsame⟩ := List.mem_map.1 hmem
    obtain ⟨rfl, hvalue⟩ := Prod.mk.inj hsame
    have htext : member.2.string? = some text := by
      rw [← string?_reencode]
      exact congrArg Json.string? hvalue
    rw [← Document.string?_eq_some_iff.1 htext]
    exact (List.mem_filter.1 hmember).1
  · intro hmem
    refine List.mem_map.2 ⟨_, List.mem_filter.2 ⟨hmem, ?_⟩, rfl⟩
    simp [Json.isKeptMember, Json.string?]

/-- The attributes of an encoded file reference are its encoded attributes. -/
theorem filter_isAttribute_recoded (h : members.keys.Nodup) (kind : FileClass) :
    (recoded kind members).filter isAttribute = entriesToJson (extraEntries (entriesOfJson members)) := by
  have hstated : (fileMembers kind (members.string? "path") (members.string? "location")).filter
      isAttribute = [] := by
    cases members.string? "path" <;> cases members.string? "location" <;> rfl
  unfold recoded
  rw [List.filter_append, hstated, List.nil_append, entriesToJson_eq_mapValues,
    filter_isAttribute_mapValues]
  refine congrArg _ (List.filter_eq_self.2 fun entry hentry ↦ ?_)
  have hmem := (perm_extraEntries_entriesOfJson h).mem_iff.1 hentry
  rw [← filter_isAttribute_mapValues] at hmem
  exact (List.mem_filter.1 hmem).2

/-- An encoded file reference is one of the same class. -/
theorem fileClassOf?_recoded (h : members.keys.Nodup) (hkind : fileClassOf? members = some kind) :
    fileClassOf? (recoded kind members) = some kind := by
  rw [fileClassOf?_congr (string?_recoded h hkind), hkind]

/-- Encoded members refer to what the members do. -/
theorem fileClassOf?_mapValues_reencode (members : Entries Json) :
    fileClassOf? (members.mapValues reencode) = fileClassOf? members :=
  fileClassOf?_congr (string?_mapValues string?_reencode members)

/-! ## Round trips -/

/-- Members that are kept stay members that are kept. -/
theorem filter_isKeptMember_mapValues {f : Json → Json}
    (hf : ∀ value, (f value).string? = value.string?) (members : Entries Json) :
    (members.mapValues f).filter Json.isKeptMember =
      Entries.mapValues f (members.filter Json.isKeptMember) := by
  unfold Entries.mapValues
  rw [List.filter_map]
  refine congrArg _ (List.filter_congr fun member _ ↦ ?_)
  simp [Json.isKeptMember, hf]

/-- Encoding a decoded value gives what is kept of it. -/
theorem same_toJson_ofJson {value : Json} (h : value.HasUniqueKeys) :
    Json.Same (reencode value) value.kept := by
  induction value using Json.induction with
  | array items ih =>
      rw [reencode_array, Json.kept, Json.keptItems_eq_map]
      exact .array (forall₂_map_map fun item hitem ↦ ih item hitem (h.of_mem_items hitem))
  | object members ih =>
      have hvalues : ∀ member ∈ members, Json.Same (reencode member.2) member.2.kept :=
        fun member hmember ↦ ih member hmember (h.of_mem_members hmember)
      rw [Json.kept, Json.keptMembers_eq_mapValues]
      cases hkind : fileClassOf? members with
      | none =>
          rw [reencode_mapping hkind]
          exact .object (Entries.alike_mapValues hvalues)
      | some kind =>
          show Json.Same _ (.object (List.filter _ _))
          rw [reencode_file hkind, filter_isKeptMember_mapValues Json.string?_kept]
          refine .object (.perm (perm_recoded h.nodup hkind) (Entries.alike_mapValues ?_))
          exact fun member hmember ↦ hvalues member (List.mem_filter.1 hmember).1
  | _ => exact .refl _

/-- The attributes of a file reference stay the same when it is encoded and decoded, if their values
do. -/
theorem alike_extraEntries_recoded (h : members.keys.Nodup) (hkind : fileClassOf? members = some kind)
    (hvalues : ∀ member ∈ members, Same (ofJson (reencode member.2)) (ofJson member.2)) :
    Entries.Alike Same (extraEntries (entriesOfJson (recoded kind members)))
      (extraEntries (entriesOfJson members)) := by
  have hperm := perm_extraEntries_entriesOfJson (nodup_keys_recoded h hkind)
  rw [filter_isAttribute_recoded h, entriesToJson_eq_mapValues, Entries.mapValues_mapValues] at hperm
  refine .perm hperm ?_
  have hsame : ∀ entry ∈ extraEntries (entriesOfJson members), Same (ofJson entry.2.toJson) entry.2 := by
    intro entry hentry
    obtain ⟨member, hmember, rfl⟩ :=
      List.mem_map.1 ((perm_extraEntries_entriesOfJson h).mem_iff.1 hentry)
    exact hvalues member (List.mem_filter.1 hmember).1
  have halike : Entries.Alike Same
      (Entries.mapValues (fun value ↦ ofJson value.toJson) (extraEntries (entriesOfJson members)))
      (Entries.mapValues (fun value ↦ value) (extraEntries (entriesOfJson members))) :=
    Entries.alike_mapValues hsame
  rwa [Entries.mapValues_id] at halike

/-- A decoded value that is encoded is decoded to the same value. -/
theorem same_ofJson_toJson_ofJson {value : Json} (h : value.HasUniqueKeys) :
    Same (ofJson (reencode value)) (ofJson value) := by
  induction value using Json.induction with
  | array items ih =>
      rw [reencode_array, ofJson, ofJson, itemsOfJson_eq_map, itemsOfJson_eq_map, List.map_map]
      exact .list (forall₂_map_map fun item hitem ↦ ih item hitem (h.of_mem_items hitem))
  | object members ih =>
      have hvalues : ∀ member ∈ members, Same (ofJson (reencode member.2)) (ofJson member.2) :=
        fun member hmember ↦ ih member hmember (h.of_mem_members hmember)
      cases hkind : fileClassOf? members with
      | none =>
          rw [reencode_mapping hkind, ofJson, ofJson, ofMembers, ofMembers,
            fileClassOf?_mapValues_reencode, hkind, entriesOfJson_eq_mapValues,
            entriesOfJson_eq_mapValues, Entries.mapValues_mapValues]
          exact .mapping (Entries.alike_mapValues hvalues)
      | some kind =>
          have hstrings := string?_recoded h.nodup hkind
          rw [reencode_file hkind, ofJson, ofJson, ofMembers, ofMembers,
            fileClassOf?_recoded h.nodup hkind, hkind, hstrings, hstrings]
          exact .file _ _ _ (alike_extraEntries_recoded h.nodup hkind hvalues)
  | _ => exact .refl _

/-- A job value keeps what its JSON value says.  Encoding it gives what is kept of the value, encoding and
decoding it once more changes nothing, and a file reference has every member of its object but those that
state what it refers to as an attribute, each of them once. -/
theorem decoding_keeps (value : Json) (h : value.HasUniqueKeys) :
    Json.Same (ofJson value).toJson value.kept ∧
    Same (ofJson (ofJson value).toJson) (ofJson value) ∧
    ∀ (members : Entries Json) (kind : FileClass) (path location : Option String)
      (extra : Entries JobValue), value = .object members → ofJson value = .file kind path location extra →
        extra.Perm (Entries.mapValues ofJson (members.filter isAttribute)) ∧ extra.keys.Nodup := by
  refine ⟨same_toJson_ofJson h, same_ofJson_toJson_ofJson h, ?_⟩
  rintro members kind path location extra rfl hfile
  have hextra : extra = extraEntries (entriesOfJson members) := by
    rw [ofJson, ofMembers] at hfile
    cases hkind : fileClassOf? members with
    | none =>
        rw [hkind] at hfile
        cases hfile
    | some found =>
        rw [hkind] at hfile
        injection hfile with _ _ _ hextra
        exact hextra.symm
  have hperm := perm_extraEntries_entriesOfJson h.nodup
  rw [← hextra] at hperm
  refine ⟨hperm, (hperm.map Prod.fst).nodup_iff.2 ?_⟩
  show (Entries.keys (Entries.mapValues _ _)).Nodup
  rw [Entries.keys_mapValues]
  exact Entries.nodup_keys_filter h.nodup _

/-- A directory whose path is a number, with a file among its attributes. -/
def listedDirectory : Json :=
  .object [("location", .string "s3://b"), ("size", .number (.int 4)), ("class", .string "Directory"),
    ("path", .number (.int 1)),
    ("listing", .array [.object [("path", .string "a"), ("format", .null), ("class", .string "File")]])]

/-- The number is left out of the directory, and nothing else is lost. -/
theorem decoding_keeps_listedDirectory :
    listedDirectory.HasUniqueKeys ∧
    Json.Same (ofJson listedDirectory).toJson
      (.object [("location", .string "s3://b"), ("size", .number (.int 4)),
        ("class", .string "Directory"),
        ("listing", .array [.object [("path", .string "a"), ("format", .null),
          ("class", .string "File")]])]) ∧
    Same (ofJson (ofJson listedDirectory).toJson) (ofJson listedDirectory) := by
  have hkeys : listedDirectory.HasUniqueKeys := by
    simp [listedDirectory, Json.HasUniqueKeys, Json.MembersHaveUniqueKeys, Json.ItemsHaveUniqueKeys]
  obtain ⟨hencoded, hdecoded, -⟩ := decoding_keeps listedDirectory hkeys
  exact ⟨hkeys, hencoded, hdecoded⟩

end JobValue

end Invocation
