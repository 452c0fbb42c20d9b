import Invocation.Proofs.Assembly.Attribution
import Invocation.Proofs.Assembly.Targets
import Mathlib.Data.List.Pairwise

/-!
# Places that differ

Everything that a tool document declares stands at a place of its own: the inputs, the fields inside of their
types at any depth, the arguments and the redirections (`nodup_places_of_readTool`).  The argument is the same at
each level: what stands at an item of a list or inside of it begins with the place of the item, and the places of
two items do not begin with each other (`DeclaredIn.distinctBelow`).
-/

namespace Invocation

namespace InputType

mutual

/-- The places of the fields inside of a type, at any depth. -/
def places : InputType → List String
  | .array items _ => places items
  | .record fields => fieldPlaces fields
  | _ => []

/-- The places of fields, each in front of those inside of its type. -/
def fieldPlaces : List (Parameter InputType) → List String
  | [] => []
  | ⟨_, type, _, location⟩ :: rest => location :: places type ++ fieldPlaces rest

end

/-- The places of fields follow each other. -/
theorem fieldPlaces_eq_flatMap (fields : List Input) :
    fieldPlaces fields = fields.flatMap fun field ↦ field.location :: field.type.places := by
  induction fields with
  | nil => rfl
  | cons field rest ih =>
      obtain ⟨id, type, binding, location⟩ := field
      rw [fieldPlaces, ih, List.flatMap_cons]

end InputType

namespace Document

/-! ## Fields -/

/-- The places differ from each other, and all of them begin with one place. -/
structure DistinctBelow (place : String) (places : List String) : Prop where
  nodup : places.Nodup
  begins : ∀ inner ∈ places, Begins place inner

/-- What stands below a place that is below another one stands below the other one. -/
theorem DistinctBelow.mono {place inner : String} {places : List String} (h : DistinctBelow inner places)
    (hplace : Begins place inner) : DistinctBelow place places :=
  ⟨h.nodup, fun other hother ↦ hplace.trans (h.begins other hother)⟩

/-- A place does not begin with a place of its members. -/
theorem not_begins_child (place name : String) : ¬ Begins (child place name) place := by
  intro h
  have hlength := List.IsPrefix.length_le h
  unfold child at hlength
  simp only [String.toList_append, List.length_append] at hlength
  have hdot : ".".toList.length = 1 := rfl
  omega

/-- The places of the items of a list tell them apart, at any depth inside of the items. -/
theorem eq_of_begins_items {location place : String} {i j : Nat} (h : Begins (elementAt location i) place)
    (hother : Begins (elementAt location j) place) : i = j := by
  rcases List.prefix_or_prefix_of_prefix h hother with hprefix | hprefix
  · exact eq_of_begins_elementAt hprefix
  · exact (eq_of_begins_elementAt hprefix).symm

variable {document : Json} {version : DocumentVersion} {location : String} {fields : List Input}

/-- Fields that are read at the items of a list stand at different places with all that is inside of them. -/
theorem DeclaredIn.distinctBelow
    (h : DeclaredIn document version (fun place type ↦ DistinctBelow place type.places) location fields) :
    DistinctBelow location (InputType.fieldPlaces fields) := by
  have hbegins (field : Input) (hfield : field ∈ fields) (inner : String)
      (hinner : inner ∈ field.location :: field.type.places) : Begins field.location inner := by
    obtain ⟨index, hdeclared⟩ := h.declared field hfield
    rcases List.mem_cons.1 hinner with rfl | hinner
    · exact Begins.refl _
    · rw [hdeclared.location]
      exact (begins_child _ "type").trans (hdeclared.type.begins inner hinner)
  rw [InputType.fieldPlaces_eq_flatMap]
  refine ⟨List.nodup_flatMap.2 ⟨fun field hfield ↦ ?_, ?_⟩, fun inner hinner ↦ ?_⟩
  · -- what is inside of the type of a field stands below the field
    obtain ⟨index, hdeclared⟩ := h.declared field hfield
    refine List.nodup_cons.2 ⟨fun hmem ↦ ?_, hdeclared.type.nodup⟩
    have hbelow := hdeclared.type.begins _ hmem
    rw [hdeclared.location] at hbelow
    exact not_begins_child _ _ hbelow
  · -- different fields are different items
    refine (List.pairwise_map.1 h.nodup).imp_of_mem fun {first second} hfirst hsecond hne inner hin hother ↦ ?_
    obtain ⟨i, hi⟩ := h.declared first hfirst
    obtain ⟨j, hj⟩ := h.declared second hsecond
    have hfirstBegins := hbegins first hfirst inner hin
    have hsecondBegins := hbegins second hsecond inner hother
    rw [hi.location] at hfirstBegins
    rw [hj.location] at hsecondBegins
    have hindex := eq_of_begins_items hfirstBegins hsecondBegins
    exact hne (by rw [hi.location, hj.location, hindex])
  · obtain ⟨field, hfield, hinner⟩ := List.mem_flatMap.1 hinner
    obtain ⟨index, hdeclared⟩ := h.declared field hfield
    have hfieldBegins := hbegins field hfield inner hinner
    rw [hdeclared.location] at hfieldBegins
    exact (begins_elementAt location index).trans hfieldBegins

/-- The fields inside of an array are those inside of its items. -/
theorem places_arrayType (itemBinding : Option Binding) (items : InputType) :
    (arrayType itemBinding items).places = items.places := by
  cases items <;> rfl

/-- The fields inside of a type that is read stand at different places below the type. -/
theorem inherited_distinctBelow (document : Json) (version : DocumentVersion) :
    Inherited document version fun place type ↦ DistinctBelow place type.places where
  primitive _ _ := ⟨List.nodup_nil, nofun⟩
  flag _ := ⟨List.nodup_nil, nofun⟩
  enum _ _ := ⟨List.nodup_nil, nofun⟩
  unresolved _ _ := ⟨List.nodup_nil, nofun⟩
  list hitems := hitems
  array _ hitems := by
    rw [places_arrayType]
    exact hitems.mono (begins_child _ "items")
  record hfields := hfields.distinctBelow.mono (begins_child _ "fields")

end Document

/-! ## Tools -/

open Document (child elementAt root itemPlaces memberInitial DistinctBelow)

namespace Tool

/-- The places of all that a tool declares: its inputs with the fields inside of their types, its arguments, and its
redirections. -/
def places (tool : Tool) : List String :=
  InputType.fieldPlaces (tool.inputs.map ToolInput.input) ++ tool.arguments.map (·.argument.location)
    ++ tool.redirections.map Target.location

variable {tool : Tool} {raw : Json}

/-- The inputs of a tool that was read, and the fields inside of their types, stand at different places. -/
theorem distinctBelow_inputs (h : Document.readTool raw = .ok tool) :
    DistinctBelow (child root "inputs") (InputType.fieldPlaces (tool.inputs.map ToolInput.input)) := by
  obtain ⟨members, rfl, hparts⟩ := Document.exists_isReadFrom h
  have hinputs := (Document.inherited_distinctBelow (.object members) tool.version).declaredAt_of_readTool h
  have hnodup : ((tool.inputs.map ToolInput.input).map Parameter.location).Nodup := by
    have hplaces := hparts.map_location_inputs
    rw [List.map_map]
    show (tool.inputs.map fun declared ↦ declared.input.location).Nodup
    rw [hplaces]
    exact Document.nodup_itemPlaces _ _
  exact Document.DeclaredIn.distinctBelow ⟨List.forall_mem_map.2 hinputs, hnodup⟩

/-- Whatever a tool document declares stands at a place of its own: the places of the inputs, of the fields inside of
their types at any depth of arrays, unions and records, of the arguments and of the redirections are all
different. -/
theorem nodup_places_of_readTool (h : Document.readTool raw = .ok tool) : tool.places.Nodup := by
  have hinputs := distinctBelow_inputs h
  obtain ⟨members, rfl, hparts⟩ := Document.exists_isReadFrom h
  -- the three parts differ by the first letters of the members that they lie in
  have hinput : ∀ place ∈ InputType.fieldPlaces (tool.inputs.map ToolInput.input),
      memberInitial place = some 'i' := fun place hplace ↦
    Document.memberInitial_of_begins (hinputs.begins place hplace) rfl
  have hargument : ∀ place ∈ itemPlaces (child root "arguments") tool.arguments.length,
      memberInitial place = some 'a' := fun place hplace ↦
    Document.memberInitial_of_mem_itemPlaces (by decide) hplace
  unfold places
  rw [hparts.map_location_arguments]
  refine Document.nodup_append_of_memberInitial (Document.nodup_append_of_memberInitial hinputs.nodup
    (Document.nodup_itemPlaces _ _) ?_) ((location_redirections hparts).nodup (by decide)) ?_
  · intro place hplace other hother
    rw [hinput place hplace, hargument other hother]
    decide
  · intro place hplace other hother
    rw [memberInitial_of_mem_redirections hparts hother]
    rcases List.mem_append.1 hplace with hplace | hplace
    · rw [hinput place hplace]
      decide
    · rw [hargument place hplace]
      decide

/-- A document with redirections, arguments, and records inside of an optional array.  The second field with the
name `reads` takes the place of the first one. -/
def surveyDocument : Json :=
  .object [("baseCommand", .string "survey"), ("stdin", .string "in.txt"), ("stdout", .string "out.txt"),
    ("arguments", .array [.string "-v", .string "-x"]),
    ("inputs", .object
      [("samples", .object [("type", .array [.string "null", .object [("type", .string "array"),
        ("items", .object [("type", .string "record"), ("fields", .array
          [.object [("name", .string "reads"), ("type", .string "string")],
           .object [("name", .string "reads"), ("type", .object [("type", .string "record"),
             ("fields", .object [("first", .string "File"), ("last", .string "File[]")])])]])])]])]),
       ("depth", .string "int")])]

/-- The tool of this document. -/
def survey : Tool where
  id := none
  version := .v1
  baseCommand := ["survey"]
  arguments :=
    [⟨⟨some "-v", .plain, "document.arguments[0]"⟩, 0⟩, ⟨⟨some "-x", .plain, "document.arguments[1]"⟩, 0⟩]
  inputs :=
    [⟨⟨"samples", .array (.record [⟨"reads", .record
        [⟨"first", .primitive .file, .plain, "document.inputs[0].type.items.fields[1].type.fields[0]"⟩,
         ⟨"last", .array (.primitive .file) none, .plain,
          "document.inputs[0].type.items.fields[1].type.fields[1]"⟩],
        .plain, "document.inputs[0].type.items.fields[1]"⟩]) none, .plain, "document.inputs[0]"⟩,
        none, none, true⟩,
     ⟨⟨"depth", .primitive .int, .plain, "document.inputs[1]"⟩, none, none, false⟩]
  stdin := some ⟨.stdin, ⟨"in.txt", "document.stdin"⟩, "document.stdin"⟩
  stdout := some ⟨.stdout, ⟨"out.txt", "document.stdout"⟩, "document.stdout"⟩

/-- The survey stands at nine different places. -/
theorem nodup_places_of_readTool_survey : Document.readTool surveyDocument = .ok survey ∧
    survey.places = ["document.inputs[0]", "document.inputs[0].type.items.fields[1]",
      "document.inputs[0].type.items.fields[1].type.fields[0]",
      "document.inputs[0].type.items.fields[1].type.fields[1]", "document.inputs[1]", "document.arguments[0]",
      "document.arguments[1]", "document.stdin", "document.stdout"] ∧
    survey.places.Nodup := by
  have hread : Document.readTool surveyDocument = .ok survey := rfl
  exact ⟨hread, rfl, nodup_places_of_readTool hread⟩

end Tool

end Invocation
