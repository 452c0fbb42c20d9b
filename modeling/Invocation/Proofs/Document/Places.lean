import Invocation.Document.Tool
import Invocation.Proofs.Document.Reading
import Mathlib.Data.List.Nodup

/-!
# The places of a tool document

The place of an item tells the list that it stands in and its index.  What a tool is read from keeps its
place: the arguments and the inputs stand at the items of their lists (`map_location_arguments`,
`map_location_inputs`), and a redirection stands at its member.
-/

namespace Invocation.Document

/-! ## Items -/

/-- The decimal digits of a number tell the number. -/
theorem eq_of_toDigits_eq {i j : Nat} (h : Nat.toDigits 10 i = Nat.toDigits 10 j) : i = j := by
  rw [← @Nat.ofDigitChars_ten_toDigits i, h, Nat.ofDigitChars_ten_toDigits]

/-- The place of an item of a list tells its index. -/
theorem elementAt_inj {location : String} {i j : Nat} :
    elementAt location i = elementAt location j ↔ i = j := by
  refine ⟨fun h ↦ ?_, fun h ↦ h ▸ rfl⟩
  unfold elementAt at h
  rw [String.append_left_inj, String.append_right_inj, Nat.toString_eq_repr, Nat.toString_eq_repr] at h
  have hdigits := congrArg String.toList h
  rw [Nat.toList_repr, Nat.toList_repr] at hdigits
  exact eq_of_toDigits_eq hdigits

/-- The places of the items of a list. -/
def itemPlaces (location : String) (count : Nat) : List String :=
  (List.range count).map (elementAt location)

/-- Items stand at different places. -/
theorem nodup_itemPlaces (location : String) (count : Nat) : (itemPlaces location count).Nodup :=
  List.nodup_range.map fun _ _ h ↦ elementAt_inj.1 h

/-- The first letter of the member that a place of a document lies in. -/
def memberInitial (place : String) : Option Char :=
  place.toList[9]?

/-- A member lies in itself. -/
theorem memberInitial_child (name : String) : memberInitial (child root name) = name.toList[0]? := by
  unfold memberInitial child root
  rw [String.toList_append, List.getElem?_append_right (by decide)]
  rfl

/-- The items of a member lie in it. -/
theorem memberInitial_of_mem_itemPlaces {name place : String} {count : Nat} (hname : name ≠ "")
    (h : place ∈ itemPlaces (child root name) count) : memberInitial place = name.toList[0]? := by
  obtain ⟨index, -, rfl⟩ := List.mem_map.1 h
  have hlength : 0 < name.toList.length := by
    rw [List.length_pos_iff]
    exact fun hempty ↦ hname (String.toList_eq_nil_iff.1 hempty)
  have hsplit : elementAt (child root name) index =
      child root (name ++ ("[" ++ toString index ++ "]")) := by
    simp only [elementAt, child, String.append_assoc]
  rw [hsplit, memberInitial_child, String.toList_append, List.getElem?_append_left hlength]

/-- Different places that lie in different members differ from each other. -/
theorem nodup_append_of_memberInitial {first second : List String} (hfirst : first.Nodup)
    (hsecond : second.Nodup)
    (h : ∀ place ∈ first, ∀ other ∈ second, memberInitial place ≠ memberInitial other) :
    (first ++ second).Nodup :=
  List.nodup_append.2 ⟨hfirst, hsecond, fun place hplace other hother heq ↦
    h place hplace other hother (congrArg memberInitial heq)⟩

/-! ## Lists -/

variable {α : Type} {read : String → Json → Reading α} {location : String} {items : List Json}
  {values : List α}

/-- An item of a list is read at its place. -/
theorem getElem?_readItems {index start : Nat} {item : Json}
    (h : readItems read location start items = .ok values) (hitem : items[index]? = some item) :
    ∃ value, values[index]? = some value ∧
      read (elementAt location (start + index)) item = .ok value := by
  induction items generalizing start index values with
  | nil => simp at hitem
  | cons head rest ih =>
      obtain ⟨first, hfirst, h⟩ := bind_eq_ok_iff.1 h
      obtain ⟨others, hothers, h⟩ := bind_eq_ok_iff.1 h
      cases h
      cases index with
      | zero =>
          cases hitem
          exact ⟨first, rfl, hfirst⟩
      | succ index =>
          obtain ⟨value, hvalue, hread⟩ := ih hothers hitem
          refine ⟨value, hvalue, ?_⟩
          rwa [show start + (index + 1) = start + 1 + index by omega]

/-- What is read from the items of a list stands at their places, if each stands at the place at which it
is read. -/
theorem map_readItems {place : α → String}
    (hplace : ∀ {location : String} {item : Json} {value : α},
      read location item = .ok value → place value = location)
    (h : readItems read location 0 items = .ok values) :
    values.map place = itemPlaces location values.length := by
  have hlength := (forall₂_readItems h).length_eq
  refine List.ext_getElem? fun index ↦ ?_
  by_cases hindex : index < values.length
  · obtain ⟨value, hvalue, hread⟩ := getElem?_readItems h (List.getElem?_eq_getElem (hlength ▸ hindex))
    rw [List.getElem?_map, hvalue, itemPlaces, List.getElem?_map, List.getElem?_range hindex]
    simp [hplace hread]
  · simp [itemPlaces, hindex]

/-! ## Arguments, inputs and redirections -/

/-- An argument stands at the place at which it is read. -/
theorem location_readArgument {version : DocumentVersion} {place : String} {raw : Json}
    {argument : ToolArgument} (h : readArgument version place raw = .ok argument) :
    argument.argument.location = place := by
  cases raw with
  | string text =>
      rw [readArgument] at h
      split at h <;> cases h <;> rfl
  | object members =>
      obtain ⟨binding, -, h⟩ := bind_eq_ok_iff.1 h
      cases h
      rfl
  | null | bool | number | array => cases h

/-- An input is read from an object with an id, and stands at the place at which it is read. -/
theorem exists_of_readInput {version : DocumentVersion} {place : String} {raw : Json}
    {input : ToolInput} (h : readInput version place raw = .ok input) :
    ∃ members, raw = .object members ∧ input.input.location = place ∧
      input.position = ((members.lookup "inputBinding").bind Json.members?).map positionOf := by
  unfold readInput at h
  split at h
  · cases h
  · next members hmembers =>
    split at h
    · cases h
    · obtain ⟨⟨type, optional⟩, -, h⟩ := bind_eq_ok_iff.1 h
      obtain ⟨binding, -, h⟩ := bind_eq_ok_iff.1 h
      cases h
      cases raw with
      | object found =>
          cases hmembers
          exact ⟨members, rfl, rfl, rfl⟩
      | null | bool | number | string | array => cases hmembers

/-- A redirection stands at its member. -/
theorem location_readStream {version : DocumentVersion} {kind : StreamKind} {members : Entries Json}
    {stream : Stream} (h : readStream version kind members = .ok (some stream)) :
    stream.location = child root kind.name := by
  obtain ⟨expression, -, h⟩ := bind_eq_ok_iff.1 h
  cases expression with
  | none => cases h
  | some expression =>
      cases h
      rfl

/-- The parts of a tool are read from the members of a document. -/
structure IsReadFrom (tool : Tool) (members : Entries Json) : Prop where
  inputs : readItems (readInput tool.version) (child root "inputs") 0
    (listForm "id" "type" (members.lookup "inputs")) = .ok tool.inputs
  arguments : readArguments tool.version members = .ok tool.arguments
  stdin : readStream tool.version .stdin members = .ok tool.stdin
  stdout : readStream tool.version .stdout members = .ok tool.stdout

/-- A document that is read as a tool is an object that the tool's parts are read from. -/
theorem exists_isReadFrom {raw : Json} {tool : Tool} (h : readTool raw = .ok tool) :
    ∃ members, raw = .object members ∧ IsReadFrom tool members := by
  cases raw with
  | object members =>
      obtain ⟨version, -, h⟩ := bind_eq_ok_iff.1 h
      obtain ⟨baseCommand, -, h⟩ := bind_eq_ok_iff.1 h
      obtain ⟨inputs, hinputs, h⟩ := bind_eq_ok_iff.1 h
      obtain ⟨arguments, harguments, h⟩ := bind_eq_ok_iff.1 h
      obtain ⟨stdin, hstdin, h⟩ := bind_eq_ok_iff.1 h
      obtain ⟨stdout, hstdout, h⟩ := bind_eq_ok_iff.1 h
      cases h
      exact ⟨members, rfl, hinputs, harguments, hstdin, hstdout⟩
  | null | bool | number | string | array => cases h

namespace IsReadFrom

variable {tool : Tool} {members : Entries Json}

/-- The arguments stand at the items of their list. -/
theorem map_location_arguments (h : IsReadFrom tool members) :
    tool.arguments.map (·.argument.location) =
      itemPlaces (child root "arguments") tool.arguments.length := by
  have harguments := h.arguments
  unfold readArguments at harguments
  split at harguments
  · rw [← Except.ok.inj harguments]
    rfl
  · exact map_readItems location_readArgument harguments
  · cases harguments

/-- The inputs stand at the items of their list, which may be written as an object. -/
theorem map_location_inputs (h : IsReadFrom tool members) :
    tool.inputs.map (·.input.location) = itemPlaces (child root "inputs") tool.inputs.length := by
  refine map_readItems (fun hread ↦ ?_) h.inputs
  obtain ⟨_, _, hlocation, _⟩ := exists_of_readInput hread
  exact hlocation

/-- The redirections stand at their members. -/
theorem location_redirections (h : IsReadFrom tool members) :
    (∀ stream ∈ tool.stdin, stream.location = child root "stdin") ∧
      (∀ stream ∈ tool.stdout, stream.location = child root "stdout") := by
  constructor
  · intro stream hstream
    exact location_readStream ((Option.mem_def.1 hstream) ▸ h.stdin)
  · intro stream hstream
    exact location_readStream ((Option.mem_def.1 hstream) ▸ h.stdout)

end IsReadFrom

end Invocation.Document
