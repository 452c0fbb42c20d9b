import Invocation.Proofs.Assembly.Targets
import Invocation.Proofs.Assembly.Unresolved
import Invocation.Proofs.Document.DeclaredTypes
import Invocation.Proofs.Rendering.Attribution
import Mathlib

/-!
# The entries that findings belong to

In a tool that is read from a document every field of a type is declared below the place of its input, so that
what is found while an input is rendered stands below the place of the input.  The places of two entries do not
begin with each other, so that a finding tells the entry that it belongs to (`attributed_of_readTool`).  What
is found of an entry in the value of an argument is an exception: it stands at the key of the entry, and tells
nothing (`not_attributed_nested`).
-/

namespace Invocation

namespace Document

/-! ## Fields of a document -/

/-- The places of members begin with that of their object. -/
theorem begins_child (place name : String) : Begins place (child place name) := by
  unfold Begins child
  simp only [String.toList_append, List.append_assoc]
  exact List.prefix_append _ _

/-- The places of items begin with that of their list. -/
theorem begins_elementAt (place : String) (index : Nat) : Begins place (elementAt place index) :=
  begins_elementLocation place index

/-- The fields inside of the items of an array are declared where those of the array are. -/
theorem fieldsBelow_arrayType {place : String} (itemBinding : Option Binding) {items : InputType}
    (h : items.FieldsBelow place) : (arrayType itemBinding items).FieldsBelow place := by
  cases h with
  | boolean itemsContext => exact .array itemBinding (.boolean _)
  | primitive kind => exact .array itemBinding (.primitive kind)
  | enum symbols => exact .array itemBinding (.enum symbols)
  | unresolved tag => exact .array itemBinding (.unresolved tag)
  | array inner hitems => exact .array itemBinding (.array inner hitems)
  | record hfields htypes => exact .array itemBinding (.record hfields htypes)

/-- The fields of a type that is read are declared at the place of the type or below. -/
theorem inherited_fieldsBelow (document : Json) (version : DocumentVersion) :
    Inherited document version fun place type ↦ type.FieldsBelow place where
  primitive _ kind := .primitive kind
  flag _ := .boolean none
  enum _ symbols := .enum symbols
  unresolved _ tag := .unresolved tag
  list hitems := .array none hitems
  array _ hitems := fieldsBelow_arrayType _ (hitems.mono (begins_child _ _))
  record {place fields} hfields := by
    have hplace {field : Input} (hfield : field ∈ fields) :
        Begins place field.location ∧ field.type.FieldsBelow field.location := by
      obtain ⟨index, hdeclared⟩ := hfields.declared field hfield
      rw [hdeclared.location]
      exact ⟨(begins_child place "fields").trans (begins_elementAt _ index),
        hdeclared.type.mono (begins_child _ _)⟩
    exact .record (fun field hfield ↦ (hplace hfield).1) fun field hfield ↦
      (hplace hfield).2.mono (hplace hfield).1

/-- The fields inside of the inputs of a tool are declared below the places of the inputs. -/
theorem fieldsBelow_of_readTool {raw : Json} {tool : Tool} (h : readTool raw = .ok tool) :
    ∀ declared ∈ tool.inputs, declared.input.type.FieldsBelow declared.input.location := by
  intro declared hmem
  obtain ⟨index, hdeclared⟩ := (inherited_fieldsBelow raw tool.version).declaredAt_of_readTool h declared hmem
  rw [hdeclared.location]
  exact hdeclared.type.mono (begins_child _ _)

/-! ## Places of entries -/

/-- The item of a list stands at the place of its index. -/
theorem exists_elementAt_of_mem {α : Type} {items : List α} {place : α → String} {location : String}
    (h : items.map place = itemPlaces location items.length) {item : α} (hmem : item ∈ items) :
    ∃ index, items[index]? = some item ∧ elementAt location index = place item := by
  obtain ⟨index, hindex, rfl⟩ := List.mem_iff_getElem.1 hmem
  have hplace := congrArg (·[index]?) h
  simp only [itemPlaces, List.getElem?_map, List.getElem?_range hindex,
    List.getElem?_eq_getElem hindex, Option.map_some] at hplace
  exact ⟨index, List.getElem?_eq_getElem hindex, (Option.some.inj hplace).symm⟩

/-- The place of an item begins with that of another item of the list only if both are the same. -/
theorem eq_of_begins_elementAt {location : String} {i j : Nat}
    (h : Begins (elementAt location i) (elementAt location j)) : i = j := by
  have hdigits : Nat.toDigits 10 i ++ [']'] <+: Nat.toDigits 10 j ++ [']'] := by
    unfold Begins elementAt at h
    simp only [String.toList_append, Nat.toString_eq_repr, Nat.toList_repr, List.append_assoc] at h
    exact (List.prefix_append_right_inj _).1 ((List.prefix_append_right_inj _).1 h)
  rcases List.prefix_concat_iff.1 hdigits with heq | hinside
  · exact eq_of_toDigits_eq (List.append_cancel_right heq)
  · -- no digit is a bracket
    have hdigit := Nat.isDigit_of_mem_toDigits (by decide) (by decide)
      (hinside.subset (List.mem_append_right _ (List.mem_singleton_self ']')))
    exact absurd hdigit (by decide)

/-- What begins with a place lies in the same member of the document. -/
theorem memberInitial_of_begins {place location : String} {initial : Char} (h : Begins place location)
    (hplace : memberInitial place = some initial) : memberInitial location = some initial := by
  obtain ⟨rest, hrest⟩ := h
  obtain ⟨hlength, -⟩ := List.getElem?_eq_some_iff.1 hplace
  unfold memberInitial at hplace ⊢
  rw [← hrest, List.getElem?_append_left hlength, hplace]

end Document

open Document (child elementAt root)

/-- The first letter of the member of a document that declares the target. -/
def Target.initial : Target → Char
  | .input _ => 'i'
  | .argument _ => 'a'
  | .stream _ => 's'

namespace Tool

/-- `tool.EntryAt place target` says that the target is an entry of the tool, and that a document declares it at
the place: an input or an argument at its index, and a redirection at its name. -/
inductive EntryAt (tool : Tool) : String → Target → Prop where
  | input {index : Nat} {declared : ToolInput} : tool.inputs[index]? = some declared →
      EntryAt tool (elementAt (child root "inputs") index) (.input declared.input)
  | argument {index : Nat} {declared : ToolArgument} : tool.arguments[index]? = some declared →
      EntryAt tool (elementAt (child root "arguments") index) (.argument declared.argument)
  | stdin {stream : Stream} : tool.stdin = some stream → EntryAt tool (child root "stdin") (.stream stream)
  | stdout {stream : Stream} : tool.stdout = some stream → EntryAt tool (child root "stdout") (.stream stream)

variable {tool : Tool} {target other : Target} {place inner : String}

/-- The place of an entry lies in the member that declares it. -/
theorem EntryAt.memberInitial (h : tool.EntryAt place target) :
    Document.memberInitial place = some target.initial := by
  have hitem (name : String) (hname : name ≠ "") (index : Nat) :
      Document.memberInitial (elementAt (child root name) index) = name.toList[0]? :=
    Document.memberInitial_of_mem_itemPlaces hname (List.mem_map_of_mem (List.mem_range.2 (Nat.lt_succ_self index)))
  cases h with
  | input => exact hitem "inputs" (by decide) _
  | argument => exact hitem "arguments" (by decide) _
  | stdin => rfl
  | stdout => rfl

/-- The place of an entry begins with that of another one only if both are the same. -/
theorem EntryAt.eq_of_begins (h : tool.EntryAt place target) (hother : tool.EntryAt inner other)
    (hbegins : Begins place inner) : target = other := by
  have hinitial : target.initial = other.initial :=
    Option.some.inj ((Document.memberInitial_of_begins hbegins h.memberInitial).symm.trans hother.memberInitial)
  cases h with
  | input hdeclared =>
      cases hother with
      | input hanother =>
          cases Document.eq_of_begins_elementAt hbegins
          cases hdeclared.symm.trans hanother
          rfl
      | argument | stdin | stdout => simp [Target.initial] at hinitial
  | argument hdeclared =>
      cases hother with
      | argument hanother =>
          cases Document.eq_of_begins_elementAt hbegins
          cases hdeclared.symm.trans hanother
          rfl
      | input | stdin | stdout => simp [Target.initial] at hinitial
  | stdin hstream =>
      cases hother with
      | stdin hanother =>
          cases hstream.symm.trans hanother
          rfl
      | stdout => exact absurd hbegins (by decide)
      | input | argument => simp [Target.initial] at hinitial
  | stdout hstream =>
      cases hother with
      | stdout hanother =>
          cases hstream.symm.trans hanother
          rfl
      | stdin => exact absurd hbegins (by decide)
      | input | argument => simp [Target.initial] at hinitial

/-- A location begins with the place of one entry at most. -/
theorem EntryAt.unique {location : String} (h : tool.EntryAt place target)
    (hother : tool.EntryAt inner other) (hbegins : Begins place location) (hinner : Begins inner location) :
    other = target := by
  rcases List.prefix_or_prefix_of_prefix hbegins hinner with hplaces | hplaces
  · exact (h.eq_of_begins hother hplaces).symm
  · exact hother.eq_of_begins h hplaces

/-- What a command line is made of stands where the document declares it. -/
theorem entryAt_location {members : Entries Json} (h : Document.IsReadFrom tool members)
    (htarget : target ∈ tool.targets) : tool.EntryAt target.location target := by
  rcases mem_targets_iff.1 htarget with ⟨declared, hdeclared, rfl⟩ | ⟨declared, hdeclared, -, rfl⟩ |
    ⟨stream, hstream | hstream, rfl⟩
  · obtain ⟨index, hindex, hplace⟩ := Document.exists_elementAt_of_mem h.map_location_arguments hdeclared
    show tool.EntryAt declared.argument.location _
    rw [← hplace]
    exact .argument hindex
  · obtain ⟨index, hindex, hplace⟩ := Document.exists_elementAt_of_mem h.map_location_inputs hdeclared
    show tool.EntryAt declared.input.location _
    rw [← hplace]
    exact .input hindex
  · show tool.EntryAt stream.location _
    rw [h.location_redirections.1 stream hstream]
    exact .stdin hstream
  · show tool.EntryAt stream.location _
    rw [h.location_redirections.2 stream hstream]
    exact .stdout hstream

/-- The findings of an entry of a tool that was read from a document stand at the place of the entry or below, if
the entries in the value of an argument pass. -/
theorem below_resultOf {raw : Json} (h : Document.readTool raw = .ok tool) (htarget : target ∈ tool.targets)
    {evaluator : Evaluator} {job : JobValue} {runtime : Runtime}
    (hentries : target.EntriesPass evaluator (.top (tool.withDefaults job) runtime)) :
    (tool.resultOf evaluator job runtime target).findings.Below target.location := by
  refine Target.below_render (fun input hinput ↦ ?_) hentries
  subst hinput
  obtain ⟨declared, hdeclared, -, rfl⟩ := input_mem_targets_iff.1 htarget
  exact Document.fieldsBelow_of_readTool h declared hdeclared

/-- What is found in a run of a tool that was read from a document, also in one that is cancelled, is found by an
entry of the tool, which the document declares at its place.  The finding stands at this place or below, at any
depth of elements and fields, and at the place of no other entry or below it, provided that the entries inside of
the value of an argument can stand for those that their types are inferred from. -/
theorem attributed_of_readTool {raw : Json} {tool : Tool} (h : Document.readTool raw = .ok tool)
    (evaluator : Evaluator) (job : JobValue) (runtime : Runtime) {final : Assembling}
    (hrun : Assembling.Steps evaluator (tool.started job runtime) final) (hsettled : final.Settled) :
    (final.assembled tool.baseCommand).findings.All fun finding ↦
      (∃ target ∈ tool.targets, finding ∈ (tool.resultOf evaluator job runtime target).findings) ∧
      ∀ target ∈ tool.targets, finding ∈ (tool.resultOf evaluator job runtime target).findings →
        tool.EntryAt target.location target ∧
        (target.EntriesPass evaluator (.top (tool.withDefaults job) runtime) →
          Begins target.location finding.location ∧
          ∀ place other, tool.EntryAt place other → Begins place finding.location → other = target) := by
  obtain ⟨members, rfl, hparts⟩ := Document.exists_isReadFrom h
  obtain ⟨moment, -, -, -, hkept⟩ := Assembling.exists_assembleKept hrun hsettled
  rw [hkept]
  refine all_assembleKept (fun result hresult finding hfinding ↦ ⟨?_, fun target htarget hproduced ↦ ?_⟩)
    moment.kept
  · rw [results_eq_map_targets] at hresult
    obtain ⟨target, htarget, rfl⟩ := List.mem_map.1 hresult
    exact ⟨target, htarget, hfinding⟩
  · have hplace := entryAt_location hparts htarget
    refine ⟨hplace, fun hentries ↦ ?_⟩
    have hbegins := below_resultOf h htarget hentries finding hproduced
    exact ⟨hbegins, fun place other hother hinner ↦ hplace.unique hother hbegins hinner⟩

end Tool

open Argument (answerN)

/-- A document of a tool with a record as its input and an argument for the value of `n`. -/
def pairDocument : Json :=
  .object [("baseCommand", .string "drum"),
    ("arguments", .array [.object [("valueFrom", .string "$(inputs.n)")]]),
    ("inputs", .array [.object [("id", .string "pair"), ("inputBinding", .object []),
      ("type", .object [("type", .string "record"),
        ("fields", .array [.object [("name", .string "beats"), ("type", .string "int[]")]])])]])]

/-- The tool of this document. -/
def pairTool : Tool where
  id := none
  version := .v1
  baseCommand := ["drum"]
  arguments := [⟨⟨none, ⟨none, true, " ", some ⟨"$(inputs.n)", "document.arguments[0].valueFrom"⟩⟩,
    "document.arguments[0]"⟩, 0⟩]
  inputs :=
    [⟨⟨"pair", .record [⟨"beats", .array (.primitive .int) none, .plain, "document.inputs[0].type.fields[0]"⟩],
      .plain, "document.inputs[0]"⟩, none, some 0, false⟩]
  stdin := none
  stdout := none

/-- A list of a number and a text. -/
def unevenBeats : JobValue :=
  .list [.number (.int 1), .string "x"]

/-- A job that gives this list to the argument and to the field. -/
def unevenJob : JobValue :=
  .mapping [("n", unevenBeats), ("pair", .mapping [("beats", unevenBeats)])]

/-- The list is found twice to be uneven, as a whole and at the text, and all findings stand below their entries. -/
theorem attributed_of_readTool_pair : Document.readTool pairDocument = .ok pairTool ∧
    ∃ final, Assembling.Steps answerN (pairTool.started unevenJob {}) final ∧ final.Settled ∧
      (final.assembled pairTool.baseCommand).findings.warnings.map Finding.location =
        ["document.arguments[0]", "document.arguments[0][1]", "document.inputs[0].type.fields[0]",
          "document.inputs[0].type.fields[0][1]"] ∧
      (final.assembled pairTool.baseCommand).findings.All fun finding ↦
        ∃ target ∈ pairTool.targets, Begins target.location finding.location := by
  have hread : Document.readTool pairDocument = .ok pairTool := rfl
  have hentries : ∀ target ∈ pairTool.targets,
      target.EntriesPass answerN (.top (pairTool.withDefaults unevenJob) {}) := by
    intro target _
    cases target with
    | input | stream => trivial
    | argument argument =>
      intro _ expression _ value hvalue
      cases hvalue
      exact .list _ fun element _ _ ↦ .leaf element rfl
  obtain ⟨final, hrun, hsettled, -, hfinal⟩ :=
    Assembling.exists_run_timed answerN pairTool unevenJob {} (fun _ ↦ 0) none
  refine ⟨hread, final, hrun, hsettled, ?_, ?_⟩
  · rw [hfinal]
    cbv
  · intro finding hfinding
    obtain ⟨⟨target, htarget, hproduced⟩, hattributed⟩ :=
      Tool.attributed_of_readTool hread answerN unevenJob {} hrun hsettled finding hfinding
    exact ⟨target, htarget, ((hattributed target htarget hproduced).2 (hentries target htarget)).1⟩

/-- A job that gives a mapping to the argument, with a list of a number and null in it. -/
def nestedJob : JobValue :=
  .mapping [("n", .mapping [("a", .list [.number (.int 1), .null])])]

/-- What is found of an entry of a mapping stands at the key of the entry, and the key begins with the place of no
entry of the tool. -/
theorem not_attributed_nested : Document.readTool pairDocument = .ok pairTool ∧
    ∃ final, Assembling.Steps answerN (pairTool.started nestedJob {}) final ∧ final.Settled ∧
      ∃ finding ∈ (final.assembled pairTool.baseCommand).findings, finding.location = "a" ∧
        ∀ place target, pairTool.EntryAt place target → ¬ Begins place finding.location := by
  obtain ⟨final, hrun, hsettled, -, hfinal⟩ :=
    Assembling.exists_run_timed answerN pairTool nestedJob {} (fun _ ↦ 0) none
  have hfindings : (final.assembled pairTool.baseCommand).findings =
      .warning .typeMismatch "a"
        "mismatched value and type definition for a: expected array or long, got array" := by
    rw [hfinal]
    cbv
  refine ⟨rfl, final, hrun, hsettled, ?_⟩
  rw [hfindings]
  refine ⟨_, List.mem_singleton_self _, rfl, fun place target hplace hbegins ↦ ?_⟩
  -- an entry lies in a member of the document, and the key in none
  have hinitial := Document.memberInitial_of_begins hbegins hplace.memberInitial
  cases hinitial

end Invocation
