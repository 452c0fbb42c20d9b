import Invocation.Document.Schema
import Invocation.Formula.Evaluator
import Invocation.Proofs.Assembly.Targets
import Invocation.Proofs.Json.Schema
import Mathlib

/-!
# Positions

The schema of tools accepts every whole number as a position, however it is written.  A position is read
when it is a 64-bit integer, and counts as 0 otherwise.  So entries stand in the order of the positions
that their document states as long as these are 64-bit integers (`sublist_of_statedPosition_lt`); a
position like `2.0`, which the schema accepts as well, is lost.
-/

namespace Invocation

/-- The whole number that a number is equal to, if there is one. -/
def Number.whole? : Number → Option Int
  | .int n => some n
  | .double x => if x.isIntegral then some x.toInt else none

namespace Entry

/-- In order, an entry stands before the entries of larger positions. -/
theorem pair_sublist_mergeSort {entries : List Entry} {first second : Entry} (hfirst : first ∈ entries)
    (hsecond : second ∈ entries) (hlt : first.position < second.position) :
    [first, second].Sublist (entries.mergeSort precedes) := by
  have hsorted := List.pairwise_mergeSort precedes_trans precedes_total entries
  have hmem : second ∈ entries.mergeSort precedes := List.mem_mergeSort.2 hsecond
  obtain ⟨front, back, hsplit⟩ := List.append_of_mem (List.mem_mergeSort.2 hfirst)
  rw [hsplit] at hsorted hmem ⊢
  rcases List.mem_append.1 hmem with hfront | hback
  · have hbefore := (List.pairwise_append.1 hsorted).2.2 second hfront first List.mem_cons_self
    rw [not_precedes_of_lt hlt] at hbefore
    cases hbefore
  · have hback : second ∈ back := by
      refine (List.mem_cons.1 hback).resolve_left fun heq ↦ ?_
      rw [heq] at hlt
      omega
    exact ((List.singleton_sublist.2 hback).cons_cons first).trans (List.sublist_append_right front _)

end Entry

namespace Document

/-! ## What a document states -/

/-- An entry that a document declares, at a place and with the members of its binding.  The text of an
argument has no binding.  The inputs are those of a list, and have entries when they have bindings. -/
inductive Declares (raw : Json) : String → Entries Json → Prop
  | text {items : List Json} {index : Nat} {text : String} :
      raw.get? "arguments" = some (.array items) → items[index]? = some (.string text) →
      Declares raw (elementAt (child root "arguments") index) []
  | argument {items : List Json} {index : Nat} {binding : Entries Json} :
      raw.get? "arguments" = some (.array items) → items[index]? = some (.object binding) →
      Declares raw (elementAt (child root "arguments") index) binding
  | input {items : List Json} {index : Nat} {members binding : Entries Json} :
      raw.get? "inputs" = some (.array items) → items[index]? = some (.object members) →
      members.lookup "inputBinding" = some (.object binding) →
      Declares raw (elementAt (child root "inputs") index) binding

/-- The position that a binding states: a whole number, however it is written, and 0 when there is
none. -/
def statedPosition? (binding : Entries Json) : Option Int :=
  match binding.lookup "position" with
  | none => some 0
  | some (.number n) => n.whole?
  | some _ => none

/-- A binding states no position, or a 64-bit integer. -/
def HasWordPosition (binding : Entries Json) : Prop :=
  ∀ position, binding.lookup "position" = some position → position.int64?.isSome

/-- A binding without a position that is a 64-bit integer is read as one with the position 0. -/
theorem positionOf_of_not_hasWordPosition {binding : Entries Json} (h : ¬ HasWordPosition binding) :
    positionOf binding = 0 := by
  unfold positionOf
  cases hposition : binding.lookup "position" with
  | none => rfl
  | some position =>
      cases hword : position.int64? with
      | none =>
          rw [Option.bind_some, hword]
          rfl
      | some n =>
          refine absurd (fun found hfound ↦ ?_) h
          rw [hposition] at hfound
          cases hfound
          exact Option.isSome_iff_exists.2 ⟨n, hword⟩

/-- A position that is a 64-bit integer is read as it is stated. -/
theorem statedPosition?_eq_positionOf {binding : Entries Json} (h : HasWordPosition binding) :
    statedPosition? binding = some (positionOf binding) := by
  unfold statedPosition? positionOf
  cases hposition : binding.lookup "position" with
  | none => rfl
  | some position =>
      obtain ⟨n, hn⟩ := Option.isSome_iff_exists.1 (h position hposition)
      cases position with
      | number value =>
          cases value with
          | int found =>
              have hfound : found = n := Option.some.inj (Option.ite_none_right_eq_some.1 hn).2
              rw [Option.bind_some, hn, hfound]
              rfl
          | double => cases hn
      | null | bool | string | array | object => cases hn

/-- A position is read as it is stated when it is a 64-bit integer or 0. -/
theorem positionOf_eq_of_statedPosition? {binding : Entries Json} {position : Int}
    (hstated : statedPosition? binding = some position) (h : HasWordPosition binding ∨ position = 0) :
    positionOf binding = position := by
  by_cases hword : HasWordPosition binding
  · exact Option.some.inj ((statedPosition?_eq_positionOf hword).symm.trans hstated)
  · rw [positionOf_of_not_hasWordPosition hword, h.resolve_left hword]

/-! ## What the schema accepts -/

/-- A binding that the schema accepts states a position. -/
theorem exists_statedPosition?_of_accepts {binding : Entries Json}
    (h : bindingSchema.accepts (.object binding) = true) :
    ∃ position, statedPosition? binding = some position := by
  unfold bindingSchema at h
  have hproperties := Schema.accepts_all_iff.1 h _ (.tail _ (.head _))
  unfold statedPosition?
  cases hlookup : binding.lookup "position" with
  | none => exact ⟨0, rfl⟩
  | some position =>
      have htype := Schema.accepts_of_properties hproperties rfl hlookup
      obtain ⟨type, htype, haccepts⟩ := Schema.accepts_type_iff.1 htype
      obtain rfl := List.mem_singleton.1 htype
      cases position with
      | number value =>
          cases value with
          | int n => exact ⟨n, rfl⟩
          | double x => exact ⟨x.toInt, if_pos haccepts⟩
      | null | bool | string | array | object => cases haccepts

/-- The arguments and the listed inputs of a document that the schema of tools accepts keep their
schemas. -/
theorem accepts_of_toolSchema {raw : Json} (h : toolSchema.accepts raw = true) {items : List Json} :
    (raw.get? "arguments" = some (.array items) →
      ∀ item ∈ items, (Schema.oneOf [stringSchema, bindingSchema]).accepts item = true) ∧
    (raw.get? "inputs" = some (.array items) → ∀ item ∈ items, inputSchema.accepts item = true) := by
  obtain ⟨members, rfl, hmembers⟩ := Schema.exists_members_of_accepts h
  constructor
  · intro harguments
    obtain ⟨_, ⟨⟩, hitems⟩ := Schema.exists_items_of_accepts (hmembers rfl harguments)
    exact hitems
  · intro hinputs
    -- inputs that are a list are no object
    obtain ⟨schema, hschema, haccepts⟩ := Schema.exists_accepts_of_oneOf (hmembers rfl hinputs)
    rcases List.mem_pair.1 hschema with rfl | rfl
    · obtain ⟨_, ⟨⟩, hitems⟩ := Schema.exists_items_of_accepts haccepts
      exact hitems
    · cases haccepts

/-- The entries of a document that the schema accepts state positions. -/
theorem Declares.exists_statedPosition? {raw : Json} {place : String} {binding : Entries Json}
    (h : Declares raw place binding) (haccepts : toolSchema.accepts raw = true) :
    ∃ position, statedPosition? binding = some position := by
  cases h with
  | text => exact ⟨0, rfl⟩
  | argument harguments hitem =>
      have hargument := (accepts_of_toolSchema haccepts).1 harguments _ (List.mem_of_getElem? hitem)
      obtain ⟨schema, hschema, hbinding⟩ := Schema.exists_accepts_of_oneOf hargument
      rcases List.mem_pair.1 hschema with rfl | rfl
      · cases hbinding
      · exact exists_statedPosition?_of_accepts hbinding
  | input hinputs hitem hlookup =>
      have hinput := (accepts_of_toolSchema haccepts).2 hinputs _ (List.mem_of_getElem? hitem)
      unfold inputSchema at hinput
      have hproperties := Schema.accepts_all_iff.1 hinput _ (.tail _ (.head _))
      exact exists_statedPosition?_of_accepts (Schema.accepts_of_properties hproperties rfl hlookup)

/-! ## What is read -/

/-- The position of an argument is that of its object, or 0. -/
theorem position_readArgument {version : DocumentVersion} {place : String} {raw : Json}
    {argument : ToolArgument} (h : readArgument version place raw = .ok argument) :
    argument.position = positionOf (raw.members?.getD []) := by
  cases raw with
  | string text =>
      rw [readArgument] at h
      split at h <;> cases h <;> rfl
  | object members =>
      obtain ⟨binding, -, h⟩ := bind_eq_ok_iff.1 h
      cases h
      rfl
  | null | bool | number | array => cases h

/-- An item of the list of arguments is read as an entry. -/
theorem IsReadFrom.exists_argumentEntry {members : Entries Json} {tool : Tool}
    (h : IsReadFrom tool members) {items : List Json} {index : Nat} {item : Json}
    (harguments : members.lookup "arguments" = some (.array items)) (hitem : items[index]? = some item) :
    ∃ entry ∈ tool.entries, entry.position = positionOf (item.members?.getD []) ∧
      entry.target.location = elementAt (child root "arguments") index := by
  have hread := h.arguments
  unfold readArguments at hread
  rw [harguments] at hread
  obtain ⟨argument, hargument, hread⟩ := getElem?_readItems hread hitem
  rw [Nat.zero_add] at hread
  refine ⟨⟨argument.position, none, .argument argument.argument⟩, ?_, position_readArgument hread,
    location_readArgument hread⟩
  exact List.mem_append_left _ (List.mem_map.2 ⟨argument, List.mem_of_getElem? hargument, rfl⟩)

/-- A declared entry is an entry of the tool, with the position that is read from its binding. -/
theorem Declares.exists_entry {members binding : Entries Json} {place : String} {tool : Tool}
    (h : Declares (.object members) place binding) (hread : IsReadFrom tool members) :
    ∃ entry ∈ tool.entries, entry.position = positionOf binding ∧ entry.target.location = place := by
  cases h with
  | text harguments hitem => exact hread.exists_argumentEntry harguments hitem
  | argument harguments hitem => exact hread.exists_argumentEntry harguments hitem
  | @input items index inputMembers binding hinputs hitem hlookup =>
      have hlist := hread.inputs
      rw [show members.lookup "inputs" = some (.array items) from hinputs, listForm] at hlist
      obtain ⟨input, hinput, hreadInput⟩ := getElem?_readItems hlist hitem
      rw [Nat.zero_add] at hreadInput
      obtain ⟨found, hfound, hlocation, hposition⟩ := exists_of_readInput hreadInput
      cases hfound
      have hposition : input.position = some (positionOf binding) := by
        rw [hposition, hlookup]
        rfl
      refine ⟨⟨positionOf binding, some input.input.id, .input input.input⟩, ?_, rfl, hlocation⟩
      refine List.mem_append_right _ (List.mem_filterMap.2 ⟨input, List.mem_of_getElem? hinput, ?_⟩)
      rw [hposition]
      rfl

end Document

/-! ## Order -/

/-- Of two members of a list without repetitions only one stands before the other. -/
theorem not_pair_sublist_of_nodup {α : Type} {values : List α} (hnodup : values.Nodup) {first second : α}
    (h : [first, second].Sublist values) : ¬ [second, first].Sublist values := by
  induction hnodup with
  | nil => cases h
  | @cons head rest hhead _ ih =>
      intro hback
      cases h with
      | cons _ hrest =>
          cases hback with
          | cons _ hback => exact ih hrest hback
          | cons_cons => exact hhead second (hrest.subset (by simp)) rfl
      | cons_cons _ hrest =>
          cases hback with
          | cons _ hback => exact hhead first (hback.subset (by simp)) rfl
          | cons_cons => exact hhead first (hrest.subset (by simp)) rfl

namespace Tool

/-- In a tool document that the schema accepts every entry states a position.  An entry with a smaller
position is started earlier and its fragment does not come later than that of the other entry, if both
positions are 64-bit integers or 0. -/
theorem sublist_of_statedPosition_lt {raw : Json} {tool : Tool} {first second : String}
    {firstBinding secondBinding : Entries Json}
    (haccepts : Document.toolSchema.accepts raw = true) (hread : Document.readTool raw = .ok tool)
    (hfirst : Document.Declares raw first firstBinding)
    (hsecond : Document.Declares raw second secondBinding) :
    ∃ p q, Document.statedPosition? firstBinding = some p ∧
      Document.statedPosition? secondBinding = some q ∧
      (p < q → (Document.HasWordPosition firstBinding ∨ p = 0) →
        (Document.HasWordPosition secondBinding ∨ q = 0) →
        [first, second].Sublist (tool.targets.map Target.location) ∧
        ∀ evaluator job runtime, ¬ [second, first].Sublist
          ((tool.assemble evaluator job runtime).fragments.map Fragment.location)) := by
  obtain ⟨p, hp⟩ := hfirst.exists_statedPosition? haccepts
  obtain ⟨q, hq⟩ := hsecond.exists_statedPosition? haccepts
  refine ⟨p, q, hp, hq, fun hlt hfirstWord hsecondWord ↦ ?_⟩
  obtain ⟨members, rfl, hparts⟩ := Document.exists_isReadFrom hread
  obtain ⟨a, ha, haposition, haplace⟩ := hfirst.exists_entry hparts
  obtain ⟨b, hb, hbposition, hbplace⟩ := hsecond.exists_entry hparts
  have hentries : [a, b].Sublist (tool.entries.mergeSort Entry.precedes) := by
    refine Entry.pair_sublist_mergeSort ha hb ?_
    rw [haposition, hbposition, Document.positionOf_eq_of_statedPosition? hp hfirstWord,
      Document.positionOf_eq_of_statedPosition? hq hsecondWord]
    exact hlt
  have htargets : [first, second].Sublist (tool.targets.map Target.location) := by
    rw [← haplace, ← hbplace]
    exact ((hentries.map Entry.target).trans (List.sublist_append_left _ _)).map Target.location
  refine ⟨htargets, fun evaluator job runtime hback ↦ ?_⟩
  exact not_pair_sublist_of_nodup (nodup_location_targets hparts) htargets
    (hback.trans (tool.sublist_location_fragments evaluator job runtime))

/-- The binding of an argument with a position. -/
def positionedBinding (text : String) (position : Number) : Entries Json :=
  [("valueFrom", .string text), ("position", .number position)]

/-- A tool whose two arguments have the given positions. -/
def positionedEcho (first second : Number) : Json :=
  .object [("baseCommand", .string "echo"), ("inputs", .array []),
    ("arguments", .array
      [.object (positionedBinding "second" first), .object (positionedBinding "first" second)])]

/-- Both arguments of such a tool are declared, at their places. -/
theorem declares_positionedEcho (first second : Number) :
    Document.Declares (positionedEcho first second) "document.arguments[0]"
      (positionedBinding "second" first) ∧
    Document.Declares (positionedEcho first second) "document.arguments[1]"
      (positionedBinding "first" second) := by
  constructor
  · show Document.Declares _ (Document.elementAt (Document.child Document.root "arguments") 0) _
    exact .argument rfl rfl
  · show Document.Declares _ (Document.elementAt (Document.child Document.root "arguments") 1) _
    exact .argument rfl rfl

/-- The argument with the position 1 stands before that with the position 2. -/
theorem sublist_of_statedPosition_lt_echo :
    ∃ tool, Document.readTool (positionedEcho (.int 2) (.int 1)) = .ok tool ∧
      ["document.arguments[1]", "document.arguments[0]"].Sublist (tool.targets.map Target.location) ∧
      ∀ evaluator job runtime, ¬ ["document.arguments[0]", "document.arguments[1]"].Sublist
        ((tool.assemble evaluator job runtime).fragments.map Fragment.location) := by
  obtain ⟨hsecond, hfirst⟩ := declares_positionedEcho (.int 2) (.int 1)
  obtain ⟨tool, hread⟩ : ∃ tool, Document.readTool (positionedEcho (.int 2) (.int 1)) = .ok tool :=
    ⟨_, rfl⟩
  obtain ⟨p, q, hp, hq, horder⟩ := sublist_of_statedPosition_lt (by decide) hread hfirst hsecond
  cases hp
  cases hq
  refine ⟨tool, hread, horder (by decide) (.inl ?_) (.inl ?_)⟩
  · intro position hposition
    cases hposition
    rfl
  · intro position hposition
    cases hposition
    rfl

/-- The schema accepts the position `2.0`, but the argument with it stands before that with the
position 1. -/
theorem positions_of_doubles :
    Document.toolSchema.accepts (positionedEcho (.double ⟨0x4000000000000000⟩) (.int 1)) = true ∧
    Document.Declares (positionedEcho (.double ⟨0x4000000000000000⟩) (.int 1)) "document.arguments[1]"
      (positionedBinding "first" (.int 1)) ∧
    Document.Declares (positionedEcho (.double ⟨0x4000000000000000⟩) (.int 1)) "document.arguments[0]"
      (positionedBinding "second" (.double ⟨0x4000000000000000⟩)) ∧
    Document.statedPosition? (positionedBinding "first" (.int 1)) = some 1 ∧
    Document.statedPosition? (positionedBinding "second" (.double ⟨0x4000000000000000⟩)) = some 2 ∧
    ∃ tool, Document.readTool (positionedEcho (.double ⟨0x4000000000000000⟩) (.int 1)) = .ok tool ∧
      (tool.assemble (Formula.evaluator 9) (.mapping []) {}).fragments.map Fragment.location =
        ["document.arguments[0]", "document.arguments[1]"] := by
  obtain ⟨hsecond, hfirst⟩ := declares_positionedEcho (.double ⟨0x4000000000000000⟩) (.int 1)
  refine ⟨by decide +kernel, hfirst, hsecond, rfl, by decide +kernel, _, rfl, ?_⟩
  cbv

end Tool

end Invocation
