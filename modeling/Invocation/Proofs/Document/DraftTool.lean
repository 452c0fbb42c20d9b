import Invocation.Assembly
import Invocation.Proofs.Document.DraftType

/-!
# Draft documents of tools

A document and a draft document of the same tool differ in the names and the references only, and are read
as the same tool but for its version (`readTool_draft`).  So both have the same command lines.
-/

namespace Invocation.Document

/-! ## Inputs and arguments -/

/-- What a draft document has for the members of an input. -/
structure DraftsInputMembers (members others : Entries Json) : Prop where
  id : Option.Rel DraftsName (members.lookup "id") (others.lookup "id")
  type : Option.Rel DraftsType (members.lookup "type") (others.lookup "type")
  inputBinding : Option.Rel DraftsBinding (members.lookup "inputBinding") (others.lookup "inputBinding")
  default : others.lookup "default" = members.lookup "default"

/-- What a draft document has for an input of a list. -/
inductive DraftsInput : Json → Json → Prop
  | object {members others : Entries Json} :
      DraftsInputMembers members others → DraftsInput (.object members) (.object others)
  | other {raw : Json} : raw.members? = none → DraftsInput raw raw

/-- What a draft document has for an input under its id: an object, or the type alone. -/
inductive DraftsInputEntry : String × Json → String × Json → Prop
  | object {id other : String} {members others : Entries Json} : IsSigned id other →
      DraftsInputMembers members others → DraftsInputEntry (id, .object members) (other, .object others)
  | type {id other : String} {raw draft : Json} : IsSigned id other → raw.members? = none →
      DraftsType raw draft → DraftsInputEntry (id, raw) (other, draft)

/-- What a draft document has for the inputs, in a list or under their ids. -/
inductive DraftsInputs : Json → Json → Prop
  | array {items others : List Json} :
      List.Forall₂ DraftsInput items others → DraftsInputs (.array items) (.array others)
  | object {members others : Entries Json} :
      List.Forall₂ DraftsInputEntry members others → DraftsInputs (.object members) (.object others)
  | other {raw : Json} : raw.members? = none → (∀ items, raw ≠ .array items) → DraftsInputs raw raw

/-- What a draft document has for the arguments.  A text stays as it is. -/
inductive DraftsArguments : Json → Json → Prop
  | array {items others : List Json} :
      List.Forall₂ DraftsBinding items others → DraftsArguments (.array items) (.array others)
  | other {raw : Json} : (∀ items, raw ≠ .array items) → DraftsArguments raw raw

/-- The members of a document and those of a draft document of the same tool. -/
structure HasDraft (members others : Entries Json) : Prop where
  version : DocumentVersion.ofName? (members.string? "cwlVersion") = some .v1
  draftVersion : others.string? "cwlVersion" = some "sbg:draft-2"
  id : Option.Rel DraftsName (members.lookup "id") (others.lookup "id")
  baseCommand : others.lookup "baseCommand" = members.lookup "baseCommand"
  inputs : Option.Rel DraftsInputs (members.lookup "inputs") (others.lookup "inputs")
  arguments : Option.Rel DraftsArguments (members.lookup "arguments") (others.lookup "arguments")
  stdin : Option.Rel DraftsExpression (members.lookup "stdin") (others.lookup "stdin")
  stdout : Option.Rel DraftsExpression (members.lookup "stdout") (others.lookup "stdout")

/-! ## Reading inputs -/

/-- Items are read alike when each of them is. -/
theorem readItems_congr {α : Type} {R : Json → Json → Prop} {first second : String → Json → Reading α}
    (hitem : ∀ item other, R item other → ∀ place, second place other = first place item)
    {items others : List Json} (h : List.Forall₂ R items others) (location : String) (index : Nat) :
    readItems second location index others = readItems first location index items := by
  induction h generalizing index with
  | nil => rfl
  | cons hrel _ ih => rw [readItems, readItems, hitem _ _ hrel, ih]

/-- Positions are read alike. -/
theorem map_positionOf_draft {raw draft : Option Json} (h : Option.Rel DraftsBinding raw draft) :
    (draft.bind Json.members?).map positionOf = (raw.bind Json.members?).map positionOf := by
  cases h with
  | none => rfl
  | some h =>
      cases h with
      | object h =>
          show some (positionOf _) = some (positionOf _)
          unfold positionOf
          rw [h.same "position" (by simp)]
      | other hnone => rfl

/-- Inputs are read alike. -/
theorem readInput_draft {raw draft : Json} (h : DraftsInput raw draft) (place : String) :
    readInput .draft2 place draft = readInput .v1 place raw := by
  cases h with
  | @object members others h =>
      have hid : (others.string? "id").map (plainName .draft2) =
          (members.string? "id").map (plainName .v1) := map_plainName_eq h.id
      have htype := readTypeAt_draft (fun member _ ↦ readsAlike member.2) h.type (child place "type")
      unfold readInput
      simp only [Json.members?]
      cases hraw : members.string? "id" with
      | none =>
          rw [hraw] at hid
          rw [Option.map_eq_none_iff.1 hid]
      | some id =>
          rw [hraw] at hid
          obtain ⟨other, hdraft, hname⟩ := Option.map_eq_some_iff.1 hid
          rw [hdraft]
          simp only [hname, htype, readBinding?_draft h.inputBinding, h.default,
            map_positionOf_draft h.inputBinding]
  | other hnone => simp only [readInput, hnone]

/-- An input under its id has the members of an input. -/
theorem DraftsInputEntry.parts {raw draft : String × Json} (h : DraftsInputEntry raw draft) :
    DraftsInputMembers (entryMembers "id" "type" raw.1 raw.2) (entryMembers "id" "type" draft.1 draft.2) := by
  cases h with
  | object hsigned h =>
      refine ⟨rel_addMissing hsigned h.id, ?_, ?_, ?_⟩
      · simpa [entryMembers, lookup_addMissing, Json.members?] using h.type
      · simpa [entryMembers, lookup_addMissing, Json.members?] using h.inputBinding
      · simpa [entryMembers, lookup_addMissing, Json.members?] using h.default
  | type hsigned hnone htype =>
      have hdraft := htype.members?_eq_none hnone
      refine ⟨rel_addMissing hsigned ?_, ?_, ?_, ?_⟩
      · simp [hnone, hdraft, List.lookup_cons]
      · simpa [entryMembers, lookup_addMissing, hnone, hdraft, List.lookup_cons] using htype
      · simp [entryMembers, lookup_addMissing, hnone, hdraft, List.lookup_cons]
      · simp [entryMembers, lookup_addMissing, hnone, hdraft, List.lookup_cons]

/-- The items of the inputs are inputs, however they are written. -/
theorem forall₂_listForm {raw draft : Option Json} (h : Option.Rel DraftsInputs raw draft) :
    List.Forall₂ DraftsInput (listForm "id" "type" raw) (listForm "id" "type" draft) := by
  cases h with
  | none => exact .nil
  | some h =>
      cases h with
      | array h => exact h
      | object h =>
          rw [listForm, listForm, List.forall₂_map_left_iff, List.forall₂_map_right_iff]
          exact h.imp fun _ _ hentry ↦ .object hentry.parts
      | other hnone hnot =>
          rename_i raw
          cases raw with
          | array items => exact absurd rfl (hnot items)
          | object members => cases hnone
          | null | bool | number | string => exact .nil

/-! ## Reading arguments and redirections -/

/-- Arguments are read alike. -/
theorem readArgument_draft {raw draft : Json} (h : DraftsBinding raw draft) (place : String) :
    readArgument .draft2 place draft = readArgument .v1 place raw := by
  cases h with
  | object h =>
      have hposition : positionOf _ = positionOf _ :=
        Option.some.inj (map_positionOf_draft (.some (.object h)))
      rw [readArgument, readArgument, h.readBinding_eq, hposition]
  | other hnone =>
      cases raw with
      | object => cases hnone
      | null | bool | number | string | array => rfl

/-- The lists of arguments are read alike. -/
theorem readArguments_draft {members others : Entries Json}
    (h : Option.Rel DraftsArguments (members.lookup "arguments") (others.lookup "arguments")) :
    readArguments .draft2 others = readArguments .v1 members := by
  unfold readArguments
  rcases rel_iff.1 h with ⟨hraw, hdraft⟩ | ⟨raw, draft, hraw, hdraft, h⟩
  · rw [hraw, hdraft]
  · rw [hraw, hdraft]
    cases h with
    | array h => exact readItems_congr (fun _ _ hbinding ↦ readArgument_draft hbinding) h _ 0
    | other hnot =>
        cases raw with
        | array items => exact absurd rfl (hnot items)
        | null | bool | number | string | object => rfl

/-- Redirections are read alike. -/
theorem readStream_draft {members others : Entries Json} (kind : StreamKind)
    (h : Option.Rel DraftsExpression (members.lookup kind.name) (others.lookup kind.name)) :
    readStream .draft2 kind others = readStream .v1 kind members := by
  unfold readStream
  simp only [readExpression?_draft h]

/-! ## Reading tools -/

/-- The words of a base command depend on its member alone. -/
theorem readBaseCommand_congr {members others : Entries Json}
    (h : others.lookup "baseCommand" = members.lookup "baseCommand") :
    readBaseCommand others = readBaseCommand members := by
  unfold readBaseCommand
  rw [h]

/-- The inputs are read alike. -/
theorem readInputs_draft {members others : Entries Json}
    (h : Option.Rel DraftsInputs (members.lookup "inputs") (others.lookup "inputs")) :
    readItems (readInput .draft2) (child root "inputs") 0 (listForm "id" "type" (others.lookup "inputs")) =
      readItems (readInput .v1) (child root "inputs") 0
        (listForm "id" "type" (members.lookup "inputs")) :=
  readItems_congr (fun _ _ hinput ↦ readInput_draft hinput) (forall₂_listForm h) _ 0

/-- The version of a document is the one that it names. -/
theorem readVersion_of_ofName? {members : Entries Json} {version : DocumentVersion}
    (h : DocumentVersion.ofName? (members.string? "cwlVersion") = some version) :
    readVersion members = .ok version := by
  unfold readVersion
  simp only [h]

/-- The parts of a tool are read in their order, by the rules of its version. -/
theorem readTool_of_readVersion {members : Entries Json} {version : DocumentVersion}
    (h : readVersion members = .ok version) :
    readTool (.object members) = (do
      let baseCommand ← readBaseCommand members
      let inputs ← readItems (readInput version) (child root "inputs") 0
        (listForm "id" "type" (members.lookup "inputs"))
      let arguments ← readArguments version members
      let stdin ← readStream version .stdin members
      let stdout ← readStream version .stdout members
      return ⟨(members.string? "id").map (plainName version), version, baseCommand, arguments, inputs, stdin,
        stdout⟩) := by
  unfold readTool
  simp only [Json.members?, h]
  rfl

/-- A document and its draft are read as the same tool but for its version, or have the same fault.  So
they have the same command lines, for every job. -/
theorem readTool_draft {members others : Entries Json} (h : HasDraft members others) :
    readTool (.object others) =
        (readTool (.object members)).map (fun tool ↦ { tool with version := .draft2 }) ∧
      ∀ tool, readTool (.object members) = .ok tool →
        ∃ draft, readTool (.object others) = .ok draft ∧
          (∀ evaluator job runtime,
            draft.assemble evaluator job runtime = tool.assemble evaluator job runtime) ∧
          ∀ clock deadline job runtime, draft.assembleTimed clock deadline job runtime =
            tool.assembleTimed clock deadline job runtime := by
  have hread : readTool (.object others) =
      (readTool (.object members)).map (fun tool ↦ { tool with version := .draft2 }) := by
    have hid : (others.string? "id").map (plainName .draft2) =
        (members.string? "id").map (plainName .v1) := map_plainName_eq h.id
    have hversion : DocumentVersion.ofName? (others.string? "cwlVersion") = some .draft2 := by
      rw [h.draftVersion]
      rfl
    rw [readTool_of_readVersion (readVersion_of_ofName? h.version),
      readTool_of_readVersion (readVersion_of_ofName? hversion),
      readBaseCommand_congr h.baseCommand, readInputs_draft h.inputs, readArguments_draft h.arguments,
      readStream_draft .stdin h.stdin, readStream_draft .stdout h.stdout, hid]
    -- the first fault is the fault of both
    show _ = (fun tool ↦ { tool with version := .draft2 }) <$> (_ : Reading Tool)
    simp only [map_bind, map_pure]
  refine ⟨hread, fun tool htool ↦ ?_⟩
  rw [htool] at hread
  exact ⟨_, hread, fun _ _ _ ↦ rfl, fun _ _ _ _ ↦ rfl⟩

/-- A field with an enumeration of one symbol. -/
def modeField (mode fast : String) : Json :=
  .object [("name", .string mode),
    ("type", .object [("type", .string "enum"), ("symbols", .array [.string fast])])]

/-- A field whose text is an expression. -/
def readsField (path : Json) : Json :=
  .object [("name", .string "reads"), ("type", .array [.string "null", .string "File[]"]),
    ("inputBinding", .object [("prefix", .string "-r"), ("valueFrom", path)])]

/-- A tool with a record of a mode and reads, and with a redirection. -/
def aligner (version sample mode fast : String) (path log : Json) : Entries Json :=
  [("cwlVersion", .string version), ("baseCommand", .string "align"),
    ("inputs", .object [(sample, .object [("inputBinding", .object []),
      ("type", .object [("type", .string "record"),
        ("fields", .array [modeField mode fast, readsField path])])])]),
    ("stdout", log)]

/-- Signed names and drafted expressions make a draft of the tool. -/
theorem hasDraft_aligner {sample mode fast sample' mode' fast' : String} {path log path' log' : Json}
    (hsample : IsSigned sample sample') (hmode : IsSigned mode mode') (hfast : IsSigned fast fast')
    (hpath : DraftsExpression path path') (hlog : DraftsExpression log log') :
    HasDraft (aligner "v1.0" sample mode fast path log)
      (aligner "sbg:draft-2" sample' mode' fast' path' log') := by
  have hfirst : DraftsField (modeField mode fast) (modeField mode' fast') := by
    refine .object (.some (.text hmode)) (.some (.object rfl .none ?_ ?_ ?_)) .none
    · simp [Entries.string?, Json.string?]
    · simp [Entries.string?, Json.string?]
    · exact fun _ ↦ .some (.array (.cons (.text hfast) .nil))
  have hsecond : DraftsField (readsField path) (readsField path') := by
    refine .object (.some (.text ⟨by decide, .inl rfl⟩)) (.some (.union ?_)) (.some (.object ?_))
    · exact .cons (.string "null") (.cons (.string "File[]") .nil)
    · exact ⟨.some hpath, by simp [List.lookup_cons]⟩
  have hrecord : DraftsType
      (.object [("type", .string "record"), ("fields", .array [modeField mode fast, readsField path])])
      (.object [("type", .string "record"),
        ("fields", .array [modeField mode' fast', readsField path'])]) := by
    refine .object rfl .none ?_ (fun _ ↦ .some (.array (.cons hfirst (.cons hsecond .nil)))) ?_
    · simp [Entries.string?, Json.string?]
    · simp [Entries.string?, Json.string?]
  refine ⟨rfl, rfl, .none, rfl, .some (.object (.cons (.object hsample ?_) .nil)), .none, .none,
    .some hlog⟩
  exact ⟨.none, .some hrecord, .some (.object ⟨.none, by simp⟩), rfl⟩

/-- A reference that is the whole text. -/
def wholeReference (body : String) : Json :=
  .string ("$(" ++ body ++ ")")

/-- An object with a script. -/
def scriptObject (script : String) : Json :=
  .object [("class", .string "Expression"), ("script", .string script)]

/-- The names of an input, a field and a symbol are signed, and two references become scripts. -/
theorem readTool_draft_aligner :
    ∃ tool, readTool (.object (aligner "v1.0" "sample" "mode" "fast" (wholeReference "self.path")
        (wholeReference "inputs.sample.mode"))) = .ok tool ∧
      readTool (.object (aligner "sbg:draft-2" "#sample" "#mode" "#fast" (scriptObject "$self.path")
        (scriptObject "$job.inputs.sample.mode"))) = .ok { tool with version := .draft2 } := by
  have hpath : DraftsExpression (wholeReference "self.path") (scriptObject "$self.path") :=
    .script (by decide) (by decide +kernel) (by simp) rfl (by decide +kernel)
  have hlog : DraftsExpression (wholeReference "inputs.sample.mode")
      (scriptObject "$job.inputs.sample.mode") :=
    .script (by decide) (by decide +kernel) (by simp) rfl (by decide +kernel)
  have hsample : IsSigned "sample" "#sample" := ⟨by decide, .inr rfl⟩
  have hmode : IsSigned "mode" "#mode" := ⟨by decide, .inr rfl⟩
  have hfast : IsSigned "fast" "#fast" := ⟨by decide, .inr rfl⟩
  obtain ⟨tool, htool⟩ : ∃ tool, readTool (.object (aligner "v1.0" "sample" "mode" "fast"
      (wholeReference "self.path") (wholeReference "inputs.sample.mode"))) = .ok tool := ⟨_, rfl⟩
  have hread := (readTool_draft (hasDraft_aligner hsample hmode hfast hpath hlog)).1
  rw [htool] at hread
  exact ⟨tool, htool, hread⟩

end Invocation.Document
