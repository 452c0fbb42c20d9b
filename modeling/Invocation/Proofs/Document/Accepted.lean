import Invocation.Document.Schema
import Invocation.Proofs.Document.Faults
import Invocation.Proofs.Json.Schema
import Mathlib.Data.List.Basic

/-!
# Documents that the schema of tools accepts

The schema of tools fixes the coarse form of a document.  A document that it accepts can still have faults,
but only these: a version that is not supported, faults in the type of an input, in newer documents the
scripts of draft documents, and faults in the entries of inputs that are written as an object
(`readTool_of_accepts`).
-/

namespace Invocation.Document

/-! ## Faults that the schema leaves -/

/-- The value is an object with the script of an expression. -/
structure IsScript (raw : Json) : Prop where
  kind : raw.get? "class" = some (.string "Expression")
  exists_script : ∃ script, raw.get? "script" = some (.string script)

/-- The document uses the value as an expression, at a place: for a redirection, in an argument, or in the
binding of an input in a list. -/
inductive UsesExpression (raw : Json) : String → Json → Prop where
  | stream (kind : StreamKind) {value : Json} :
      raw.get? kind.name = some value → UsesExpression raw (child root kind.name) value
  | argument {items : List Json} {index : Nat} {argument value : Json} :
      raw.get? "arguments" = some (.array items) → items[index]? = some argument →
      argument.get? "valueFrom" = some value →
      UsesExpression raw (child (elementAt (child root "arguments") index) "valueFrom") value
  | input {items : List Json} {index : Nat} {input binding value : Json} :
      raw.get? "inputs" = some (.array items) → items[index]? = some input →
      input.get? "inputBinding" = some binding → binding.get? "valueFrom" = some value →
      UsesExpression raw
        (child (child (elementAt (child root "inputs") index) "inputBinding") "valueFrom") value

/-- The version that the document states. -/
def statedVersion? (raw : Json) : Option String :=
  (raw.get? "cwlVersion").bind Json.string?

/-- An error that a document can have although the schema of tools accepts it. -/
inductive LeftOpen (raw : Json) : DocumentError → Prop where
  | version :
      DocumentVersion.ofName? (statedVersion? raw) = none →
      LeftOpen raw ⟨child root "cwlVersion", .unsupportedVersion ((statedVersion? raw).getD "")⟩
  | type {items : List Json} {index : Nat} {error : DocumentError} :
      raw.get? "inputs" = some (.array items) → index < items.length →
      IsTypeError (child (elementAt (child root "inputs") index) "type") error → LeftOpen raw error
  | script {place : String} {value : Json} :
      DocumentVersion.ofName? (statedVersion? raw) = some .v1 → UsesExpression raw place value →
      IsScript value → LeftOpen raw ⟨place, .expressionForm⟩
  | entry {entries : Entries Json} {index : Nat} {error : DocumentError} :
      raw.get? "inputs" = some (.object entries) → index < entries.length →
      Within (elementAt (child root "inputs") index) error.location →
      error.fault.OfType ∨ error.fault = .inputWithoutId → LeftOpen raw error

/-! ## Expressions and bindings -/

variable {version : DocumentVersion} {place : String} {raw : Json}

/-- The error of a script in a newer document. -/
structure IsScriptError (version : DocumentVersion) (place : String) (raw : Json) (error : DocumentError) :
    Prop where
  version_eq : version = .v1
  script : IsScript raw
  eq : error = ⟨place, .expressionForm⟩

/-- An accepted expression is a text or a script. -/
theorem exists_of_expressionSchema (h : expressionSchema.accepts raw = true) :
    (∃ source, raw = .string source) ∨ IsScript raw := by
  obtain ⟨schema, hschema, haccepts⟩ := Schema.exists_accepts_of_oneOf h
  rcases List.mem_pair.1 hschema with rfl | rfl
  · exact .inl (Schema.exists_string_of_accepts haccepts)
  · obtain ⟨members, rfl, hmembers⟩ := Schema.exists_members_of_accepts haccepts
    have hrequired := Schema.accepts_required_iff.1
      (Schema.accepts_all_iff.1 haccepts _ (.tail _ (.tail _ (.head _))))
    obtain ⟨kind, hkind⟩ := hrequired "class" (.head _)
    obtain ⟨script, hscript⟩ := hrequired "script" (.tail _ (.head _))
    obtain ⟨text, rfl⟩ := Schema.exists_string_of_accepts (hmembers rfl hscript)
    obtain rfl := Schema.accepts_const_iff.1 (hmembers rfl hkind)
    exact .inr ⟨hkind, text, hscript⟩

/-- A script is read in draft documents only. -/
theorem IsScript.failsOnly_readExpression (h : IsScript raw) (version : DocumentVersion) (place : String) :
    FailsOnly (IsScriptError version place raw) (readExpression version place raw) := by
  obtain ⟨hkind, script, hscript⟩ := h
  cases raw with
  | object members =>
      have hclass : Entries.string? members "class" = some "Expression" :=
        Option.bind_eq_some_iff.2 ⟨_, hkind, rfl⟩
      have htext : Entries.string? members "script" = some script :=
        Option.bind_eq_some_iff.2 ⟨_, hscript, rfl⟩
      cases version with
      | v1 => exact .error ⟨rfl, ⟨hkind, script, hscript⟩, rfl⟩
      | draft2 =>
          rw [readExpression, if_pos ⟨rfl, hclass⟩, htext]
          exact .ok _
  | null | bool | number | string | array => cases hkind

/-- An accepted expression fails as a script in a newer document only. -/
theorem failsOnly_readExpression_of_accepts (h : expressionSchema.accepts raw = true) :
    FailsOnly (IsScriptError version place raw) (readExpression version place raw) := by
  rcases exists_of_expressionSchema h with ⟨source, rfl⟩ | hscript
  · exact .ok _
  · exact hscript.failsOnly_readExpression version place

/-- An accepted binding fails in its expression only, if that is a script in a newer document. -/
theorem failsOnly_readBinding_of_accepts {members : Entries Json}
    (h : bindingSchema.accepts (.object members) = true) :
    FailsOnly (fun error ↦ ∃ value, members.lookup "valueFrom" = some value ∧
        IsScriptError version (child place "valueFrom") value error)
      (readBinding version place members) := by
  obtain ⟨_, ⟨⟩, hmembers⟩ := Schema.exists_members_of_accepts h
  refine FailsOnly.bind ?_ fun _ ↦ .ok _
  cases hvalue : members.lookup "valueFrom" with
  | none => exact .ok _
  | some value =>
      refine FailsOnly.map (.mono ?_ fun _ herror ↦ ⟨value, rfl, herror⟩) _
      obtain ⟨schema, hschema, haccepts⟩ := Schema.exists_accepts_of_oneOf (hmembers rfl hvalue)
      simp only [List.mem_cons, List.not_mem_nil, or_false] at hschema
      rcases hschema with rfl | rfl | rfl
      · exact failsOnly_readExpression_of_accepts haccepts
      · cases value with
        | number => exact .ok _
        | null | bool | string | array | object => cases haccepts
      · cases value with
        | bool => exact .ok _
        | null | number | string | array | object => cases haccepts

/-! ## The parts of a tool -/

/-- An accepted base command has no faults. -/
theorem failsOnly_readBaseCommand {members : Entries Json}
    (h : ∀ value, members.lookup "baseCommand" = some value →
      (Schema.oneOf [stringSchema, .all [.type [.array], .items stringSchema]]).accepts value = true) :
    FailsOnly (fun _ ↦ False) (readBaseCommand members) := by
  unfold readBaseCommand
  cases hvalue : members.lookup "baseCommand" with
  | none => exact .ok _
  | some value =>
      obtain ⟨schema, hschema, haccepts⟩ := Schema.exists_accepts_of_oneOf (h value hvalue)
      rcases List.mem_pair.1 hschema with rfl | rfl
      · obtain ⟨text, rfl⟩ := Schema.exists_string_of_accepts haccepts
        exact .ok _
      · obtain ⟨items, rfl, hitems⟩ := Schema.exists_items_of_accepts haccepts
        refine FailsOnly.mapM fun item hitem ↦ ?_
        obtain ⟨text, rfl⟩ := Schema.exists_string_of_accepts (hitems item hitem)
        exact .ok _

/-- An accepted input of a list fails in its type, or in its binding if that has a script in a newer
document. -/
theorem failsOnly_readInput_of_accepts (h : inputSchema.accepts raw = true) :
    FailsOnly (fun error ↦ IsTypeError (child place "type") error ∨
        ∃ binding value, raw.get? "inputBinding" = some binding ∧ binding.get? "valueFrom" = some value ∧
          IsScriptError version (child (child place "inputBinding") "valueFrom") value error)
      (readInput version place raw) := by
  obtain ⟨members, rfl, hmembers⟩ := Schema.exists_members_of_accepts h
  obtain ⟨id, hid⟩ := Schema.accepts_required_iff.1
    (Schema.accepts_all_iff.1 h _ (.tail _ (.tail _ (.head _)))) "id" (.head _)
  obtain ⟨name, rfl⟩ := Schema.exists_string_of_accepts (hmembers rfl hid)
  have hname : Entries.string? members "id" = some name := Option.bind_eq_some_iff.2 ⟨_, hid, rfl⟩
  unfold readInput
  rw [show (Json.object members).members? = some members from rfl]
  dsimp only
  rw [hname]
  refine FailsOnly.bind ((failsOnly_readTypeAt _ _ _ _).mono fun _ ↦ .inl) fun _ ↦
    FailsOnly.bind ?_ fun _ ↦ .ok _
  cases hbinding : members.lookup "inputBinding" with
  | none => exact .ok _
  | some binding =>
      have haccepts := hmembers rfl hbinding
      obtain ⟨found, rfl, -⟩ := Schema.exists_members_of_accepts haccepts
      refine FailsOnly.map (.mono (failsOnly_readBinding_of_accepts haccepts) ?_) _
      rintro error ⟨value, hvalue, hscript⟩
      exact .inr ⟨_, value, hbinding, hvalue, hscript⟩

/-- An input that is an object fails at its place or below, in its type or its binding or without an id. -/
theorem failsOnly_readInput (version : DocumentVersion) (place : String) (members : Entries Json) :
    FailsOnly (fun error ↦ Within place error.location ∧
        (error.fault.OfType ∨ error.fault = .inputWithoutId))
      (readInput version place (.object members)) := by
  unfold readInput
  rw [show (Json.object members).members? = some members from rfl]
  dsimp only
  split
  · exact .error ⟨.here, .inr rfl⟩
  · refine FailsOnly.bind (.mono (failsOnly_readTypeAt _ _ _ _) ?_) fun _ ↦
      FailsOnly.bind (.mono (failsOnly_readBinding? _ _ _) ?_) fun _ ↦ .ok _
    · exact fun error herror ↦ ⟨(herror.of_child).within, .inl herror.fault⟩
    · exact fun error herror ↦ ⟨(herror.of_child).within, .inl herror.fault⟩

/-- An accepted argument fails in its expression, if that is a script in a newer document. -/
theorem failsOnly_readArgument (h : (Schema.oneOf [stringSchema, bindingSchema]).accepts raw = true) :
    FailsOnly (fun error ↦ ∃ value, raw.get? "valueFrom" = some value ∧
        IsScriptError version (child place "valueFrom") value error)
      (readArgument version place raw) := by
  obtain ⟨schema, hschema, haccepts⟩ := Schema.exists_accepts_of_oneOf h
  rcases List.mem_pair.1 hschema with rfl | rfl
  · obtain ⟨text, rfl⟩ := Schema.exists_string_of_accepts haccepts
    rw [readArgument]
    split <;> exact .ok _
  · obtain ⟨members, rfl, -⟩ := Schema.exists_members_of_accepts haccepts
    exact (failsOnly_readBinding_of_accepts haccepts).bind fun _ ↦ .ok _

/-! ## Tools -/

variable {members : Entries Json} {error : DocumentError}

/-- The version that is read is the one that is stated. -/
theorem readVersion_eq_ok_iff :
    readVersion members = .ok version ↔
      DocumentVersion.ofName? (statedVersion? (.object members)) = some version := by
  show _ ↔ DocumentVersion.ofName? (Entries.string? members "cwlVersion") = _
  unfold readVersion
  dsimp only
  split
  · next hname => rw [hname, Except.ok.injEq, Option.some.injEq]
  · next hname =>
    rw [hname]
    exact ⟨nofun, nofun⟩

/-- A document fails in its version if that is not supported. -/
theorem failsOnly_readVersion : FailsOnly (LeftOpen (.object members)) (readVersion members) := by
  unfold readVersion
  dsimp only
  split
  · exact .ok _
  · next hname => exact .error (.version hname)

/-- The error of a script is left by the schema where the document uses the script. -/
theorem IsScriptError.leftOpen {value : Json}
    (h : IsScriptError version place value error)
    (hversion : DocumentVersion.ofName? (statedVersion? raw) = some version)
    (huses : UsesExpression raw place value) : LeftOpen raw error := by
  obtain ⟨rfl, hscript, rfl⟩ := h
  exact .script hversion huses hscript

/-- Accepted inputs fail in a type or in a script, or in an entry of an object. -/
theorem failsOnly_readInputs
    (hversion : DocumentVersion.ofName? (statedVersion? (.object members)) = some version)
    (h : ∀ value, members.lookup "inputs" = some value →
      (Schema.oneOf [.all [.type [.array], .items inputSchema], .type [.object]]).accepts value = true) :
    FailsOnly (LeftOpen (.object members)) (readItems (readInput version) (child root "inputs") 0
      (listForm "id" "type" (members.lookup "inputs"))) := by
  cases hinputs : members.lookup "inputs" with
  | none => exact .ok _
  | some value =>
      obtain ⟨schema, hschema, haccepts⟩ := Schema.exists_accepts_of_oneOf (h value hinputs)
      refine FailsOnly.readItems fun index item hitem ↦ ?_
      rw [Nat.zero_add]
      rcases List.mem_pair.1 hschema with rfl | rfl
      · obtain ⟨items, rfl, hitems⟩ := Schema.exists_items_of_accepts haccepts
        have hindex : index < items.length := (List.getElem?_eq_some_iff.1 hitem).1
        refine (failsOnly_readInput_of_accepts (hitems item (List.mem_of_getElem? hitem))).mono ?_
        rintro error (htype | ⟨binding, value, hbinding, hvalue, hscript⟩)
        · exact .type hinputs hindex htype
        · exact hscript.leftOpen hversion (.input hinputs hitem hbinding hvalue)
      · cases value with
        | object entries =>
            -- an entry is read from the object that stands for it
            obtain ⟨entry, hentry, rfl⟩ := List.getElem?_map .. ▸ hitem |> Option.map_eq_some_iff.1
            have hindex : index < entries.length := (List.getElem?_eq_some_iff.1 hentry).1
            exact (failsOnly_readInput version _ _).mono fun error ⟨hwithin, hfault⟩ ↦
              .entry hinputs hindex hwithin hfault
        | null | bool | number | string | array => cases haccepts

/-- Accepted arguments fail in a script. -/
theorem failsOnly_readArguments
    (hversion : DocumentVersion.ofName? (statedVersion? (.object members)) = some version)
    (h : ∀ value, members.lookup "arguments" = some value →
      (Schema.all [.type [.array], .items (.oneOf [stringSchema, bindingSchema])]).accepts value = true) :
    FailsOnly (LeftOpen (.object members)) (readArguments version members) := by
  unfold readArguments
  cases harguments : members.lookup "arguments" with
  | none => exact .ok _
  | some value =>
      obtain ⟨items, rfl, hitems⟩ := Schema.exists_items_of_accepts (h value harguments)
      refine FailsOnly.readItems fun index item hitem ↦ ?_
      rw [Nat.zero_add]
      refine (failsOnly_readArgument (hitems item (List.mem_of_getElem? hitem))).mono ?_
      rintro error ⟨value, hvalue, hscript⟩
      exact hscript.leftOpen hversion (.argument harguments hitem hvalue)

/-- An accepted redirection fails as a script. -/
theorem failsOnly_readStream (kind : StreamKind)
    (hversion : DocumentVersion.ofName? (statedVersion? (.object members)) = some version)
    (h : ∀ value, members.lookup kind.name = some value → expressionSchema.accepts value = true) :
    FailsOnly (LeftOpen (.object members)) (readStream version kind members) := by
  refine FailsOnly.bind ?_ fun _ ↦ .ok _
  cases hvalue : members.lookup kind.name with
  | none => exact .ok _
  | some value =>
      refine FailsOnly.map (.mono (failsOnly_readExpression_of_accepts (h value hvalue)) ?_) _
      exact fun error hscript ↦ hscript.leftOpen hversion (.stream kind hvalue)

/-- A document that the schema of tools accepts has only the errors that the schema leaves. -/
theorem failsOnly_readTool (h : toolSchema.accepts raw = true) :
    FailsOnly (LeftOpen raw) (readTool raw) := by
  obtain ⟨members, rfl, hmembers⟩ := Schema.exists_members_of_accepts h
  refine failsOnly_readVersion.bind_of_ok fun version hversion ↦ ?_
  rw [readVersion_eq_ok_iff] at hversion
  refine FailsOnly.bind (.mono (failsOnly_readBaseCommand fun _ ↦ hmembers rfl) fun _ ↦ False.elim)
    fun _ ↦ ?_
  refine (failsOnly_readInputs hversion fun _ ↦ hmembers rfl).bind fun _ ↦ ?_
  refine (failsOnly_readArguments hversion fun _ ↦ hmembers rfl).bind fun _ ↦ ?_
  refine (failsOnly_readStream .stdin hversion fun _ ↦ hmembers rfl).bind fun _ ↦ ?_
  exact (failsOnly_readStream .stdout hversion fun _ ↦ hmembers rfl).bind fun _ ↦ .ok _

/-- A document in the form of the schema is an object with its base command, arguments and inputs in
form. -/
theorem LeftOpen.fault_notMem (h : LeftOpen raw error) :
    error.fault ∉ [.toolNotObject, .baseCommandItem, .baseCommandForm, .argumentsForm, .argumentForm,
      .inputNotObject] := by
  obtain ⟨location, fault⟩ := error
  cases h with
  | version | script => simp
  | type _ _ htype =>
      have hfault : fault.OfType := htype.fault
      cases hfault <;> simp
  | entry _ _ _ hfault =>
      rcases hfault with hfault | hfault
      · have hfault : fault.OfType := hfault
        cases hfault <;> simp
      · simp [show fault = .inputWithoutId from hfault]

/-- An input lacks an id in an object only. -/
theorem LeftOpen.exists_entries (h : LeftOpen raw error) (hfault : error.fault = .inputWithoutId) :
    ∃ entries, raw.get? "inputs" = some (.object entries) := by
  cases h with
  | version | script => cases hfault
  | type _ _ htype =>
      have htype := htype.fault
      rw [hfault] at htype
      cases htype
  | @entry entries _ _ hinputs => exact ⟨entries, hinputs⟩

/-- A draft document with its inputs in a list has faults in their types only. -/
theorem LeftOpen.exists_within_type {items : List Json} (h : LeftOpen raw error)
    (hversion : DocumentVersion.ofName? (statedVersion? raw) = some .draft2)
    (hinputs : raw.get? "inputs" = some (.array items)) :
    ∃ index, index < items.length ∧
      Within (child (elementAt (child root "inputs") index) "type") error.location := by
  cases h with
  | version hnone =>
      rw [hversion] at hnone
      cases hnone
  | @type _ index _ hlist hindex htype =>
      rw [hinputs] at hlist
      cases hlist
      exact ⟨index, hindex, htype.within⟩
  | script hv1 =>
      rw [hversion] at hv1
      cases hv1
  | entry hobject =>
      rw [hinputs] at hobject
      cases hobject

/-- A document that the schema of tools accepts is read, or has an error that the schema leaves.  In a draft
document with its inputs in a list that is an error at the type of an input or below.  The document is an
object, its base command and its arguments have the form of their schemas, its inputs are objects, and one
without an id is an entry of an object. -/
theorem readTool_of_accepts (h : toolSchema.accepts raw = true) :
    ((∃ tool, readTool raw = .ok tool) ∨
      ∃ error, readTool raw = .error error ∧ LeftOpen raw error) ∧
    (∀ items error, DocumentVersion.ofName? (statedVersion? raw) = some .draft2 →
      raw.get? "inputs" = some (.array items) → readTool raw = .error error →
      ∃ index, index < items.length ∧
        Within (child (elementAt (child root "inputs") index) "type") error.location) ∧
    ∀ error, readTool raw = .error error →
      error.fault ∉ [.toolNotObject, .baseCommandItem, .baseCommandForm, .argumentsForm, .argumentForm,
        .inputNotObject] ∧
      (error.fault = .inputWithoutId → ∃ entries, raw.get? "inputs" = some (.object entries)) := by
  have hfails := failsOnly_readTool h
  refine ⟨?_, fun items error hversion hinputs herror ↦ ?_, fun error herror ↦ ?_⟩
  · cases hread : readTool raw with
    | ok tool => exact .inl ⟨tool, rfl⟩
    | error error => exact .inr ⟨error, rfl, hfails error hread⟩
  · exact (hfails error herror).exists_within_type hversion hinputs
  · exact ⟨(hfails error herror).fault_notMem, (hfails error herror).exists_entries⟩

/-- A newer document with the script of a draft document. -/
def scriptedSort : Json :=
  .object [("baseCommand", .string "sort"), ("inputs", .array []),
    ("stdin", .object [("class", .string "Expression"), ("script", .string "$job.reads")])]

/-- A draft document with an optional input whose symbols are missing. -/
def symbollessSort : Json :=
  .object [("cwlVersion", .string "draft-2"), ("baseCommand", .array [.string "sort"]),
    ("inputs", .array [.object [("id", .string "#order"),
      ("type", .array [.string "null", .object [("type", .string "enum")]])]])]

/-- The schema leaves the script of the one document, and the type of the input of the other. -/
theorem readTool_of_accepts_sort :
    (∃ error, readTool scriptedSort = .error error ∧ LeftOpen scriptedSort error ∧
      error = ⟨"document.stdin", .expressionForm⟩) ∧
    ∃ error, readTool symbollessSort = .error error ∧
      error = ⟨"document.inputs[0].type", .enumWithoutSymbols⟩ ∧
      ∃ index, index < 1 ∧
        Within (child (elementAt (child root "inputs") index) "type") error.location := by
  have hscripted : toolSchema.accepts scriptedSort = true := by decide
  have hsymbolless : toolSchema.accepts symbollessSort = true := by decide
  constructor
  · rcases (readTool_of_accepts hscripted).1 with ⟨tool, htool⟩ | ⟨error, herror, hopen⟩
    · cases htool
    · refine ⟨error, herror, hopen, ?_⟩
      cases herror
      rfl
  · exact ⟨_, rfl, rfl, (readTool_of_accepts hsymbolless).2.1 _ _ rfl rfl rfl⟩

end Invocation.Document
