import Invocation.Formula.Evaluator
import Invocation.Proofs.Document.DeclaredTypes
import Invocation.Proofs.Template.Grammar
import Invocation.Proofs.Template.Literal
import Mathlib

/-!
# Scripts as references

The script of a draft document becomes the body of a reference, and the evaluator looks for the end of this
reference again.  It finds the end of the script unless a parenthesis of the script closes the reference before
(`Spills`): then the rest of the script is text (`evaluatedWhole_scriptSource_iff`).  All expressions of a tool
are read from its document (`Tool.Uses`), so this settles every script of every draft document
(`evaluatedWhole_iff_of_readTool`).
-/

namespace Invocation

/-! ## Expressions of a tool -/

/-- The type, or one inside of it, has the binding: a flag that knows it, an array for its items, or a field. -/
inductive InputType.Binds : InputType → Binding → Prop where
  | flag (binding : Binding) : Binds (.boolean (some binding)) binding
  | items (items : InputType) (binding : Binding) : Binds (.array items (some binding)) binding
  | element {items : InputType} {binding : Binding} (itemBinding : Option Binding) :
      Binds items binding → Binds (.array items itemBinding) binding
  | field {fields : List Input} {field : Input} : field ∈ fields → Binds (.record fields) field.binding
  | inField {fields : List Input} {field : Input} {binding : Binding} :
      field ∈ fields → Binds field.type binding → Binds (.record fields) binding

/-- `tool.Uses expression` says that the tool has the expression: for a redirection, in an argument, in the
binding of an input, or in its type. -/
inductive Tool.Uses (tool : Tool) : Expression → Prop where
  | stdin {stream : Stream} : tool.stdin = some stream → Uses tool stream.expression
  | stdout {stream : Stream} : tool.stdout = some stream → Uses tool stream.expression
  | argument {declared : ToolArgument} {expression : Expression} : declared ∈ tool.arguments →
      declared.argument.binding.valueFrom = some expression → Uses tool expression
  | input {declared : ToolInput} {expression : Expression} : declared ∈ tool.inputs →
      declared.input.binding.valueFrom = some expression → Uses tool expression
  | type {declared : ToolInput} {binding : Binding} {expression : Expression} : declared ∈ tool.inputs →
      declared.input.type.Binds binding → binding.valueFrom = some expression → Uses tool expression

namespace Document

open Template

/-- The expression is read from a value in the document. -/
def IsReadIn (document : Json) (version : DocumentVersion) (expression : Expression) : Prop :=
  ∃ raw, document.Holds raw ∧ readExpression version expression.location raw = .ok expression

variable {document : Json} {version : DocumentVersion} {place : String}

/-- An expression stands at the place at which it is read. -/
theorem location_readExpression {raw : Json} {expression : Expression}
    (h : readExpression version place raw = .ok expression) : expression.location = place := by
  cases raw with
  | string | number | bool =>
      cases h
      rfl
  | null | array => cases h
  | object members =>
      rw [readExpression] at h
      split at h
      · split at h
        · cases h
          rfl
        · cases h
      · cases h

/-- An expression that may be missing is read from the value at its place. -/
theorem isReadIn_of_readExpression? {found : Option Json} {expression : Expression}
    (h : readExpression? version place found = .ok (some expression))
    (hfound : ∀ raw ∈ found, document.Holds raw) : IsReadIn document version expression := by
  cases found with
  | none => cases h
  | some raw =>
      obtain ⟨read, hread, hsome⟩ := map_eq_ok_iff.1 h
      cases hsome
      refine ⟨raw, hfound raw rfl, ?_⟩
      rwa [location_readExpression hread]

/-- The expression of a binding is read from the document when the binding is. -/
theorem BindingAt.isReadIn {binding : Binding} {expression : Expression}
    (h : BindingAt document version place binding) (hexpression : binding.valueFrom = some expression) :
    IsReadIn document version expression := by
  obtain ⟨members, hheld, hread⟩ := h
  obtain ⟨valueFrom, hvalue, hbinding⟩ := bind_eq_ok_iff.1 hread
  cases hbinding
  cases hexpression
  exact isReadIn_of_readExpression? hvalue fun _ ↦ hheld.get?

/-- The expression of an input or a field is read from the document. -/
theorem DeclaredAt.isReadIn {good : String → InputType → Prop} {input : Input} {expression : Expression}
    (h : DeclaredAt document version good place input) (hexpression : input.binding.valueFrom = some expression) :
    IsReadIn document version expression := by
  rcases h.binding with hplain | hbinding
  · rw [hplain] at hexpression
    cases hexpression
  · exact hbinding.isReadIn hexpression

/-- The expressions in a type are read from the document. -/
def BindsReadIn (document : Json) (version : DocumentVersion) (type : InputType) : Prop :=
  ∀ binding, type.Binds binding → ∀ expression, binding.valueFrom = some expression →
    IsReadIn document version expression

/-- The expressions of an array are those of its items and their binding. -/
theorem bindsReadIn_arrayType {itemBinding : Option Binding} {items : InputType}
    (hbinding : ∀ binding ∈ itemBinding, BindingAt document version place binding)
    (hitems : BindsReadIn document version items) :
    BindsReadIn document version (arrayType itemBinding items) := by
  intro binding hbinds expression hexpression
  cases items with
  | boolean itemsContext =>
      rw [arrayType] at hbinds
      cases hbinds with
      | items => exact (hbinding binding rfl).isReadIn hexpression
      | element _ hflag =>
          -- the flag knows the binding of the array, or the one that it knew before
          cases itemBinding with
          | some own =>
              cases hflag
              exact (hbinding binding rfl).isReadIn hexpression
          | none => exact hitems binding hflag expression hexpression
  | primitive | array | record | enum | unresolved =>
      cases hbinds with
      | items => exact (hbinding binding rfl).isReadIn hexpression
      | element _ helement => exact hitems binding helement expression hexpression

/-- The expressions in the types of a document are read from the document. -/
theorem inherited_bindsReadIn (document : Json) (version : DocumentVersion) :
    Inherited document version fun _ type ↦ BindsReadIn document version type where
  primitive _ _ := nofun
  flag _ := nofun
  enum _ _ := nofun
  unresolved _ _ := nofun
  list hitems := by
    rintro binding (_ | ⟨-, helement⟩)
    exact hitems binding ‹_›
  array hbinding hitems := bindsReadIn_arrayType hbinding hitems
  record hfields := by
    intro binding hbinds expression hexpression
    cases hbinds with
    | field hfield =>
        obtain ⟨_, hdeclared⟩ := hfields.declared _ hfield
        exact hdeclared.isReadIn hexpression
    | inField hfield hbinds =>
        obtain ⟨_, hdeclared⟩ := hfields.declared _ hfield
        exact hdeclared.type binding hbinds expression hexpression

/-- The expression of an argument is read from the document. -/
theorem yields_isReadIn_argument {raw : Json} (hraw : document.Holds raw) :
    Yields (fun declared ↦ ∀ expression, declared.argument.binding.valueFrom = some expression →
      IsReadIn document version expression) (readArgument version place raw) := by
  cases raw with
  | string text =>
      rw [readArgument]
      split
      · refine .ok fun expression hexpression ↦ ?_
        cases hexpression
        exact ⟨_, hraw, rfl⟩
      · refine .ok fun expression hexpression ↦ ?_
        cases hexpression
  | object members =>
      have hbinding : Yields (BindingAt document version place) (readBinding version place members) :=
        fun binding hbinding ↦ ⟨members, hraw, hbinding⟩
      exact hbinding.bind fun binding hread ↦ .ok fun _ ↦ hread.isReadIn
  | null | bool | number | array => exact .error _

/-- The expressions of the arguments are read from the document. -/
theorem isReadIn_of_mem_arguments {members : Entries Json} {arguments : List ToolArgument}
    (h : readArguments version members = .ok arguments) :
    ∀ declared ∈ arguments, ∀ expression, declared.argument.binding.valueFrom = some expression →
      IsReadIn (.object members) version expression := by
  have hroot : (Json.object members).Holds (.object members) := .here
  unfold readArguments at h
  split at h
  · cases h
    exact List.forall_mem_nil _
  · next items hitems =>
    intro declared hdeclared
    obtain ⟨-, hread⟩ := Yields.readItems (fun item hitem place ↦
      yields_isReadIn_argument ((hroot.get? hitems).part hitem)) _ 0 _ h declared hdeclared
    exact hread
  · cases h

/-- The expression of a redirection is read from the document. -/
theorem isReadIn_stream {kind : StreamKind} {members : Entries Json} {stream : Stream}
    (h : readStream version kind members = .ok (some stream)) :
    IsReadIn (.object members) version stream.expression := by
  obtain ⟨found, hfound, hstream⟩ := bind_eq_ok_iff.1 h
  cases found with
  | none => cases hstream
  | some expression =>
      cases hstream
      have hroot : (Json.object members).Holds (.object members) := .here
      exact isReadIn_of_readExpression? hfound fun _ ↦ hroot.get?

/-- Every expression of a tool is read from its document. -/
theorem isReadIn_of_uses {tool : Tool} (hread : readTool document = .ok tool) {expression : Expression}
    (h : tool.Uses expression) : IsReadIn document tool.version expression := by
  have hinputs := (inherited_bindsReadIn document tool.version).declaredAt_of_readTool hread
  obtain ⟨members, rfl, hparts⟩ := exists_isReadFrom hread
  cases h with
  | stdin hstream => exact isReadIn_stream (hstream ▸ hparts.stdin)
  | stdout hstream => exact isReadIn_stream (hstream ▸ hparts.stdout)
  | argument hdeclared hexpression => exact isReadIn_of_mem_arguments hparts.arguments _ hdeclared _ hexpression
  | input hdeclared hexpression =>
      obtain ⟨_, hinput⟩ := hinputs _ hdeclared
      exact hinput.isReadIn hexpression
  | type hdeclared hbinds hexpression =>
      obtain ⟨_, hinput⟩ := hinputs _ hdeclared
      exact hinput.type _ hbinds _ hexpression

/-! ## Bodies that are put in parentheses -/

/-- The text has a parenthesis that closes one in front of the text, and what stands behind it in a template can
be split.  A text that is a function body is no template. -/
structure Spills (body : List Char) : Prop where
  expression : body.head? ≠ some '\x7b'
  exists_closing : ∃ inside behind pieces, Closes 0 inside ∧ body = inside ++ ')' :: behind ∧
    segments (String.ofList (behind ++ [')'])) = .ok pieces

/-- The source is the reference with the body or no template, so that it has the value of the body, whatever its
type, or evaluating it fails. -/
structure EvaluatedWhole (source : String) (body : List Char) : Prop where
  pieces : ∀ pieces, segments source = .ok pieces → pieces = [.reference body]
  value (value : String → Except EvaluationError Json) (location : String) :
    evaluate value source location = (value (String.ofList body)).map .ofJson ∨
      ∃ error, evaluate value source location = .error error

variable {source : String} {body : List Char}

/-- What a source is split into decides how it is evaluated. -/
theorem evaluatedWhole_iff : EvaluatedWhole source body ↔
    ∀ pieces, segments source = .ok pieces → pieces = [.reference body] := by
  refine ⟨EvaluatedWhole.pieces, fun h ↦ ⟨h, fun value location ↦ ?_⟩⟩
  unfold evaluate
  cases hpieces : segments source with
  | error fault => exact .inr ⟨_, rfl⟩
  | ok pieces =>
      rw [h pieces hpieces]
      exact .inl rfl

/-- A body in parentheses is a reference up to the first parenthesis that closes it. -/
theorem segments_wrapped (body : List Char) :
    segments (String.ofList ('$' :: '(' :: (body ++ [')']))) =
      match splitBody .opening (body ++ [')']) with
      | some (inside, behind) =>
        (segments (String.ofList behind)).map (.reference inside :: ·)
      | none => .error .unterminated := by
  unfold segments
  rw [String.toList_ofList, scan, scan_reference]
  cases splitBody .opening (body ++ [')']) with
  | none => rfl
  | some split =>
      obtain ⟨inside, behind⟩ := split
      dsimp only
      rw [String.toList_ofList]
      cases scan (.text []) behind <;> rfl

/-- A body in parentheses is evaluated as a whole unless it spills. -/
theorem evaluatedWhole_wrapped_iff (hbody : body.head? ≠ some '\x7b') :
    EvaluatedWhole (String.ofList ('$' :: '(' :: (body ++ [')']))) body ↔ ¬ Spills body := by
  rw [evaluatedWhole_iff, segments_wrapped]
  constructor
  · rintro h ⟨-, inside, behind, pieces, hcloses, rfl, hbehind⟩
    have hsplit : splitBody .opening (inside ++ ')' :: behind ++ [')']) =
        some (inside, behind ++ [')']) :=
      splitBody_eq_some_iff.2 ⟨by simp, hcloses⟩
    rw [hsplit] at h
    dsimp only at h
    rw [hbehind] at h
    -- the reference is shorter than the body
    simpa using h _ rfl
  · intro h pieces hpieces
    cases hsplit : splitBody .opening (body ++ [')']) with
    | none =>
        rw [hsplit] at hpieces
        cases hpieces
    | some split =>
        obtain ⟨inside, behind⟩ := split
        obtain ⟨htext, hcloses⟩ := splitBody_eq_some_iff.1 hsplit
        rw [hsplit] at hpieces
        obtain ⟨others, hothers, rfl⟩ := map_eq_ok_iff.1 hpieces
        rcases List.eq_nil_or_concat behind with rfl | ⟨front, last, rfl⟩
        · obtain ⟨rfl, -⟩ := List.append_inj' htext rfl
          cases hothers
          rfl
        · -- the last character is the parenthesis behind the body
          rw [List.concat_eq_append] at htext hothers
          have hlast : body ++ [')'] = (inside ++ ')' :: front) ++ [last] := by simpa using htext
          obtain ⟨rfl, hparenthesis⟩ := List.append_inj' hlast rfl
          cases hparenthesis
          exact absurd ⟨hbody, inside, front, others, hcloses, rfl, hothers⟩ h

/-- A script is evaluated as a whole unless it spills; a function body is not evaluated. -/
theorem evaluatedWhole_scriptSource_iff (script : String) :
    EvaluatedWhole (scriptSource script) (renamed (Text.trimChars script.toList)) ↔
      ¬ Spills (renamed (Text.trimChars script.toList)) := by
  unfold scriptSource
  split
  · next rest hbody =>
    rw [hbody, evaluatedWhole_iff]
    refine iff_of_true (fun pieces hpieces ↦ ?_) fun h ↦ h.expression rfl
    have hfault : segments (String.ofList ('$' :: '\x7b' :: rest)) = .error .functionBody := by
      unfold segments
      rw [String.toList_ofList, scan]
    rw [hfault] at hpieces
    cases hpieces
  · next hbody =>
    generalize renamed (Text.trimChars script.toList) = body at hbody
    have hsource : "$(" ++ String.ofList body ++ ")" = String.ofList ('$' :: '(' :: (body ++ [')'])) := by
      simp [← String.toList_inj]
    rw [hsource]
    refine evaluatedWhole_wrapped_iff fun hhead ↦ ?_
    exact hbody body.tail (List.eq_cons_of_mem_head? hhead)

/-- A text that closes all that it opens, and nothing else, does not spill. -/
theorem not_spills_of_closes (h : Closes 0 body) : ¬ Spills body := by
  rintro ⟨-, inside, behind, -, hinside, hbody, -⟩
  have hsplit : body ++ ')' :: [] = inside ++ ')' :: (behind ++ [')']) := by simp [hbody]
  obtain ⟨-, hbehind⟩ := h.eq_of_append_eq hinside hsplit
  simp at hbehind

/-! ## Scripts of a document -/

/-- The expressions of a tool that is read from a draft document are all read from the document.  An object with
a script is read as an expression wherever it stands, and this is evaluated as one reference whose body is the
whole script with its names, or evaluating it fails, unless a parenthesis of the script closes the reference. -/
theorem evaluatedWhole_iff_of_readTool {document : Json} {tool : Tool} (hread : readTool document = .ok tool)
    (hversion : tool.version = .draft2) :
    (∀ expression, tool.Uses expression → IsReadIn document .draft2 expression) ∧
    ∀ raw script, raw.get? "class" = some (.string "Expression") →
      raw.get? "script" = some (.string script) →
      ∀ place, ∃ source, readExpression .draft2 place raw = .ok ⟨source, place⟩ ∧
        (EvaluatedWhole source (renamed (Text.trimChars script.toList)) ↔
          ¬ Spills (renamed (Text.trimChars script.toList))) := by
  refine ⟨fun expression huses ↦ hversion ▸ isReadIn_of_uses hread huses, ?_⟩
  intro raw script hclass hscript place
  refine ⟨scriptSource script, ?_, evaluatedWhole_scriptSource_iff script⟩
  cases raw with
  | object members =>
      have hkind : Entries.string? members "class" = some "Expression" :=
        Option.bind_eq_some_iff.2 ⟨_, hclass, rfl⟩
      have htext : Entries.string? members "script" = some script :=
        Option.bind_eq_some_iff.2 ⟨_, hscript, rfl⟩
      rw [readExpression, if_pos ⟨rfl, hkind⟩, htext]
  | null | bool | number | string | array => cases hclass

/-- A draft document of a tool with an argument that is a script. -/
def scriptedEcho (script : String) : Json :=
  .object [("cwlVersion", .string "sbg:draft-2"), ("baseCommand", .string "echo"),
    ("arguments", .array [.object [("valueFrom", scriptObject script)]])]

/-- A script with a closing parenthesis in a string is read from its document and evaluated as a whole. -/
theorem evaluatedWhole_iff_of_readTool_quoted :
    IsReadIn (scriptedEcho " ')' + $self ") .draft2
      ⟨"$(')' + self)", "document.arguments[0].valueFrom"⟩ ∧
    EvaluatedWhole "$(')' + self)" "')' + self".toList := by
  have hsource : scriptSource " ')' + $self " = "$(')' + self)" := by decide
  obtain ⟨tool, htool, hversion, huses⟩ : ∃ tool, readTool (scriptedEcho " ')' + $self ") = .ok tool ∧
      tool.version = .draft2 ∧
      tool.Uses ⟨scriptSource " ')' + $self ", "document.arguments[0].valueFrom"⟩ :=
    ⟨_, rfl, rfl, .argument List.mem_cons_self rfl⟩
  obtain ⟨hreadIn, hwhole⟩ := evaluatedWhole_iff_of_readTool htool hversion
  obtain ⟨source, hread, hiff⟩ := hwhole (scriptObject " ')' + $self ") " ')' + $self " rfl rfl ""
  have hcloses : Closes 0 "')' + self".toList :=
    (splitBody_eq_some_iff.1 (rfl : splitBody .opening "')' + self)".toList =
      some ("')' + self".toList, []))).2
  have hbody : renamed (Text.trimChars " ')' + $self ".toList) = "')' + self".toList := by decide
  rw [hbody] at hiff
  cases hread
  rw [hsource] at huses hiff
  exact ⟨hreadIn _ huses, hiff.2 (not_spills_of_closes hcloses)⟩

/-- A script that closes a parenthesis which it has not opened is read as a reference in front of a text, so that
a part of it is not evaluated, and its value is a text instead of a number. -/
theorem not_evaluatedWhole_spilled :
    readExpression .draft2 "document.arguments[0].valueFrom" (scriptObject "1) + (2") =
      .ok ⟨"$(1) + (2)", "document.arguments[0].valueFrom"⟩ ∧
    (∃ tool, readTool (scriptedEcho "1) + (2") = .ok tool ∧ tool.version = .draft2 ∧
      tool.Uses ⟨"$(1) + (2)", "document.arguments[0].valueFrom"⟩) ∧
    Formula.evaluator 100 ⟨⟨"$(1) + (2)", "document.arguments[0].valueFrom"⟩, .top (.mapping []) {}⟩ =
      .ok (.string "1 + (2)") ∧
    segments "$(1) + (2)" = .ok [.reference ['1'], .text " + (2)".toList] ∧
    ¬ EvaluatedWhole "$(1) + (2)" (renamed (Text.trimChars "1) + (2".toList)) := by
  have hsegments : segments "$(1) + (2)" = .ok [.reference ['1'], .text " + (2)".toList] := rfl
  refine ⟨rfl, ⟨_, rfl, rfl, .argument List.mem_cons_self rfl⟩, by cbv, hsegments, fun h ↦ ?_⟩
  cases h.pieces _ hsegments

end Document

end Invocation
