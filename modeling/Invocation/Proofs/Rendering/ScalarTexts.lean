import Invocation.Formula.Evaluator
import Invocation.Proofs.Rendering.Lookup
import Invocation.Proofs.Template.Grammar

/-!
# The texts of scalars

A scalar that is the value of an expression has one text on the command line, and one text where a reference
with this value stands between other text.  The two are the same but for a double without a fraction, which is a
whole number on the command line and has a fraction or an exponent in a text (`inserted_eq_text_iff`).
-/

namespace Invocation

/-! ## Numbers -/

/-- The text of an integer has digits and a sign only. -/
theorem isDigit_of_mem_toString {n : Int} {c : Char} (h : c ∈ (toString n).toList) :
    c = '-' ∨ c.isDigit = true := by
  have hnat {m : Nat} (hmem : c ∈ m.repr.toList) : c.isDigit = true := by
    rw [Nat.toList_repr] at hmem
    exact Nat.isDigit_of_mem_toDigits (by decide) (by decide) hmem
  rw [Int.toString_eq_repr, Int.repr_eq_if] at h
  split at h
  · exact .inr (hnat h)
  · rw [String.toList_append, List.mem_append] at h
    rcases h with h | h
    · exact .inl (List.mem_singleton.1 h)
    · exact .inr (hnat h)

/-- Digits with a point have a point. -/
theorem Layout.point_mem_writePositional (digits : List Char) (leading : Int) :
    '.' ∈ (writePositional digits leading).toList := by
  unfold writePositional
  dsimp only
  split
  · simp
  · split <;> simp

/-- Digits with an exponent have the letter of the exponent. -/
theorem Layout.exponent_mem_writeScientific (plus : Bool) (digits : List Char) (leading : Int) :
    'e' ∈ (writeScientific plus digits leading).toList := by
  unfold writeScientific
  simp

/-- The text of a double has a point or an exponent, so that it is not that of an integer. -/
theorem Layout.write_ne_toString (layout : Layout) (x : Double) (n : Int) :
    layout.write x ≠ toString n := by
  have hmem (digits : List Char) (leading : Int) :
      ∃ c ∈ (if layout.positional leading then writePositional digits leading
        else writeScientific layout.plus digits leading).toList, c ≠ '-' ∧ c.isDigit = false := by
    split
    · exact ⟨'.', point_mem_writePositional digits leading, by decide, by decide⟩
    · exact ⟨'e', exponent_mem_writeScientific layout.plus digits leading, by decide, by decide⟩
  intro heq
  unfold write at heq
  obtain ⟨c, hc, hsign, hdigit⟩ := hmem _ _
  have hfound := List.mem_append_right (if x.isNegative then "-" else "").toList hc
  rw [← String.toList_append, heq] at hfound
  rcases isDigit_of_mem_toString hfound with h | h
  · exact hsign h
  · rw [h] at hdigit
    cases hdigit

/-! ## Scalars -/

namespace Json

/-- The value is no array and no object. -/
def IsScalar : Json → Prop
  | .array _ | .object _ => False
  | _ => True

/-- The value is a double that is written as a whole number on a command line. -/
def IsWholeDouble : Json → Prop
  | .number (.double x) => x.isIntegral = true ∧ x.wholePart < 10 ^ 21
  | _ => False

end Json

/-- Between other text a scalar has its text on the command line, unless it is a double without a fraction. -/
theorem interpolated_eq_text_iff {json : Json} (h : json.IsScalar) :
    Template.interpolated json = (JobValue.ofJson json).text ↔ ¬ json.IsWholeDouble := by
  cases json with
  | null | string => exact iff_of_true rfl id
  | bool b => cases b <;> exact iff_of_true rfl id
  | number n =>
      cases n with
      | int n => exact iff_of_true rfl id
      | double x =>
          show Layout.json.write x = (if x.isIntegral && x.wholePart < 10 ^ 21 then toString x.toInt
              else Layout.json.write x) ↔ ¬ (x.isIntegral = true ∧ x.wholePart < 10 ^ 21)
          simp only [Bool.and_eq_true, decide_eq_true_eq]
          split
          · next hwhole => exact iff_of_false (Layout.json.write_ne_toString x _) fun h ↦ h hwhole
          · next hwhole => exact iff_of_true rfl hwhole
  | array | object => cases h

/-! ## Texts on a command line -/

/-- The value of an expression puts the text on a command line: behind a flag that has the expression, behind the
operator of a redirection that is not off, and, if it is a string or a number, behind the flag of an argument. -/
structure JobValue.Places (value : JobValue) (text : String) : Prop where
  flag {itemsContext : Option Binding} {binding : Binding} {flagValue : JobValue} {scope : Scope}
    {evaluator : Evaluator} {expression : Expression} (location : String) :
    flagValue.isTruthy = true → binding.valueFrom = some expression →
    evaluator ⟨expression, scope.withSelf flagValue⟩ = .ok value →
    ((Rendering.flag itemsContext binding location flagValue scope).run evaluator).text? =
      some (binding.attach (itemsContext.getD binding).flagText text)
  stream {stream : Stream} {scope : Scope} {evaluator : Evaluator} :
    value.isTruthy = true → evaluator ⟨stream.expression, scope⟩ = .ok value →
    ((stream.render scope).run evaluator).text? = some (stream.kind.operator ++ text)
  argument {argument : Argument} {scope : Scope} {evaluator : Evaluator} {expression : Expression}
    (job : JobValue) :
    (∃ s, value = .string s) ∨ (∃ n, value = .number n) → argument.literal = none →
    argument.binding.valueFrom = some expression → evaluator ⟨expression, scope⟩ = .ok value →
    ((argument.render job scope).run evaluator).text? =
      some (argument.binding.attach argument.binding.flagText text)

/-- A scalar is no file. -/
theorem unwrapFile_ofJson {json : Json} (h : json.IsScalar) :
    (JobValue.ofJson json).unwrapFile = .ofJson json := by
  cases json with
  | null | bool | number | string => rfl
  | array | object => cases h

/-- A string or a number is rendered as its text behind the flag of the argument. -/
theorem text?_renderValue {value : JobValue} (h : (∃ s, value = .string s) ∨ ∃ n, value = .number n)
    (argument : Argument) (job : JobValue) (scope : Scope) (evaluator : Evaluator) :
    ((argument.renderValue job scope value).run evaluator).text? =
      some (argument.binding.attach argument.binding.flagText value.text) := by
  unfold Argument.renderValue
  rw [Rendering.run_map]
  rcases h with ⟨s, rfl⟩ | ⟨n, rfl⟩
  · rfl
  · cases n <;> rfl

/-- A scalar puts its text on a command line. -/
theorem places_text {json : Json} (h : json.IsScalar) :
    (JobValue.ofJson json).Places (JobValue.ofJson json).text := by
  refine ⟨fun location htruthy hexpression hvalue ↦ ?_, fun htruthy hvalue ↦ ?_,
    fun job hkind hliteral hexpression hvalue ↦ ?_⟩
  · unfold Rendering.flag Rendering.evaluate
    rw [htruthy, hexpression, if_neg (by decide), Rendering.run, hvalue]
    dsimp only
    rw [Rendering.run, unwrapFile_ofJson h]
    rfl
  · unfold Stream.render Rendering.evaluate
    rw [Rendering.run, hvalue]
    dsimp only
    rw [Rendering.run, Stream.rendered, if_pos htruthy, unwrapFile_ofJson h]
    rfl
  · unfold Argument.render Rendering.evaluate
    rw [hliteral, hexpression]
    dsimp only
    rw [Rendering.run, hvalue]
    exact text?_renderValue hkind _ job _ _

/-! ## Texts in a template -/

namespace Template

variable {value : String → Except EvaluationError Json} {source : String} {before behind : List Segment}
  {body : List Char} {json : Json} {fronts backs : List String}

/-- A reference between other segments is filled with the text of its value. -/
theorem evaluate_of_segments (hsource : segments source = .ok (before ++ .reference body :: behind))
    (hothers : before ++ behind ≠ []) (hvalue : value (String.ofList body) = .ok json)
    (hbefore : before.mapM (segmentText value) = .ok fronts)
    (hbehind : behind.mapM (segmentText value) = .ok backs) (location : String) :
    evaluate value source location =
      .ok (.string (String.join fronts ++ interpolated json ++ String.join backs)) := by
  have hmany : ∀ other, before ++ .reference body :: behind ≠ [.reference other] := by
    intro other heq
    cases before with
    | nil =>
        obtain ⟨-, rfl⟩ := List.cons.inj heq
        exact hothers rfl
    | cons => simp at heq
  have hpiece : segmentText value (.reference body) = .ok (interpolated json) := by
    rw [segmentText, hvalue]
    rfl
  unfold evaluate
  rw [hsource]
  dsimp only
  rw [fill.eq_2 value _ hmany, List.mapM_append, List.mapM_cons, hbefore, hpiece, hbehind]
  show Except.ok (JobValue.string (String.join (fronts ++ interpolated json :: backs))) = _
  rw [String.join_append, String.join_cons, String.append_assoc]

/-- A reference that is the whole template and has a scalar for its value gives this value, which puts its text
on the command line.  Where the reference stands in a template between other segments, the text that is inserted
in its place is the same text, unless the value is a double that is written as a whole number there. -/
theorem inserted_eq_text_iff (hbody : Closes 0 body) (hvalue : value (String.ofList body) = .ok json)
    (hscalar : json.IsScalar) :
    (∀ location, evaluate value (String.ofList (Token.reference body).written) location =
      .ok (.ofJson json)) ∧
    (JobValue.ofJson json).Places (JobValue.ofJson json).text ∧
    ∀ source before behind fronts backs location,
      segments source = .ok (before ++ .reference body :: behind) → before ++ behind ≠ [] →
      before.mapM (segmentText value) = .ok fronts → behind.mapM (segmentText value) = .ok backs →
      ∃ inserted, evaluate value source location =
          .ok (.string (String.join fronts ++ inserted ++ String.join backs)) ∧
        (inserted = (JobValue.ofJson json).text ↔ ¬ json.IsWholeDouble) := by
  refine ⟨fun location ↦ ?_, places_text hscalar, fun source before behind fronts backs location hsource
    hothers hbefore hbehind ↦ ⟨interpolated json, ?_, interpolated_eq_text_iff hscalar⟩⟩
  · unfold evaluate
    rw [segments_reference hbody]
    show (value (String.ofList body)).map _ = _
    rw [hvalue]
    rfl
  · exact evaluate_of_segments hsource hothers hvalue hbefore hbehind location

/-- A truth value is inserted as the text that it puts behind a flag. -/
theorem inserted_eq_text_iff_loud :
    evaluate (fun _ ↦ .ok (.bool true)) "-x$(loud)" "here" = .ok (.string "-xtrue") ∧
    ((Rendering.flag none ⟨some "-x", false, " ", some ⟨"$(loud)", "here"⟩⟩ "here" (.bool true)
      (.top .null {})).run fun _ ↦ .ok (.bool true)).text? = some "-xtrue" := by
  have hname : Closes 0 "loud".toList :=
    (splitBody_eq_some_iff.1 (by decide : splitBody .opening "loud)".toList = some ("loud".toList, []))).2
  obtain ⟨-, hplaces, htexts⟩ :=
    @inserted_eq_text_iff (fun _ ↦ .ok (.bool true)) _ (.bool true) hname rfl trivial
  obtain ⟨inserted, hevaluate, hiff⟩ :=
    htexts "-x$(loud)" [.text ['-', 'x']] [] ["-x"] [] "here" rfl nofun rfl rfl
  refine ⟨?_, hplaces.flag "here" rfl rfl rfl⟩
  rw [hevaluate, hiff.2 id]
  rfl

/-- The double two. -/
def doubleTwo : Json :=
  .number (.double ⟨0x4000000000000000⟩)

/-- The double two is placed without a fraction and inserted with one, also when it is the value of a formula. -/
theorem not_inserted_eq_text :
    evaluate (fun _ ↦ .ok doubleTwo) "$(n)" "here" = .ok (.ofJson doubleTwo) ∧
    (JobValue.ofJson doubleTwo).Places "2" ∧
    evaluate (fun _ ↦ .ok doubleTwo) "n=$(n)" "here" = .ok (.string "n=2.0") ∧
    (Formula.evaluator 100 ⟨⟨"$(2.0)", "here"⟩, .top (.mapping []) {}⟩).toOption.map JobValue.text = some "2" ∧
    (Formula.evaluator 100 ⟨⟨"n=$(2.0)", "here"⟩, .top (.mapping []) {}⟩).toOption.map JobValue.text =
      some "n=2.0" := by
  have htext : (JobValue.ofJson doubleTwo).text = "2" := by decide
  have hplaces : (JobValue.ofJson doubleTwo).Places (JobValue.ofJson doubleTwo).text := places_text trivial
  exact ⟨rfl, htext ▸ hplaces, rfl, by decide +kernel, by decide +kernel⟩

end Template

end Invocation
