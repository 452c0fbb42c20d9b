import Invocation.Proofs.Rendering.Components
import Invocation.Proofs.Rendering.Lookup

/-!
# Composites without a text

A list or a record whose components have no text is empty itself, so that its flag does not stand alone.
A component with an empty text counts as a text, though: the flag is placed in front of it, and the
separator on either side (`Input.text_render_eq_empty_iff`).
-/

namespace Invocation

/-- Empty texts are joined to the empty text when nothing stands between them. -/
theorem intercalate_eq_empty_iff {separator : String} {texts : List String}
    (hempty : ∀ text ∈ texts, text = "") :
    String.intercalate separator texts = "" ↔ texts.length ≤ 1 ∨ separator = "" := by
  induction texts with
  | nil => simp
  | cons text rest ih =>
      obtain ⟨htext, hrest⟩ := List.forall_mem_cons.1 hempty
      cases rest with
      | nil => simp [htext]
      | cons next others =>
          -- the separator stands behind the first text, and the rest is empty without one
          have hlength : ¬ (text :: next :: others).length ≤ 1 := by simp
          rw [or_iff_right hlength, String.intercalate_cons_cons, htext, String.empty_append,
            String.append_eq_empty_iff, ih hrest]
          exact and_iff_left_of_imp .inr

/-- A composite of empty texts is empty when there are none, or when neither a flag nor a separator is
placed. -/
theorem Binding.around_eq_empty_iff {binding : Binding} {separator : String} {texts : List String}
    (hempty : ∀ text ∈ texts, text = "") :
    binding.around separator texts = "" ↔
      texts = [] ∨ binding.flagText = "" ∧ (texts.length = 1 ∨ separator = "") := by
  unfold around attach
  cases texts with
  | nil => simp
  | cons text rest =>
      have hjoined : String.intercalate separator (text :: rest) = "" ↔ _ :=
        intercalate_eq_empty_iff hempty
      by_cases hflag : binding.flagText = ""
      · simp [hflag, hjoined]
      · simp [hflag]

namespace Input

/-- The texts of the elements or fields of an input, before they are joined. -/
def tokens (input : Input) (evaluator : Evaluator) (job : JobValue) (given : Option JobValue)
    (scope : Scope) : List String :=
  (resolveValue input.id job given).elim [] fun value ↦
    input.type.tokens evaluator input.location value scope

/-- The text of a list or a record is made of the texts of its components. -/
theorem text_render {input : Input} (hcomposite : input.type.isComposite = true) (evaluator : Evaluator)
    (job : JobValue) (given : Option JobValue) (scope : Scope) :
    ((Input.render input job given scope).run evaluator).text?.getD "" =
      input.binding.around (input.type.separator input.binding)
        (Input.tokens input evaluator job given scope) := by
  unfold Input.render tokens
  cases hvalue : resolveValue input.id job given with
  | some value =>
      rw [InputType.run_render_of_components evaluator hvalue hcomposite]
      rfl
  | none =>
      have htype : ∀ tag, input.type ≠ .unresolved tag := by
        intro tag htag
        rw [htag] at hcomposite
        cases hcomposite
      rw [InputType.render_of_none htype hvalue]
      rfl

/-- When no component of a list or a record has a text other than the empty one, the list or the record has no
other text either, provided that no component has a text at all.  With empty texts among them this is so
only where there is no flag, and a single empty text or none between the texts. -/
theorem text_render_eq_empty_iff {input : Input} (hcomposite : input.type.isComposite = true)
    {evaluator : Evaluator} {job : JobValue} {given : Option JobValue} {scope : Scope}
    (hempty : ∀ text ∈ Input.tokens input evaluator job given scope, text = "") :
    ((Input.render input job given scope).run evaluator).text?.getD "" = "" ↔
      Input.tokens input evaluator job given scope = [] ∨
        input.binding.flagText = "" ∧
          ((Input.tokens input evaluator job given scope).length = 1 ∨
            input.type.separator input.binding = "") := by
  rw [text_render hcomposite]
  exact Binding.around_eq_empty_iff hempty

/-- A list of flags that has a flag of its own. -/
def switches : Input :=
  ⟨"switches", .array (.boolean none) none, { Binding.plain with flag := some "--switches" },
    "document.inputs[0]"⟩

/-- A list of nulls has no text, but a null and a flag that is off have one. -/
theorem text_render_eq_empty_iff_switches :
    (∀ evaluator scope, ((Input.render switches .null (some (.list [.null, .null])) scope).run
      evaluator).text?.getD "" = "") ∧
    ∀ evaluator scope, ((Input.render switches .null (some (.list [.null, .bool false])) scope).run
      evaluator).text?.getD "" ≠ "" := by
  have hnulls (evaluator : Evaluator) (scope : Scope) :
      Input.tokens switches evaluator .null (some (.list [.null, .null])) scope = [] := rfl
  have hoff (evaluator : Evaluator) (scope : Scope) :
      Input.tokens switches evaluator .null (some (.list [.null, .bool false])) scope = [""] := rfl
  refine ⟨fun evaluator scope ↦ ?_, fun evaluator scope h ↦ ?_⟩
  · have hempty : ∀ text ∈ Input.tokens switches evaluator .null (some (.list [.null, .null])) scope,
        text = "" := by
      rw [hnulls]
      exact nofun
    exact (text_render_eq_empty_iff rfl hempty).2 (.inl (hnulls evaluator scope))
  · have hempty : ∀ text ∈
        Input.tokens switches evaluator .null (some (.list [.null, .bool false])) scope, text = "" := by
      rw [hoff]
      exact fun text hmem ↦ List.mem_singleton.1 hmem
    rcases (text_render_eq_empty_iff rfl hempty).1 h with hnone | ⟨hflag, -⟩
    · cases (hoff evaluator scope).symm.trans hnone
    · exact absurd hflag (by decide)

/-- The only flag of this list is off and has the empty text, but the flag of the list is placed. -/
theorem text_render_switches_off :
    Input.tokens switches answerBoom .null (some (.list [.bool false])) (.top .null {}) = [""] ∧
      ((Input.render switches .null (some (.list [.bool false])) (.top .null {})).run
        answerBoom).fragment = some ⟨"--switches ", Fragment.inputTag, "document.inputs[0]"⟩ :=
  ⟨rfl, rfl⟩

end Input

end Invocation
