import Invocation.Proofs.Rendering.Failures

/-!
# Components of lists and records

A list is rendered from its elements and a record from its declared fields; their texts are joined and
their findings follow each other (`run_render_of_components`).  What evaluations give changes neither
which components have a text nor anything outside of the component that asks for them
(`contained_component`).
-/

namespace Invocation

/-! ## Two evaluators -/

namespace Rendering

mutual

/-- Evaluators that agree on the evaluations that a rendering asks for give the same result. -/
theorem run_congr {first second : Evaluator} {rendering : Rendering}
    (h : ∀ call ∈ trace first rendering, first call = second call) :
    run first rendering = run second rendering := by
  match rendering with
  | .done _ => rfl
  | .wait call next =>
    unfold trace at h
    obtain ⟨hcall, hnext⟩ := List.forall_mem_cons.1 h
    unfold run
    rw [← hcall]
    exact run_congr hnext
  | .join parts combine =>
    unfold trace at h
    unfold run
    rw [runAll_congr h]

/-- Evaluators that agree on the evaluations of all parts give the same results. -/
theorem runAll_congr {first second : Evaluator} {parts : List Rendering}
    (h : ∀ call ∈ traceAll first parts, first call = second call) :
    runAll first parts = runAll second parts := by
  match parts with
  | [] => rfl
  | part :: rest =>
    unfold traceAll at h
    obtain ⟨hpart, hrest⟩ := List.forall_mem_append.1 h
    unfold runAll
    rw [run_congr hpart, runAll_congr hrest]

end

end Rendering

/-! ## Whether there is a text -/

/-- An input has a text when it has a value, or a type without a meaning. -/
def Input.hasText (input : Input) (job : JobValue) (given : Option JobValue) : Bool :=
  match input.type with
  | .unresolved _ => true
  | _ => (resolveValue input.id job given).isSome

/-- A flag has a text, whatever its expression gives. -/
theorem Rendering.isSome_text?_flag (evaluator : Evaluator) (itemsContext : Option Binding)
    (binding : Binding) (location : String) (value : JobValue) (scope : Scope) :
    ((flag itemsContext binding location value scope).run evaluator).text?.isSome = true := by
  unfold flag
  split
  · rfl
  · dsimp only
    split
    · rfl
    · unfold evaluate run
      cases evaluator _ <;> rfl

/-- Whether an input has a text depends on its type and its value only. -/
theorem Input.isSome_text?_render (evaluator : Evaluator) (input : Input) (job : JobValue)
    (given : Option JobValue) (scope : Scope) :
    ((Input.render input job given scope).run evaluator).text?.isSome =
      Input.hasText input job given := by
  obtain ⟨id, type, binding, location⟩ := input
  show ((type.render id binding location job given scope).run evaluator).text?.isSome = _
  unfold hasText InputType.render
  cases type with
  | unresolved => rfl
  | primitive | enum | array | record =>
      cases resolveValue id job given <;> rfl
  | boolean itemsContext =>
      cases resolveValue id job given with
      | none => rfl
      | some value =>
          dsimp only
          rw [Rendering.run_map]
          exact Rendering.isSome_text?_flag evaluator itemsContext binding location value scope

/-! ## Components -/

/-- An element of a list or a declared field of a record: how it is declared, the list or the record that
it belongs to, and its own value, which a field may lack. -/
structure Component where
  input : Input
  whole : JobValue
  given : Option JobValue

namespace Component

variable (evaluator : Evaluator) (scope : Scope) (component : Component)

/-- How the component is rendered; a field without a value is left out. -/
def rendering? : Option Rendering :=
  component.given.map fun value ↦
    Input.render component.input component.whole (some value) (scope.within component.whole value)

/-- The result of the component. -/
def result? : Option Rendered :=
  (component.rendering? scope).map (Rendering.run evaluator)

/-- What the component puts between the other texts, when there is anything. -/
def token? : Option String :=
  (component.result? evaluator scope).bind Rendered.text?

/-- The findings of the component. -/
def findings : Findings :=
  (component.result? evaluator scope).elim .none Rendered.findings

/-- The evaluations that the component asks for. -/
def calls : List Call :=
  (component.rendering? scope).elim [] (Rendering.trace evaluator)

/-- Evaluators that agree on the evaluations of a component give it the same result. -/
theorem result?_congr {first second : Evaluator} {scope : Scope} {component : Component}
    (h : ∀ call ∈ component.calls first scope, first call = second call) :
    component.result? first scope = component.result? second scope := by
  unfold calls at h
  unfold result?
  cases hrendering : component.rendering? scope with
  | none => rfl
  | some rendering =>
      rw [hrendering] at h
      exact congrArg some (Rendering.run_congr h)

/-- Whether a component puts a text between the others depends on its type and its value only. -/
theorem isSome_token? : (component.token? evaluator scope).isSome =
    component.given.any fun value ↦ Input.hasText component.input component.whole (some value) := by
  obtain ⟨input, whole, given⟩ := component
  cases given with
  | none => rfl
  | some value => exact Input.isSome_text?_render evaluator input whole (some value) _

/-- A component puts a text between the others for every evaluator or for none. -/
theorem length_token? (first second : Evaluator) (scope : Scope) (component : Component) :
    (component.token? first scope).toList.length = (component.token? second scope).toList.length := by
  have hsome : (component.token? first scope).isSome = (component.token? second scope).isSome := by
    rw [isSome_token?, isSome_token?]
  cases hfirst : component.token? first scope <;>
    cases hsecond : component.token? second scope <;> simp_all

end Component

namespace InputType

/-- The elements or the declared fields that a type has for a value, in the order in which they are
rendered. -/
def components (type : InputType) (location : String) (value : JobValue) : List Component :=
  match type with
  | .array items itemBinding =>
    value.elements.mapIdx fun index element ↦
      ⟨⟨toString index, items, itemBinding.getD .plain, elementLocation location index⟩,
        .list (value.elements.map JobValue.unwrapFile), some element⟩
  | .record fields =>
    fields.map fun field ↦ ⟨field, .mapping value.entries, value.entries.lookup field.id⟩
  | _ => []

/-- The texts of the components, before they are joined. -/
def tokens (type : InputType) (evaluator : Evaluator) (location : String) (value : JobValue)
    (scope : Scope) : List String :=
  (type.components location value).filterMap (Component.token? evaluator scope)

/-- Lists and records, the types whose values have components. -/
def isComposite : InputType → Bool
  | .array .. => true
  | .record _ => true
  | _ => false

/-- Only lists and records have components. -/
theorem isComposite_of_components {type : InputType} {location : String} {value : JobValue}
    (h : type.components location value ≠ []) : type.isComposite = true := by
  cases type with
  | primitive | enum | boolean | unresolved => exact absurd rfl h
  | array | record => rfl

/-- What stands between the texts of the components. -/
def separator (type : InputType) (binding : Binding) : String :=
  match type with
  | .array .. => binding.itemSeparator
  | _ => " "

/-- The findings about the value as a whole. -/
def remarks (type : InputType) (id location : String) (value : JobValue) : Findings :=
  match type with
  | .record fields =>
    (InputType.record fields).mismatch id location value
      ++ undeclared fields id location value.entries
  | type => type.mismatch id location value

/-- The fields of a record are rendered as components. -/
theorem renderFields_eq (fields : List Input) (entries : Entries JobValue) (scope : Scope) :
    renderFields fields entries scope =
      (fields.map fun field ↦
        (⟨field, .mapping entries, entries.lookup field.id⟩ : Component)).filterMap
          (Component.rendering? scope) := by
  induction fields with
  | nil => rfl
  | cons field rest ih =>
      obtain ⟨id, type, binding, location⟩ := field
      unfold renderFields
      rw [List.map_cons, List.filterMap_cons, ih]
      unfold Component.rendering?
      cases entries.lookup id <;> rfl

/-- The elements of a list are rendered as components. -/
theorem mapIdx_render_eq (items : InputType) (itemBinding : Option Binding) (location : String)
    (value : JobValue) (scope : Scope) :
    (value.elements.mapIdx fun index element ↦
      items.render (toString index) (itemBinding.getD .plain) (elementLocation location index)
        (.list (value.elements.map JobValue.unwrapFile)) (some element)
        (scope.within (.list (value.elements.map JobValue.unwrapFile)) element)) =
      (components (.array items itemBinding) location value).filterMap
        (Component.rendering? scope) := by
  unfold components
  simp only [List.mapIdx_eq_zipIdx_map]
  rw [List.filterMap_map]
  exact (congrFun List.filterMap_eq_map _).symm

variable {id location : String} {binding : Binding} {job value : JobValue}
  {given : Option JobValue} {scope : Scope} {type : InputType}

/-- A list or a record joins the renderings of its components, and has the findings about its value. -/
theorem render_eq_join (hvalue : resolveValue id job given = some value)
    (hcomposite : type.isComposite = true) :
    type.render id binding location job given scope =
      .join ((type.components location value).filterMap (Component.rendering? scope))
        fun results ↦ (Rendered.composite binding location (type.separator binding) results).after
          (type.remarks id location value) := by
  cases type with
  | primitive | enum | boolean | unresolved => cases hcomposite
  | array items itemBinding =>
      unfold render
      rw [hvalue]
      dsimp only
      rw [mapIdx_render_eq]
      rfl
  | record fields =>
      unfold render
      rw [hvalue]
      dsimp only
      rw [renderFields_eq]
      rfl

end InputType

/-- The findings of one of several parts stand between those of the others. -/
theorem Findings.append_concat_split (earlier : Findings) (before after : List Findings)
    (part : Findings) :
    earlier ++ concat (before ++ part :: after) =
      earlier ++ concat before ++ part ++ concat after := by
  show Findings.mk _ _ = Findings.mk _ _
  simp [concat, errors_append, warnings_append]

/-- The findings of the components that are rendered are those of all components. -/
theorem Findings.concat_filterMap_result? (evaluator : Evaluator) (scope : Scope)
    (components : List Component) :
    concat ((components.filterMap (Component.result? evaluator scope)).map Rendered.findings) =
      concat (components.map (Component.findings evaluator scope)) := by
  induction components with
  | nil => rfl
  | cons component rest ih =>
      rw [List.filterMap_cons, List.map_cons]
      show _ = component.findings evaluator scope ++ concat (rest.map _)
      rw [← ih]
      unfold Component.findings
      cases component.result? evaluator scope <;> rfl

namespace InputType

variable {id location : String} {binding : Binding} {job value : JobValue}
  {given : Option JobValue} {scope : Scope} {type : InputType}

/-- A list or a record has the texts of its components, joined behind its flag, and the findings of its
components behind those about its value. -/
theorem run_render_of_components (evaluator : Evaluator)
    (hvalue : resolveValue id job given = some value) (hcomposite : type.isComposite = true) :
    (type.render id binding location job given scope).run evaluator =
      ⟨some ⟨binding.around (type.separator binding) (type.tokens evaluator location value scope),
          Fragment.inputTag, location⟩,
        type.remarks id location value ++
          .concat ((type.components location value).map (Component.findings evaluator scope))⟩ := by
  have hresults : Rendering.runAll evaluator
      ((type.components location value).filterMap (Component.rendering? scope)) =
        (type.components location value).filterMap (Component.result? evaluator scope) := by
    rw [Rendering.runAll_eq_map, List.map_filterMap]
    rfl
  have htokens : ((type.components location value).filterMap
      (Component.result? evaluator scope)).filterMap Rendered.text? =
        type.tokens evaluator location value scope :=
    List.filterMap_filterMap
  rw [render_eq_join hvalue hcomposite, Rendering.run, hresults, ← htokens,
    ← Findings.concat_filterMap_result?]
  rfl

variable {first second : Evaluator} {before after : List Component} {component : Component}

/-- When the other components have the same results as in a first run, only the text of the one component
is its own. -/
theorem tokens_of_others
    (hcomponents : type.components location value = before ++ component :: after)
    (hothers : ∀ other ∈ before ++ after,
      other.result? first scope = other.result? second scope) :
    type.tokens second location value scope =
      before.filterMap (Component.token? first scope) ++
        (component.token? second scope).toList ++
        after.filterMap (Component.token? first scope) := by
  have htext : ∀ other ∈ before ++ after,
      other.token? first scope = other.token? second scope := fun other hmem ↦
    congrArg (·.bind Rendered.text?) (hothers other hmem)
  obtain ⟨hbefore, hafter⟩ := List.forall_mem_append.1 htext
  rw [tokens, hcomponents, List.filterMap_append, List.filterMap_cons,
    List.filterMap_congr hbefore, List.filterMap_congr hafter]
  cases component.token? second scope <;> simp

/-- When the other components have the same results as in a first run, only the findings of the one
component are its own. -/
theorem run_render_of_others (hvalue : resolveValue id job given = some value)
    (hcomponents : type.components location value = before ++ component :: after)
    (hothers : ∀ other ∈ before ++ after,
      other.result? first scope = other.result? second scope) :
    (type.render id binding location job given scope).run second =
      ⟨some ⟨binding.around (type.separator binding) (type.tokens second location value scope),
          Fragment.inputTag, location⟩,
        type.remarks id location value ++
          .concat (before.map (Component.findings first scope)) ++
          component.findings second scope ++
          .concat (after.map (Component.findings first scope))⟩ := by
  have hne : type.components location value ≠ [] := by
    rw [hcomponents]
    exact List.append_ne_nil_of_right_ne_nil _ (List.cons_ne_nil _ _)
  have hfindings : ∀ other ∈ before ++ after,
      other.findings first scope = other.findings second scope := fun other hmem ↦
    congrArg (·.elim Findings.none Rendered.findings) (hothers other hmem)
  obtain ⟨hbefore, hafter⟩ := List.forall_mem_append.1 hfindings
  -- the component's findings stand apart from those of the others, which are rewritten to the first run's
  rw [run_render_of_components second hvalue (isComposite_of_components hne), hcomponents, List.map_append, List.map_cons,
    Findings.append_concat_split, List.map_congr_left hbefore, List.map_congr_left hafter]

/-- What evaluations give to one component of a list or a record stays with it.  When two evaluators agree
on the evaluations of all other components, its text and its findings alone differ: the others have the
same texts and the same findings, before it and after it.  Whether a component or an input has a text at
all does not depend on evaluations, so that there are equally many texts. -/
theorem contained_component (hvalue : resolveValue id job given = some value)
    (hcomponents : type.components location value = before ++ component :: after)
    (hagree : ∀ other ∈ before ++ after, ∀ call ∈ other.calls first scope,
      first call = second call) :
    (∀ evaluator ∈ [first, second],
      type.tokens evaluator location value scope =
        before.filterMap (Component.token? first scope) ++
          (component.token? evaluator scope).toList ++
          after.filterMap (Component.token? first scope) ∧
      (type.render id binding location job given scope).run evaluator =
        ⟨some ⟨binding.around (type.separator binding) (type.tokens evaluator location value scope),
            Fragment.inputTag, location⟩,
          type.remarks id location value ++
            .concat (before.map (Component.findings first scope)) ++
            component.findings evaluator scope ++
            .concat (after.map (Component.findings first scope))⟩) ∧
    (type.tokens first location value scope).length =
      (type.tokens second location value scope).length ∧
    (∀ evaluator : Evaluator, (component.token? evaluator scope).isSome =
      component.given.any fun own ↦ Input.hasText component.input component.whole (some own)) ∧
    (∀ (evaluator : Evaluator) (input : Input) (whole : JobValue) (own : Option JobValue)
        (around : Scope),
      ((Input.render input whole own around).run evaluator).text?.isSome =
        Input.hasText input whole own) := by
  have hothers : ∀ evaluator ∈ [first, second], ∀ other ∈ before ++ after,
      other.result? first scope = other.result? evaluator scope := by
    intro evaluator hevaluator other hmem
    rcases List.mem_pair.1 hevaluator with rfl | rfl
    · rfl
    · exact Component.result?_congr (hagree other hmem)
  have htokens : ∀ evaluator ∈ [first, second], type.tokens evaluator location value scope =
      before.filterMap (Component.token? first scope) ++
        (component.token? evaluator scope).toList ++
        after.filterMap (Component.token? first scope) := fun evaluator hevaluator ↦
    tokens_of_others hcomponents (hothers evaluator hevaluator)
  refine ⟨fun evaluator hevaluator ↦ ⟨htokens evaluator hevaluator, ?_⟩, ?_, ?_, ?_⟩
  · exact run_render_of_others hvalue hcomponents (hothers evaluator hevaluator)
  · rw [htokens first (by simp), htokens second (by simp)]
    simp only [List.length_append, component.length_token? first second scope]
  · exact fun evaluator ↦ component.isSome_token? evaluator scope
  · exact fun evaluator input whole own around ↦
      Input.isSome_text?_render evaluator input whole own around

end InputType

/-- A flag with an expression, a list of such flags, a field that may have no value, and one whose type
has no meaning. -/
def drumFields : List Input :=
  [⟨"loud", .boolean none, ⟨some "--loud", true, " ", some ⟨"$(level)", "drum.loud"⟩⟩, "drum.fields[0]"⟩,
   ⟨"beats", .array (.boolean none) (some ⟨none, true, " ", some ⟨"$(beat)", "drum.beats"⟩⟩),
     ⟨some "-b", false, ",", none⟩, "drum.fields[1]"⟩,
   ⟨"label", .primitive .string, .plain, "drum.fields[2]"⟩,
   ⟨"stick", .unresolved "Wood", .plain, "drum.fields[3]"⟩]

/-- A value for these fields. -/
def drumEntries : Entries JobValue :=
  [("beats", .list [.bool true, .null, .bool false, .string "x"]), ("loud", .bool true),
   ("stick", .null)]

/-- Every evaluation gives the same text. -/
def answerBoom : Evaluator := fun _ ↦ .ok (.string "boom")

/-- The evaluations of one source fail. -/
def failBeat : Evaluator := fun call ↦
  if call.expression.source = "$(beat)" then .error ⟨"TypeError", call.expression.location, "beat"⟩
  else .ok (.string "boom")

/-- A field with the value that the entries give it. -/
def drumPart (field : Input) : Component :=
  ⟨field, .mapping drumEntries, drumEntries.lookup field.id⟩

/-- The evaluations inside of a list of flags fail: the texts beside the list stay, among them the empty one
of the last field, and the two errors come in front of the warning about that field. -/
theorem contained_component_drum :
    (InputType.record drumFields).tokens answerBoom "drum" (.mapping drumEntries) (.top .null {}) =
      ["--loud boom", "-bboom,,boom", ""] ∧
    (InputType.record drumFields).tokens failBeat "drum" (.mapping drumEntries) (.top .null {}) =
      ["--loud boom", "-b<TypeError at drum.beats>,,<TypeError at drum.beats>", ""] ∧
    (((InputType.record drumFields).render "drum" .plain "drum" .null
      (some (.mapping drumEntries)) (.top .null {})).run failBeat).findings =
      (drumPart drumFields[1]).findings failBeat (.top .null {}) ++
        (drumPart drumFields[3]).findings answerBoom (.top .null {}) := by
  have hvalue : resolveValue "drum" .null (some (.mapping drumEntries)) =
      some (.mapping drumEntries) := rfl
  have hcomponents : (InputType.record drumFields).components "drum" (.mapping drumEntries) =
      (drumFields.take 1).map drumPart ++ drumPart drumFields[1] ::
        (drumFields.drop 2).map drumPart := rfl
  have hagree : ∀ other ∈ (drumFields.take 1).map drumPart ++ (drumFields.drop 2).map drumPart,
      ∀ call ∈ other.calls answerBoom (.top .null {}), answerBoom call = failBeat call := by
    have hloud : (drumPart drumFields[0]).calls answerBoom (.top .null {}) =
      [⟨⟨"$(level)", "drum.loud"⟩, ⟨.null, .mapping drumEntries, some (.bool true), {}⟩⟩] := rfl
    have hlabel : (drumPart drumFields[2]).calls answerBoom (.top .null {}) = [] := rfl
    have hstick : (drumPart drumFields[3]).calls answerBoom (.top .null {}) = [] := rfl
    show ∀ other ∈ [drumPart drumFields[0], drumPart drumFields[2], drumPart drumFields[3]], _
    simp only [List.forall_mem_cons, hloud, hlabel, hstick, List.not_mem_nil, false_imp_iff,
      implies_true, and_true]
    exact (if_neg (by decide)).symm
  have hfail : ((InputType.record drumFields).render "drum" .plain "drum" .null
      (some (.mapping drumEntries)) (.top .null {})).run failBeat = _ :=
    ((InputType.contained_component hvalue hcomponents hagree).1 failBeat (by simp)).2
  exact ⟨by decide, by decide, congrArg Rendered.findings hfail⟩

end Invocation
