import Invocation.Assembly
import Mathlib.Data.List.Basic

/-!
# Defaults of a job

The defaults of the inputs are filled into a job one after the other, and each of them sees what the ones before
it have left.  For one key it comes to this: of the value of the job and the defaults for the key the first one
is taken that is not null, and null only if there is nothing else (`JobValue.settled`,
`lookup_foldl_withDefault`).  Known keys stay where they are, and new ones come behind them in the order of
their declaration (`keys_foldl_withDefault`).
-/

namespace Invocation

/-- A value that is there already can be put in its place. -/
theorem Entries.put_eq_of_lookup {α : Type} {entries : Entries α} {key : String} {value : α}
    (h : entries.lookup key = some value) : entries.put key value = entries := by
  induction entries with
  | nil => cases h
  | cons entry rest ih =>
      obtain ⟨name, found⟩ := entry
      by_cases hname : name = key
      · subst hname
        rw [List.lookup_cons_self] at h
        cases h
        simp [put]
      · rw [lookup_cons_of_ne hname] at h
        simp [put, hname, ih h]

/-! ## The value of a key -/

namespace JobValue

/-- The value of a key with the given defaults, in the order of their declaration: its own value unless that is
null, else the first default that is not null, else null if its own value or a default is null. -/
def settled (own : Option JobValue) (defaults : List JobValue) : Option JobValue :=
  match own.filter fun value ↦ !value.isNull with
  | some value => some value
  | none =>
    match defaults.find? fun value ↦ !value.isNull with
    | some value => some value
    | none => if own.isSome || defaults.any isNull then some .null else none

/-- Null is the only value that is null. -/
theorem eq_null_of_isNull {value : JobValue} (h : value.isNull = true) : value = .null := by
  cases value with
  | null => rfl
  | bool | number | string | file | list | mapping => cases h

/-- A key has no value but null, or one that is not null. -/
theorem missing_or_present (own : Option JobValue) :
    own.filter (fun value ↦ !value.isNull) = none ∨ ∃ value, own = some value ∧ value.isNull = false := by
  cases own with
  | none => exact .inl rfl
  | some value =>
      cases hnull : value.isNull with
      | false => exact .inr ⟨value, rfl, hnull⟩
      | true => exact .inl (by simp [hnull])

/-- A value that is not null is settled. -/
theorem settled_of_not_isNull {value : JobValue} (h : value.isNull = false) (defaults : List JobValue) :
    settled (some value) defaults = some value := by
  have hown : (some value).filter (fun value ↦ !value.isNull) = some value := by simp [h]
  unfold settled
  rw [hown]

/-- The first default that is not null is settled when the key has no value but null. -/
theorem settled_of_find? {own : Option JobValue} (hown : own.filter (fun value ↦ !value.isNull) = none)
    {defaults : List JobValue} {value : JobValue}
    (h : defaults.find? (fun value ↦ !value.isNull) = some value) : settled own defaults = some value := by
  unfold settled
  rw [hown, h]

/-- When there is no value but null, null is settled if there is one. -/
theorem settled_of_find?_eq_none {own : Option JobValue}
    (hown : own.filter (fun value ↦ !value.isNull) = none) {defaults : List JobValue}
    (h : defaults.find? (fun value ↦ !value.isNull) = none) :
    settled own defaults = if own.isSome || defaults.any isNull then some .null else none := by
  unfold settled
  rw [hown, h]

/-- Without defaults a key keeps its own value. -/
theorem settled_nil (own : Option JobValue) : settled own [] = own := by
  cases own with
  | none => rfl
  | some value =>
      cases hnull : value.isNull with
      | false => exact settled_of_not_isNull hnull []
      | true =>
          cases eq_null_of_isNull hnull
          rfl

/-- A single default settles a key that has no value but null. -/
theorem settled_singleton {own : Option JobValue} (hown : own.filter (fun value ↦ !value.isNull) = none)
    (value : JobValue) : settled own [value] = some value := by
  cases hnull : value.isNull with
  | false => exact settled_of_find? hown (by simp [hnull])
  | true =>
      cases eq_null_of_isNull hnull
      rw [settled_of_find?_eq_none hown rfl]
      simp [isNull]

/-- The defaults can be filled in one part after the other. -/
theorem settled_append (own : Option JobValue) (first rest : List JobValue) :
    settled own (first ++ rest) = settled (settled own first) rest := by
  rcases missing_or_present own with hown | ⟨value, rfl, hpresent⟩
  · cases hfirst : first.find? fun value ↦ !value.isNull with
    | some value =>
        have hpresent : value.isNull = false := by simpa using List.find?_some hfirst
        have hall : (first ++ rest).find? (fun value ↦ !value.isNull) = some value := by
          rw [List.find?_append, hfirst, Option.some_or]
        rw [settled_of_find? hown hall, settled_of_find? hown hfirst, settled_of_not_isNull hpresent]
    | none =>
        -- what the first defaults leave is null, or still nothing
        have hall : (first ++ rest).find? (fun value ↦ !value.isNull) =
            rest.find? fun value ↦ !value.isNull := by
          rw [List.find?_append, hfirst, Option.none_or]
        have hleft : (settled own first).filter (fun value ↦ !value.isNull) = none := by
          rw [settled_of_find?_eq_none hown hfirst]
          split <;> rfl
        cases hrest : rest.find? fun value ↦ !value.isNull with
        | some value => rw [settled_of_find? hown (hall.trans hrest), settled_of_find? hleft hrest]
        | none =>
            rw [settled_of_find?_eq_none hown (hall.trans hrest), settled_of_find?_eq_none hleft hrest,
              settled_of_find?_eq_none hown hfirst, List.any_append, ← Bool.or_assoc]
            cases own.isSome || first.any isNull <;> rfl
  · simp only [settled_of_not_isNull hpresent]

/-- A key with a default is settled by a value that is not null, unless this default is null: then null may be
all there is. -/
theorem settled_of_mem (own : Option JobValue) {defaults : List JobValue} {value : JobValue}
    (h : value ∈ defaults) :
    (∃ found, settled own defaults = some found ∧ found.isNull = false) ∨
      value = .null ∧ settled own defaults = some .null := by
  rcases missing_or_present own with hown | ⟨found, rfl, hpresent⟩
  · cases hdefault : defaults.find? fun value ↦ !value.isNull with
    | some found =>
        exact .inl ⟨found, settled_of_find? hown hdefault, by simpa using List.find?_some hdefault⟩
    | none =>
        have hnull : value.isNull = true := by simpa using List.find?_eq_none.1 hdefault value h
        have hany : defaults.any isNull = true := List.any_eq_true.2 ⟨value, h, hnull⟩
        refine .inr ⟨eq_null_of_isNull hnull, ?_⟩
        rw [settled_of_find?_eq_none hown hdefault, hany, Bool.or_true, if_pos rfl]
  · exact .inl ⟨found, settled_of_not_isNull hpresent defaults, hpresent⟩

end JobValue

/-- The defaults that inputs declare for an id, in the order of their declaration. -/
def defaultsFor (id : String) (inputs : List ToolInput) : List JobValue :=
  inputs.filterMap fun input ↦ if input.input.id = id then input.default else none

/-- The ids of the inputs that declare a default, in the order of their declaration. -/
def idsWithDefault (inputs : List ToolInput) : List String :=
  (inputs.filter fun input ↦ input.default.isSome).map fun input ↦ input.input.id

namespace Tool

/-- An input without a default leaves everything as it is. -/
theorem withDefault_of_eq_none {input : ToolInput} (h : input.default = none) (entries : Entries JobValue) :
    withDefault entries input = entries := by
  unfold withDefault
  rw [h]

/-- A value that is not null is no matter for defaults. -/
theorem withDefault_of_present {entries : Entries JobValue} {input : ToolInput} {value : JobValue}
    (h : entries.lookup input.input.id = some value) (hvalue : value.isNull = false) :
    withDefault entries input = entries := by
  unfold withDefault
  rw [h]
  cases input.default with
  | none => rfl
  | some default =>
      cases value with
      | null => cases hvalue
      | bool | number | string | file | list | mapping => rfl

/-- A default is put where there is nothing but null. -/
theorem withDefault_of_missing {entries : Entries JobValue} {input : ToolInput} {value : JobValue}
    (hdefault : input.default = some value)
    (h : (entries.lookup input.input.id).filter (fun value ↦ !value.isNull) = none) :
    withDefault entries input = entries.put input.input.id value := by
  unfold withDefault
  rw [hdefault]
  cases hfound : entries.lookup input.input.id with
  | none => rfl
  | some found =>
      rw [hfound] at h
      cases found with
      | null => rfl
      | bool | number | string | file | list | mapping => cases h

/-- The default of an input settles its own id. -/
theorem lookup_withDefault_eq (entries : Entries JobValue) (input : ToolInput) (key : String) :
    (withDefault entries input).lookup key =
      JobValue.settled (entries.lookup key) (defaultsFor key [input]) := by
  cases hdefault : input.default with
  | none =>
      have hnone : defaultsFor key [input] = [] := by simp [defaultsFor, hdefault]
      rw [withDefault_of_eq_none hdefault, hnone, JobValue.settled_nil]
  | some value =>
      rcases JobValue.missing_or_present (entries.lookup input.input.id) with
        hown | ⟨found, hfound, hpresent⟩
      · rw [withDefault_of_missing hdefault hown, Entries.lookup_put]
        by_cases hkey : input.input.id = key
        · have hone : defaultsFor key [input] = [value] := by simp [defaultsFor, hdefault, hkey]
          rw [hone, if_pos hkey.symm, ← hkey, JobValue.settled_singleton hown]
        · have hnone : defaultsFor key [input] = [] := by simp [defaultsFor, hkey]
          rw [hnone, if_neg (Ne.symm hkey), JobValue.settled_nil]
      · rw [withDefault_of_present hfound hpresent]
        by_cases hkey : input.input.id = key
        · rw [← hkey, hfound, JobValue.settled_of_not_isNull hpresent]
        · have hnone : defaultsFor key [input] = [] := by simp [defaultsFor, hkey]
          rw [hnone, JobValue.settled_nil]

/-- Defaults settle each key by itself. -/
theorem lookup_foldl_withDefault (inputs : List ToolInput) (entries : Entries JobValue) (key : String) :
    (inputs.foldl withDefault entries).lookup key =
      JobValue.settled (entries.lookup key) (defaultsFor key inputs) := by
  induction inputs generalizing entries with
  | nil => exact (JobValue.settled_nil _).symm
  | cons input rest ih =>
      have hsplit : defaultsFor key (input :: rest) = defaultsFor key [input] ++ defaultsFor key rest :=
        List.filterMap_append (l := [input])
      rw [List.foldl_cons, ih, lookup_withDefault_eq, hsplit, JobValue.settled_append]

/-! ## The order of keys -/

/-- The default of an input adds its id, unless it is known. -/
theorem keys_withDefault (entries : Entries JobValue) (input : ToolInput) :
    (withDefault entries input).keys =
      entries.keys ++ (idsWithDefault [input]).filter fun id ↦ !entries.keys.contains id := by
  cases hdefault : input.default with
  | none =>
      have hnone : idsWithDefault [input] = [] := by simp [idsWithDefault, hdefault]
      rw [withDefault_of_eq_none hdefault, hnone, List.filter_nil, List.append_nil]
  | some value =>
      have hone : idsWithDefault [input] = [input.input.id] := by simp [idsWithDefault, hdefault]
      rw [hone]
      rcases JobValue.missing_or_present (entries.lookup input.input.id) with
        hown | ⟨found, hfound, hpresent⟩
      · rw [withDefault_of_missing hdefault hown, Entries.keys_put]
        by_cases hmem : input.input.id ∈ entries.keys
        · simp [hmem]
        · simp [hmem]
      · have hmem : input.input.id ∈ entries.keys := by
          rw [← Entries.hasKey_iff, Entries.hasKey, hfound]
          rfl
        rw [withDefault_of_present hfound hpresent]
        simp [hmem]

/-- Keys are new among further ones when they are neither known nor the next one. -/
theorem append_eraseDups (known : List String) (next : String) (further : List String) :
    known ++ [next].filter (fun id ↦ !known.contains id) ++
        (further.filter fun id ↦
          !(known ++ [next].filter fun id ↦ !known.contains id).contains id).eraseDups =
      known ++ ((next :: further).filter fun id ↦ !known.contains id).eraseDups := by
  by_cases hmem : next ∈ known
  · simp [hmem]
  · have hfurther : (further.filter fun id ↦ !(known ++ [next]).contains id) =
        (further.filter fun id ↦ !known.contains id).filter fun id ↦ !id == next := by
      rw [List.filter_filter]
      refine List.filter_congr fun id _ ↦ Bool.eq_iff_iff.2 ?_
      simp [and_comm]
    have hnext : [next].filter (fun id ↦ !known.contains id) = [next] := by simp [hmem]
    rw [hnext, hfurther, List.filter_cons_of_pos (by simpa using hmem), List.eraseDups_cons,
      List.append_assoc]
    rfl

/-- Known keys stay where they are, and the new ones come behind them, each of them once. -/
theorem keys_foldl_withDefault (inputs : List ToolInput) (entries : Entries JobValue) :
    (inputs.foldl withDefault entries).keys =
      entries.keys ++ ((idsWithDefault inputs).filter fun id ↦ !entries.keys.contains id).eraseDups := by
  induction inputs generalizing entries with
  | nil => simp [idsWithDefault]
  | cons input rest ih =>
      rw [List.foldl_cons, ih, keys_withDefault]
      cases hdefault : input.default with
      | none => simp [idsWithDefault, hdefault]
      | some value =>
          have hone : idsWithDefault [input] = [input.input.id] := by simp [idsWithDefault, hdefault]
          have hcons : idsWithDefault (input :: rest) = input.input.id :: idsWithDefault rest := by
            simp [idsWithDefault, hdefault]
          rw [hone, hcons, append_eraseDups]

/-! ## A second time -/

/-- A default of an input that has been filled in leaves everything as it is. -/
theorem withDefault_eq_self {inputs : List ToolInput} {input : ToolInput} (hmem : input ∈ inputs)
    (entries : Entries JobValue) :
    withDefault (inputs.foldl withDefault entries) input = inputs.foldl withDefault entries := by
  cases hdefault : input.default with
  | none => exact withDefault_of_eq_none hdefault _
  | some value =>
      have hdeclared : value ∈ defaultsFor input.input.id inputs :=
        List.mem_filterMap.2 ⟨input, hmem, by simpa using hdefault⟩
      have hsettled := lookup_foldl_withDefault inputs entries input.input.id
      rcases JobValue.settled_of_mem (entries.lookup input.input.id) hdeclared with
        ⟨found, hfound, hpresent⟩ | ⟨rfl, hnull⟩
      · exact withDefault_of_present (hsettled.trans hfound) hpresent
      · have hlookup := hsettled.trans hnull
        rw [withDefault_of_missing hdefault (by rw [hlookup]; rfl), Entries.put_eq_of_lookup hlookup]

/-- Defaults that have been filled in leave everything as it is. -/
theorem foldl_withDefault_eq_self {inputs : List ToolInput} {entries : Entries JobValue}
    (h : ∀ input ∈ inputs, withDefault entries input = entries) :
    inputs.foldl withDefault entries = entries := by
  induction inputs with
  | nil => rfl
  | cons input rest ih =>
      obtain ⟨hinput, hrest⟩ := List.forall_mem_cons.1 h
      rw [List.foldl_cons, hinput, ih hrest]

/-- A key of the job with its defaults is settled by its value in the job and the defaults for it. -/
theorem get?_withDefaults_eq (tool : Tool) (job : JobValue) (key : String) :
    (tool.withDefaults job).get? key =
      JobValue.settled (job.entries.lookup key) (defaultsFor key tool.inputs) :=
  lookup_foldl_withDefault tool.inputs job.entries key

/-- Filling in the defaults settles every key by the value of the job and the defaults for the key.  The keys of
the job stay in their order, and new keys come behind them in the order in which their defaults are declared.  A
job that is no mapping is like the empty one, and filling in the defaults once more changes nothing. -/
theorem withDefaults_settles (tool : Tool) (job : JobValue) :
    (∀ key, (tool.withDefaults job).get? key =
      JobValue.settled (job.entries.lookup key) (defaultsFor key tool.inputs)) ∧
    (tool.withDefaults job).entries.keys = job.entries.keys ++
      ((idsWithDefault tool.inputs).filter fun id ↦ !job.entries.keys.contains id).eraseDups ∧
    ((∀ entries, job ≠ .mapping entries) → tool.withDefaults job = tool.withDefaults (.mapping [])) ∧
    tool.withDefaults (tool.withDefaults job) = tool.withDefaults job := by
  refine ⟨tool.get?_withDefaults_eq job, keys_foldl_withDefault tool.inputs job.entries, fun hjob ↦ ?_, ?_⟩
  · have hempty : job.entries = [] := by
      cases job with
      | mapping entries => exact absurd rfl (hjob entries)
      | null | bool | number | string | file | list => rfl
    show JobValue.mapping (tool.inputs.foldl withDefault job.entries) = _
    rw [hempty]
    rfl
  · show JobValue.mapping (tool.inputs.foldl withDefault (tool.inputs.foldl withDefault job.entries)) = _
    rw [foldl_withDefault_eq_self fun input hmem ↦ withDefault_eq_self hmem job.entries]
    rfl

/-- A tool that declares two defaults for the depth, the first of which is null, and null for the label. -/
def layered : Tool where
  id := none
  version := .v1
  baseCommand := ["layer"]
  arguments := []
  inputs :=
    [⟨⟨"label", .primitive .string, .plain, "document.inputs[0]"⟩, some .null, some 0, true⟩,
     ⟨⟨"depth", .primitive .int, .plain, "document.inputs[1]"⟩, some .null, some 1, true⟩,
     ⟨⟨"depth", .primitive .int, .plain, "document.inputs[2]"⟩, some (.number (.int 7)), none, true⟩,
     ⟨⟨"width", .primitive .int, .plain, "document.inputs[3]"⟩, some (.number (.int 3)), some 2, false⟩]
  stdin := none
  stdout := none

/-- A width and a key that is no input are kept, the depth is the second default, and the label is null.  A list
is like an empty job. -/
theorem withDefaults_settles_layered :
    layered.withDefaults (.mapping [("width", .number (.int 5)), ("note", .null)]) =
      .mapping [("width", .number (.int 5)), ("note", .null), ("label", .null),
        ("depth", .number (.int 7))] ∧
    (layered.withDefaults (.mapping [("width", .number (.int 5)), ("note", .null)])).get? "depth" =
      JobValue.settled none [.null, .number (.int 7)] ∧
    (∀ entries, JobValue.list [.null] ≠ .mapping entries) ∧
    layered.withDefaults (.list [.null]) = layered.withDefaults (.mapping []) := by
  obtain ⟨hvalues, -⟩ := withDefaults_settles layered (.mapping [("width", .number (.int 5)), ("note", .null)])
  obtain ⟨-, -, hjob, -⟩ := withDefaults_settles layered (.list [.null])
  exact ⟨rfl, hvalues "depth", nofun, hjob nofun⟩

end Tool

end Invocation
