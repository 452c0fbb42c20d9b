import Invocation.Proofs.Assembly.Defaults
import Invocation.Proofs.Assembly.Targets
import Invocation.Proofs.Rendering.Lookup
import Invocation.Proofs.Text.ByteOrder
import Mathlib

/-!
# The order in which entries are started

Arguments and inputs with a position are started by their positions, arguments of one position by their
indices before inputs by the bytes of their ids; the redirections come last (`exists_isSchedule`).  When the
ids are distinct there is only one such order, and the defaults put the same values into the job in any
order, so that it does not matter how the inputs are ordered in the tool (`assemble_perm`).
-/

namespace Invocation

/-- What orders the entries of one position: the index of an argument, or the id of an input. -/
inductive EntryKey where
  | argument (index : Nat)
  | input (id : String)

/-- Arguments stand before inputs; the ids of inputs are compared by their bytes. -/
inductive EntryKey.Precedes : EntryKey → EntryKey → Prop where
  | arguments {index other : Nat} : index ≤ other → Precedes (.argument index) (.argument other)
  | argument_input (index : Nat) (id : String) : Precedes (.argument index) (.input id)
  | same (id : String) : Precedes (.input id) (.input id)
  | inputs {id other : String} : List.Lex (· < ·) (Text.bytes id) (Text.bytes other) →
      Precedes (.input id) (.input other)

/-- Keys that stand before each other are equal. -/
theorem EntryKey.Precedes.antisymm {first second : EntryKey} (h : first.Precedes second)
    (hback : second.Precedes first) : first = second := by
  cases h with
  | arguments hle =>
      cases hback with
      | arguments hge => rw [Nat.le_antisymm hle hge]
  | argument_input => cases hback
  | same => rfl
  | inputs hlt =>
      cases hback with
      | same => rfl
      | inputs hgt => exact absurd hgt (List.lt_asymm hlt)

/-- An entry of a command line that can be told from the others. -/
structure Slot where
  position : Int
  key : EntryKey
  target : Target

namespace Slot

/-- Slots are ordered by their positions, and by their keys where these are equal. -/
def Precedes (first second : Slot) : Prop :=
  first.position < second.position ∨
    (first.position = second.position ∧ first.key.Precedes second.key)

/-- Slots that stand before each other have one key. -/
theorem Precedes.key_eq {first second : Slot} (h : first.Precedes second)
    (hback : second.Precedes first) : first.key = second.key := by
  rcases h with hlt | ⟨heq, hkey⟩
  · rcases hback with hgt | ⟨heq, -⟩ <;> omega
  · rcases hback with hgt | ⟨-, hkeyback⟩
    · omega
    · exact hkey.antisymm hkeyback

/-- The slot of an entry with its index among the entries of a tool, which for an argument is its index
among the arguments. -/
def ofEntry (entry : Entry × Nat) : Slot where
  position := entry.1.position
  key := match entry.1.id with
    | none => .argument entry.2
    | some id => .input id
  target := entry.1.target

/-- Slots are ordered like their entries; the index decides between arguments of one position. -/
theorem precedes_ofEntry {first second : Entry × Nat}
    (h : List.zipIdxLE Entry.precedes first second = true) :
    (ofEntry first).Precedes (ofEntry second) := by
  obtain ⟨⟨position, id, target⟩, index⟩ := first
  obtain ⟨⟨otherPosition, other, otherTarget⟩, otherIndex⟩ := second
  unfold List.zipIdxLE at h
  split at h
  · next hle =>
    rcases Entry.precedes_iff.1 hle with hlt | ⟨heq, hid⟩
    · exact .inl hlt
    · refine .inr ⟨heq, ?_⟩
      cases id with
      | none =>
          cases other with
          | none =>
              -- two arguments may stand either way, so the sort has looked at their indices
              have hge : Entry.precedes ⟨otherPosition, none, otherTarget⟩
                  ⟨position, none, target⟩ = true := Entry.precedes_iff.2 (.inr ⟨heq.symm, nofun⟩)
              rw [if_pos hge] at h
              exact .arguments (of_decide_eq_true h)
          | some other => exact .argument_input index other
      | some id =>
          obtain ⟨other, rfl, hbytes⟩ := hid id rfl
          rcases lt_or_eq_of_le hbytes with hlt | rfl
          · exact .inputs (Text.bytes_lt_of_lt hlt)
          · exact .same id
  · cases h

end Slot

namespace Tool

/-! ## Schedules -/

/-- The slots of the arguments. -/
def argumentSlots (tool : Tool) : List Slot :=
  tool.arguments.mapIdx fun index argument ↦
    ⟨argument.position, .argument index, .argument argument.argument⟩

/-- The slots of the inputs with a position. -/
def inputSlots (tool : Tool) : List Slot :=
  tool.inputs.filterMap fun input ↦
    input.position.map fun position ↦ ⟨position, .input input.input.id, .input input.input⟩

/-- The slots of a tool in the order of their declarations. -/
def slots (tool : Tool) : List Slot :=
  tool.argumentSlots ++ tool.inputSlots

/-- The slots of a tool, each once, in their order. -/
structure IsSchedule (tool : Tool) (schedule : List Slot) : Prop where
  perm : schedule.Perm tool.slots
  ordered : schedule.Pairwise Slot.Precedes

/-- The slots are those of the entries. -/
theorem map_ofEntry_entries (tool : Tool) : tool.entries.zipIdx.map Slot.ofEntry = tool.slots := by
  have harguments : (tool.argumentEntries.zipIdx).map Slot.ofEntry = tool.argumentSlots := by
    unfold argumentEntries argumentSlots
    rw [List.mapIdx_eq_zipIdx_map, List.zipIdx_map, List.map_map]
    rfl
  -- the slot of an input does not depend on its index
  have hinputs (start : Nat) : (tool.inputEntries.zipIdx start).map Slot.ofEntry = tool.inputSlots := by
    unfold inputEntries inputSlots
    induction tool.inputs generalizing start with
    | nil => rfl
    | cons input rest ih =>
        cases hposition : input.position with
        | none =>
            rw [List.filterMap_cons_none (by simp [hposition]),
              List.filterMap_cons_none (by simp [hposition])]
            exact ih start
        | some position =>
            rw [List.filterMap_cons_some (by rw [hposition]; rfl),
              List.filterMap_cons_some (by rw [hposition]; rfl), List.zipIdx_cons, List.map_cons, ih]
            rfl
  unfold entries slots
  rw [List.zipIdx_append, List.map_append, harguments, hinputs]

/-- What is started is a schedule, followed by the redirections. -/
theorem exists_isSchedule (tool : Tool) :
    ∃ schedule, tool.IsSchedule schedule ∧
      tool.targets = schedule.map Slot.target ++ tool.redirections := by
  refine ⟨(tool.entries.zipIdx.mergeSort (List.zipIdxLE Entry.precedes)).map Slot.ofEntry, ⟨?_, ?_⟩, ?_⟩
  · rw [← map_ofEntry_entries]
    exact (List.mergeSort_perm _ _).map _
  · refine List.pairwise_map.2 ((List.pairwise_mergeSort ?_ ?_ _).imp Slot.precedes_ofEntry)
    · exact List.zipIdxLE_trans Entry.precedes_trans
    · exact List.zipIdxLE_total Entry.precedes_total
  · unfold targets
    rw [← entries, ← List.mergeSort_zipIdx, List.map_map, List.map_map]
    rfl

/-- Distinct ids make the keys of the slots distinct. -/
theorem nodup_key_slots {tool : Tool} (h : (tool.inputs.map (·.input.id)).Nodup) :
    (tool.slots.map Slot.key).Nodup := by
  unfold slots
  rw [List.map_append]
  refine List.nodup_append.2 ⟨?_, ?_, ?_⟩
  · have hkeys : tool.argumentSlots.map Slot.key =
        (List.range tool.arguments.length).map EntryKey.argument := by
      refine List.ext_getElem (by simp [argumentSlots]) fun index hindex _ ↦ ?_
      simp [argumentSlots]
    rw [hkeys]
    exact List.nodup_range.map fun _ _ heq ↦ EntryKey.argument.inj heq
  · have hkeys : (tool.inputSlots.map Slot.key).Sublist
        (tool.inputs.map fun input ↦ .input input.input.id) := by
      unfold inputSlots
      rw [List.map_filterMap]
      refine filterMap_sublist_map (fun input key hkey ↦ ?_) tool.inputs
      obtain ⟨slot, hslot, rfl⟩ := Option.map_eq_some_iff.1 hkey
      obtain ⟨position, -, rfl⟩ := Option.map_eq_some_iff.1 hslot
      rfl
    refine hkeys.nodup ?_
    rw [← Function.comp_def EntryKey.input, ← List.map_map]
    exact h.map fun _ _ heq ↦ EntryKey.input.inj heq
  · intro first hfirst second hsecond heq
    obtain ⟨slot, hslot, rfl⟩ := List.mem_map.1 hfirst
    obtain ⟨index, hindex, rfl⟩ := List.mem_mapIdx.1 hslot
    obtain ⟨other, hother, hkey⟩ := List.mem_map.1 hsecond
    obtain ⟨input, -, hinput⟩ := List.mem_filterMap.1 hother
    obtain ⟨position, -, rfl⟩ := Option.map_eq_some_iff.1 hinput
    rw [← hkey] at heq
    cases heq

/-- When the ids are distinct there is one schedule only, for the inputs in any order. -/
theorem IsSchedule.eq_of_perm {tool other : Tool} {schedule another : List Slot}
    (h : tool.IsSchedule schedule) (hother : other.IsSchedule another) (hperm : other.slots.Perm tool.slots)
    (hids : (tool.inputs.map (·.input.id)).Nodup) : another = schedule := by
  have hsame (first second : Slot) (hfirst : first ∈ another) (hsecond : second ∈ schedule)
      (hle : first.Precedes second) (hge : second.Precedes first) : first = second := by
    have hmem : first ∈ tool.slots := (hother.perm.trans hperm).mem_iff.1 hfirst
    exact List.inj_on_of_nodup_map (nodup_key_slots hids) hmem (h.perm.mem_iff.1 hsecond)
      (hle.key_eq hge)
  exact List.Perm.eq_of_pairwise hsame hother.ordered h.ordered
    (hother.perm.trans (hperm.trans h.perm.symm))

/-- The order of the inputs does not matter for the targets when their ids are distinct. -/
theorem targets_perm {tool : Tool} {inputs : List ToolInput} (hperm : inputs.Perm tool.inputs)
    (hids : (tool.inputs.map (·.input.id)).Nodup) :
    ({ tool with inputs := inputs } : Tool).targets = tool.targets := by
  obtain ⟨schedule, hschedule, htargets⟩ := tool.exists_isSchedule
  obtain ⟨another, hanother, htargetsOther⟩ := ({ tool with inputs := inputs } : Tool).exists_isSchedule
  have hslots : ({ tool with inputs := inputs } : Tool).slots.Perm tool.slots :=
    (hperm.filterMap _).append_left _
  rw [htargets, htargetsOther, hschedule.eq_of_perm hanother hslots hids]
  rfl

/-! ## Defaults -/

/-- Whether a default is put depends on what there is for its id only. -/
theorem withDefault_cases (entries : Entries JobValue) (input : ToolInput) :
    (∀ others : Entries JobValue, others.lookup input.input.id = entries.lookup input.input.id →
      withDefault others input = others) ∨
    ∃ value, ∀ others : Entries JobValue, others.lookup input.input.id = entries.lookup input.input.id →
      withDefault others input = others.put input.input.id value := by
  cases hdefault : input.default with
  | none => exact .inl fun others _ ↦ withDefault_of_eq_none hdefault others
  | some value =>
      rcases JobValue.missing_or_present (entries.lookup input.input.id) with
        hown | ⟨found, hfound, hpresent⟩
      · refine .inr ⟨value, fun others hothers ↦ withDefault_of_missing hdefault ?_⟩
        rw [hothers, hown]
      · exact .inl fun others hothers ↦ withDefault_of_present (hothers.trans hfound) hpresent

/-- A default is put for the id of its input only. -/
theorem lookup_withDefault_of_ne {key : String} {input : ToolInput} (h : key ≠ input.input.id)
    (entries : Entries JobValue) : (withDefault entries input).lookup key = entries.lookup key := by
  rcases withDefault_cases entries input with hsame | ⟨value, hput⟩
  · rw [hsame entries rfl]
  · rw [hput entries rfl, Entries.lookup_put, if_neg h]

/-- A default is put into entries in any order. -/
theorem reordered_withDefault {entries others : Entries JobValue} (h : Entries.Reordered entries others)
    (input : ToolInput) :
    Entries.Reordered (withDefault entries input) (withDefault others input) := by
  rcases withDefault_cases entries input with hsame | ⟨value, hput⟩
  · rw [hsame entries rfl, hsame others (h.lookup _).symm]
    exact h
  · rw [hput entries rfl, hput others (h.lookup _).symm]
    exact h.put _ value

/-- The defaults of two inputs are put in any order. -/
theorem reordered_withDefault_withDefault {first second : ToolInput} (h : first.input.id ≠ second.input.id)
    (entries : Entries JobValue) :
    Entries.Reordered (withDefault (withDefault entries first) second)
      (withDefault (withDefault entries second) first) := by
  have hfirst := lookup_withDefault_of_ne h entries
  have hsecond := lookup_withDefault_of_ne h.symm entries
  rcases withDefault_cases entries first with hsame | ⟨value, hput⟩
  · rw [hsame _ hfirst, hsame entries rfl]
    exact .refl _
  · rcases withDefault_cases entries second with hsame | ⟨another, hputsecond⟩
    · rw [hsame _ hsecond, hsame entries rfl]
      exact .refl _
    · rw [hputsecond _ hsecond, hput _ hfirst, hput entries rfl, hputsecond entries rfl]
      exact Entries.reordered_put_put h value another entries

/-- The defaults of further inputs are put into entries in any order. -/
theorem reordered_foldl_withDefault {entries others : Entries JobValue}
    (h : Entries.Reordered entries others) (inputs : List ToolInput) :
    Entries.Reordered (inputs.foldl withDefault entries) (inputs.foldl withDefault others) := by
  induction inputs generalizing entries others with
  | nil => exact h
  | cons input rest ih => exact ih (reordered_withDefault h input)

/-- The defaults of inputs with distinct ids are put in any order. -/
theorem reordered_of_perm {inputs others : List ToolInput} (hperm : inputs.Perm others)
    (hids : (others.map (·.input.id)).Nodup) (entries : Entries JobValue) :
    Entries.Reordered (inputs.foldl withDefault entries) (others.foldl withDefault entries) := by
  induction hperm generalizing entries with
  | nil => exact .refl _
  | cons input _ ih => exact ih (List.nodup_cons.1 hids).2 _
  | swap first second rest =>
      -- the ids of neighbours differ, so neither default hides the other
      refine reordered_foldl_withDefault (reordered_withDefault_withDefault (fun heq ↦ ?_) entries) rest
      exact (List.nodup_cons.1 hids).1 (List.mem_cons.2 (.inl heq.symm))
  | @trans _ middle last _ hback ih ihback =>
      have hmiddle : (middle.map (·.input.id)).Nodup := (hback.map _).nodup_iff.2 hids
      exact (ih hmiddle entries).trans (ihback hids entries)

/-! ## Command lines -/

/-- When the ids of the inputs are distinct, an evaluator that ignores the order of keys gives one command
line for the inputs in any order.  For every tool what is started is a schedule of its arguments and inputs
with a position, followed by its standard input and its standard output. -/
theorem assemble_perm (tool : Tool) :
    (∀ inputs : List ToolInput, inputs.Perm tool.inputs → (tool.inputs.map (·.input.id)).Nodup →
      ∀ evaluator : Evaluator, IgnoresKeyOrder evaluator → ∀ job runtime,
        ({ tool with inputs := inputs } : Tool).assemble evaluator job runtime =
          tool.assemble evaluator job runtime) ∧
    ∃ schedule, tool.IsSchedule schedule ∧ ∀ job runtime,
      tool.renderings job runtime =
        (schedule.map Slot.target ++ (tool.stdin.toList ++ tool.stdout.toList).map Target.stream).map
          fun target ↦ target.render job none (.top job runtime) := by
  constructor
  · intro inputs hperm hids evaluator hevaluator job runtime
    rw [assemble_eq_gather_targets, assemble_eq_gather_targets, targets_perm hperm hids]
    refine congrArg (gather tool.baseCommand) (List.map_congr_left fun target _ ↦ congrArg some ?_)
    have hjob : JobValue.Reordered (({ tool with inputs := inputs } : Tool).withDefaults job)
        (tool.withDefaults job) := .mapping (reordered_of_perm hperm hids job.entries)
    exact target.run_render_reordered hevaluator hjob (Scope.reordered_top hjob runtime) none
  · obtain ⟨schedule, hschedule, htargets⟩ := tool.exists_isSchedule
    exact ⟨schedule, hschedule, fun job runtime ↦ by rw [renderings, htargets]; rfl⟩

/-- A tool with two inputs of one position, behind which its last argument stands. -/
def mapper : Tool where
  id := none
  version := .v1
  baseCommand := ["map"]
  arguments := [⟨⟨some "--all", .plain, "document.arguments[0]"⟩, 9223372036854775807⟩]
  inputs :=
    [⟨⟨"reads", .primitive .string, .plain, "document.inputs[0]"⟩, some (.string "r.fq"), some 2,
        false⟩,
     ⟨⟨"genome", .primitive .string, .plain, "document.inputs[1]"⟩, some (.string "g.fa"), some 2,
        false⟩]
  stdin := some ⟨.stdin, ⟨"reads", "document.stdin"⟩, "document.stdin"⟩
  stdout := none

/-- Every evaluation gives the reads of the job. -/
def readsOfJob : Evaluator := fun call ↦
  .ok ((call.scope.inputs.get? "reads").getD .null)

/-- The inputs of the mapper can be declared the other way round, although its defaults are then put into
the job in another order. -/
theorem assemble_perm_mapper :
    IgnoresKeyOrder readsOfJob ∧
    (mapper.withDefaults (.mapping [])).entries.keys = ["reads", "genome"] ∧
    (({ mapper with inputs := mapper.inputs.reverse } : Tool).withDefaults (.mapping [])).entries.keys =
      ["genome", "reads"] ∧
    ({ mapper with inputs := mapper.inputs.reverse } : Tool).assemble readsOfJob (.mapping []) {} =
      mapper.assemble readsOfJob (.mapping []) {} := by
  have hevaluator : IgnoresKeyOrder readsOfJob := fun expression scope other h ↦ by
    unfold readsOfJob
    rw [h.inputs.get?_eq]
  refine ⟨hevaluator, rfl, rfl, ?_⟩
  exact (assemble_perm mapper).1 _ (List.reverse_perm _) (by decide) readsOfJob hevaluator _ {}

end Tool

end Invocation
