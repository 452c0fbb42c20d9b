import Invocation.Assembly
import Invocation.Proofs.Rendering.Steps
import Mathlib.Algebra.Ring.Nat
import Mathlib.Data.List.Forall2

/-!
# Runs of an assembly

All entries of a command line are started together.  Until the cancellation fires each of them may take a
step of its rendering, and an entry whose rendering is done may finish; afterwards the entries that have
not finished are dropped.  `Assembling.Step` allows these steps in every order and the cancellation at
every moment, and a run is any number of them.  `exists_moment` says what a run amounts to: there is a
moment before the cancellation at which every finished entry has the result of `Rendering.run`, and what
has not finished at that moment is dropped.
-/

namespace Invocation

/-- Where an entry of a command line stands. -/
inductive Stage where
  | pending (rendering : Rendering)
  | finished (result : Rendered)
  | dropped

namespace Stage

/-- The entry has finished. -/
def isFinished : Stage → Bool
  | .finished _ => true
  | _ => false

/-- The result of an entry that has finished. -/
def outcome : Stage → Option Rendered
  | .finished result => some result
  | _ => none

/-- `Advance evaluator first second` says that an entry takes a step of its rendering or finishes. -/
inductive Advance (evaluator : Evaluator) : Stage → Stage → Prop where
  | step (rendering next : Rendering) :
      Rendering.Step evaluator rendering next → Advance evaluator (.pending rendering) (.pending next)
  | finish (result : Rendered) : Advance evaluator (.pending (.done result)) (.finished result)

/-- `Follows evaluator rendering stage` says that `stage` is one that an entry with this rendering can
come to when it is not dropped. -/
inductive Follows (evaluator : Evaluator) (rendering : Rendering) : Stage → Prop where
  | pending (now : Rendering) :
      now.run evaluator = rendering.run evaluator → Follows evaluator rendering (.pending now)
  | finished : Follows evaluator rendering (.finished (rendering.run evaluator))

/-- `Spared first second` says that an entry is left as it is, unless it is pending and is dropped. -/
inductive Spared : Stage → Stage → Prop where
  | same (stage : Stage) : Spared stage stage
  | dropped (rendering : Rendering) : Spared (.pending rendering) .dropped

/-- An entry that advances still follows its rendering. -/
theorem Follows.advance {evaluator : Evaluator} {rendering : Rendering} {first second : Stage}
    (hfirst : Follows evaluator rendering first) (h : Advance evaluator first second) :
    Follows evaluator rendering second := by
  cases h with
  | step now next hstep =>
      cases hfirst with
      | pending _ hrun => exact .pending next (hstep.run_eq.trans hrun)
  | finish result =>
      cases hfirst with
      | pending _ hrun =>
          have : result = rendering.run evaluator := hrun
          subst this
          exact .finished

end Stage

/-- How far an assembly has come: whether the cancellation has fired, and where the entries stand, in
the order of the command line. -/
structure Assembling where
  cancelled : Bool
  entries : List Stage

namespace Assembling

/-- `Step evaluator first second` says that one entry advances before the cancellation, that the
cancellation fires, or that an entry is dropped after it. -/
inductive Step (evaluator : Evaluator) : Assembling → Assembling → Prop where
  | advance (before after : List Stage) (stage next : Stage) :
      stage.Advance evaluator next →
      Step evaluator ⟨false, before ++ stage :: after⟩ ⟨false, before ++ next :: after⟩
  | cancel (entries : List Stage) : Step evaluator ⟨false, entries⟩ ⟨true, entries⟩
  | drop (before after : List Stage) (rendering : Rendering) :
      Step evaluator ⟨true, before ++ .pending rendering :: after⟩
        ⟨true, before ++ .dropped :: after⟩

/-- Any number of steps. -/
abbrev Steps (evaluator : Evaluator) : Assembling → Assembling → Prop :=
  Relation.ReflTransGen (Step evaluator)

/-- No entry is pending. -/
def Settled (state : Assembling) : Prop :=
  ∀ rendering, Stage.pending rendering ∉ state.entries

/-- The state in which the cancellation has just fired. -/
def cancel (state : Assembling) : Assembling :=
  { state with cancelled := true }

/-- Which entries have finished. -/
def kept (state : Assembling) : List Bool :=
  state.entries.map Stage.isFinished

/-- What an assembly gives when it has come this far. -/
def assembled (baseCommand : List String) (state : Assembling) : Assembled :=
  gather baseCommand (state.entries.map Stage.outcome)

/-- The state in which all renderings are started. -/
def start (renderings : List Rendering) : Assembling :=
  ⟨false, renderings.map Stage.pending⟩

variable {evaluator : Evaluator}

/-! ## Before the cancellation -/

/-- Before the cancellation every entry follows its rendering. -/
def Follows (evaluator : Evaluator) (renderings : List Rendering) (state : Assembling) : Prop :=
  List.Forall₂ (Stage.Follows evaluator) renderings state.entries

/-- At the start every entry follows its rendering. -/
theorem follows_start (renderings : List Rendering) :
    Follows evaluator renderings (start renderings) := by
  show List.Forall₂ _ renderings (renderings.map Stage.pending)
  rw [List.forall₂_map_right_iff, List.forall₂_same]
  exact fun rendering _ ↦ .pending rendering rfl

/-- Replacing one element of the second list keeps two lists related. -/
theorem forall₂_replace {α β : Type} {R : α → β → Prop} {xs : List α} {before after : List β}
    {first second : β} (h : List.Forall₂ R xs (before ++ first :: after))
    (hreplace : ∀ x, R x first → R x second) : List.Forall₂ R xs (before ++ second :: after) := by
  induction before generalizing xs with
  | nil =>
      cases h with
      | cons hhead htail => exact .cons (hreplace _ hhead) htail
  | cons value rest ih =>
      cases h with
      | cons hhead htail => exact .cons hhead (ih htail)

/-- A step before the cancellation keeps every entry behind its rendering. -/
theorem Follows.step {renderings : List Rendering} {first second : Assembling}
    (hfirst : Follows evaluator renderings first) (h : Step evaluator first second)
    (hsecond : second.cancelled = false) : Follows evaluator renderings second := by
  cases h with
  | advance before after stage next hadvance =>
      exact forall₂_replace hfirst fun _ hstage ↦ hstage.advance hadvance
  | cancel entries => cases hsecond
  | drop before after rendering => cases hsecond

/-! ## After the cancellation -/

/-- After the cancellation entries are left as they are or dropped. -/
theorem spared_of_steps {moment final : Assembling} (h : Steps evaluator moment.cancel final) :
    final.cancelled = true ∧ List.Forall₂ Stage.Spared moment.entries final.entries := by
  induction h with
  | refl => exact ⟨rfl, List.forall₂_same.2 fun stage _ ↦ .same stage⟩
  | tail _ hstep ih =>
      obtain ⟨hcancelled, hspared⟩ := ih
      cases hstep with
      | advance before after stage next hadvance => cases hcancelled
      | cancel entries => cases hcancelled
      | drop before after rendering =>
          refine ⟨rfl, forall₂_replace hspared fun stage hstage ↦ ?_⟩
          cases hstage
          exact .dropped rendering

/-- Every run has a moment before the cancellation from which on entries are only dropped; a run that
is not cancelled has not gone beyond it. -/
theorem exists_moment {renderings : List Rendering} {final : Assembling}
    (h : Steps evaluator (start renderings) final) :
    ∃ moment, Steps evaluator (start renderings) moment ∧ moment.cancelled = false ∧
      Follows evaluator renderings moment ∧
      (final = moment ∨ Steps evaluator moment.cancel final) := by
  induction h with
  | refl => exact ⟨_, .refl, rfl, follows_start renderings, .inl rfl⟩
  | @tail state next hrun hstep ih =>
      obtain ⟨moment, hmoment, hopen, hfollows, hrest⟩ := ih
      rcases hrest with rfl | hrest
      · by_cases hnext : next.cancelled = false
        · exact ⟨next, hrun.tail hstep, hnext, hfollows.step hstep hnext, .inl rfl⟩
        · -- the step that is not before the cancellation is the cancellation itself
          refine ⟨state, hmoment, hopen, hfollows, .inr ?_⟩
          cases hstep with
          | advance => exact absurd rfl hnext
          | cancel entries => exact .refl
          | drop => cases hopen
      · exact ⟨moment, hmoment, hopen, hfollows, .inr (hrest.tail hstep)⟩

/-! ## What is left at the end -/

/-- What entries with these results come to, when only the entries with the given marks finish in time. -/
def outcomesOf (results : List Rendered) (kept : List Bool) : List (Option Rendered) :=
  List.zipWith (fun result finished ↦ if finished then some result else none) results kept

/-- The results of the entries with the given marks, in order. -/
def keptResults (results : List Rendered) (kept : List Bool) : List Rendered :=
  ((results.zip kept).filter Prod.snd).map Prod.fst

/-- The kept results are those of the entries that finish in time. -/
theorem filterMap_outcomesOf (results : List Rendered) (kept : List Bool) :
    (outcomesOf results kept).filterMap id = keptResults results kept := by
  unfold outcomesOf keptResults
  induction results generalizing kept with
  | nil => rfl
  | cons result rest ih =>
      cases kept with
      | nil => rfl
      | cons finished others =>
          rw [List.zipWith_cons_cons, List.zip_cons_cons, List.filterMap_cons, List.filter_cons]
          cases finished with
          | false => exact ih others
          | true => exact congrArg (result :: ·) (ih others)

/-- Some outcome is missing exactly when some entry does not finish in time. -/
theorem any_isNone_outcomesOf {results : List Rendered} {kept : List Bool}
    (h : results.length = kept.length) :
    (outcomesOf results kept).any Option.isNone = kept.any not := by
  unfold outcomesOf
  induction results generalizing kept with
  | nil =>
      cases kept with
      | nil => rfl
      | cons => cases h
  | cons result rest ih =>
      cases kept with
      | nil => cases h
      | cons finished others =>
          rw [List.zipWith_cons_cons, List.any_cons, List.any_cons, ih (Nat.succ.inj h)]
          cases finished <;> rfl

/-- The entries at the end of a run are those of its last moment before the cancellation, less the
dropped ones. -/
theorem spared_of_moment {moment final : Assembling}
    (h : final = moment ∨ Steps evaluator moment.cancel final) :
    List.Forall₂ Stage.Spared moment.entries final.entries := by
  rcases h with rfl | h
  · exact List.forall₂_same.2 fun stage _ ↦ .same stage
  · exact (spared_of_steps h).2

/-- The outcomes of settled entries are the results of those that had finished in time. -/
theorem outcomes_eq {renderings : List Rendering} {stages finals : List Stage}
    (hfollows : List.Forall₂ (Stage.Follows evaluator) renderings stages)
    (hspared : List.Forall₂ Stage.Spared stages finals)
    (hsettled : ∀ rendering, Stage.pending rendering ∉ finals) :
    finals.map Stage.outcome =
      outcomesOf (renderings.map (Rendering.run evaluator)) (stages.map Stage.isFinished) := by
  induction hfollows generalizing finals with
  | nil =>
      cases hspared
      rfl
  | @cons rendering stage _ _ hhead _ ih =>
      cases hspared with
      | @cons _ final _ rest hspare htail =>
          have hrest := ih htail fun rendering hmem ↦ hsettled rendering (.tail _ hmem)
          have hfirst : final.outcome =
              if stage.isFinished then some (Rendering.run evaluator rendering) else none := by
            cases hhead with
            | pending now _ =>
                cases hspare with
                | same => exact absurd List.mem_cons_self (hsettled now)
                | dropped => rfl
            | finished =>
                cases hspare
                rfl
          rw [List.map_cons, hfirst, hrest]
          rfl

/-- Settled entries that follow their renderings have all finished. -/
theorem Follows.outcomes {renderings : List Rendering} {state : Assembling}
    (hfollows : Follows evaluator renderings state) (hsettled : state.Settled) :
    state.entries.map Stage.outcome =
      renderings.map fun rendering ↦ some (rendering.run evaluator) := by
  unfold Follows Settled at *
  generalize state.entries = stages at hfollows hsettled
  induction hfollows with
  | nil => rfl
  | @cons rendering stage _ _ hhead _ ih =>
      have hrest := ih fun rendering hmem ↦ hsettled rendering (.tail _ hmem)
      cases hhead with
      | pending now _ => exact absurd List.mem_cons_self (hsettled now)
      | finished => exact congrArg (some (rendering.run evaluator) :: ·) hrest

/-- A settled entry was dropped exactly when it has no outcome. -/
theorem dropped_mem_iff {stages : List Stage}
    (hsettled : ∀ rendering, Stage.pending rendering ∉ stages) :
    Stage.dropped ∈ stages ↔ (stages.map Stage.outcome).any Option.isNone = true := by
  rw [List.any_map, List.any_eq_true]
  constructor
  · exact fun hmem ↦ ⟨_, hmem, rfl⟩
  · rintro ⟨stage, hmem, hnone⟩
    cases stage with
    | pending rendering => exact absurd hmem (hsettled rendering)
    | finished result => cases hnone
    | dropped => exact hmem

/-! ## No run goes on forever -/

/-- The number of steps that an entry has in front of it at most. -/
def stageWork (evaluator : Evaluator) : Stage → Nat
  | .pending rendering => rendering.work evaluator + 1
  | _ => 0

/-- The number of steps that an assembly has in front of it at most. -/
def work (evaluator : Evaluator) (state : Assembling) : Nat :=
  (state.entries.map (stageWork evaluator)).sum + if state.cancelled then 0 else 1

/-- Every step reduces the work. -/
theorem Step.work_lt {first second : Assembling} (h : Step evaluator first second) :
    second.work evaluator < first.work evaluator := by
  cases h with
  | advance before after stage next hadvance =>
      have hless : stageWork evaluator next < stageWork evaluator stage := by
        cases hadvance with
        | step rendering next hstep => exact Nat.add_lt_add_right hstep.work_lt 1
        | finish result => exact Nat.zero_lt_succ _
      simp only [work, List.map_append, List.map_cons, List.sum_append, List.sum_cons]
      omega
  | cancel entries =>
      simp only [work]
      exact Nat.lt_add_one _
  | drop before after rendering =>
      simp only [work, List.map_append, List.map_cons, List.sum_append, List.sum_cons, stageWork]
      omega

/-- A state with a pending entry can take a step, so a run that cannot go on is settled. -/
theorem exists_step {state : Assembling} (h : ¬ state.Settled) : ∃ next, Step evaluator state next := by
  obtain ⟨cancelled, entries⟩ := state
  simp only [Settled, not_forall, not_not] at h
  obtain ⟨rendering, hmem⟩ := h
  obtain ⟨before, after, rfl⟩ := List.append_of_mem hmem
  cases cancelled with
  | true => exact ⟨_, .drop before after rendering⟩
  | false =>
      by_cases hdone : ∃ result, rendering = .done result
      · obtain ⟨result, rfl⟩ := hdone
        exact ⟨_, .advance before after _ _ (.finish result)⟩
      · obtain ⟨next, hstep⟩ : ∃ next, Rendering.Step evaluator rendering next :=
          Rendering.exists_step fun result heq ↦ hdone ⟨result, heq⟩
        exact ⟨_, .advance before after _ _ (.step rendering next hstep)⟩

/-- Every run can be continued until all entries are settled. -/
theorem exists_settled (state : Assembling) : ∃ final, Steps evaluator state final ∧ final.Settled := by
  induction hwork : state.work evaluator using Nat.strong_induction_on generalizing state with
  | h _ ih =>
      by_cases hsettled : state.Settled
      · exact ⟨state, .refl, hsettled⟩
      · obtain ⟨next, hstep⟩ : ∃ next, Step evaluator state next := exists_step hsettled
        obtain ⟨final, hsteps, hfinal⟩ := ih _ (hwork ▸ hstep.work_lt) next rfl
        exact ⟨final, .head hstep hsteps, hfinal⟩

/-! ## Runs that finish some of the entries -/

/-- What a rendering can do, its entry can do before the cancellation. -/
theorem steps_pending {first last : Rendering} (h : Rendering.Steps evaluator first last)
    (before after : List Stage) :
    Steps evaluator ⟨false, before ++ .pending first :: after⟩
      ⟨false, before ++ .pending last :: after⟩ := by
  induction h with
  | refl => exact .refl
  | tail _ hstep ih => exact ih.tail (.advance before after _ _ (.step _ _ hstep))

/-- One entry can take all steps of its rendering and finish. -/
theorem steps_finish (before after : List Stage) (rendering : Rendering) :
    Steps evaluator ⟨false, before ++ .pending rendering :: after⟩
      ⟨false, before ++ .finished (rendering.run evaluator) :: after⟩ :=
  (steps_pending (Rendering.steps_done rendering) before after).tail
    (.advance before after _ _ (.finish _))

/-- The entries with these renderings when only those with the given marks have finished. -/
def choice (evaluator : Evaluator) (renderings : List Rendering) (kept : List Bool) : List Stage :=
  (renderings.zip kept).map fun entry ↦
    if entry.2 then .finished (entry.1.run evaluator) else .pending entry.1

/-- Any choice of entries can finish while the others are pending. -/
theorem steps_choice (before : List Stage) {renderings : List Rendering} {kept : List Bool}
    (h : renderings.length = kept.length) :
    Steps evaluator ⟨false, before ++ renderings.map Stage.pending⟩
      ⟨false, before ++ choice evaluator renderings kept⟩ := by
  induction renderings generalizing before kept with
  | nil =>
      cases kept with
      | nil => exact .refl
      | cons => cases h
  | cons rendering rest ih =>
      cases kept with
      | nil => cases h
      | cons finished others =>
          have hlength : rest.length = others.length := Nat.succ.inj h
          cases finished with
          | false =>
              have hrest := ih (before ++ [.pending rendering]) hlength
              simpa [choice] using hrest
          | true =>
              have hrest := ih (before ++ [.finished (rendering.run evaluator)]) hlength
              refine (steps_finish before (rest.map Stage.pending) rendering).trans ?_
              simpa [choice] using hrest

/-- The outcomes of a choice of entries are those of the marked ones. -/
theorem outcome_choice (renderings : List Rendering) (kept : List Bool) :
    (choice evaluator renderings kept).map Stage.outcome =
      outcomesOf (renderings.map (Rendering.run evaluator)) kept := by
  unfold choice outcomesOf
  rw [List.map_map, List.map_zip_eq_zipWith, List.zipWith_map_left]
  congr 1
  funext rendering finished
  cases finished <;> rfl

/-- Nothing is pending when all entries are marked. -/
theorem settled_choice {renderings : List Rendering} {kept : List Bool}
    (h : ∀ finished ∈ kept, finished = true) : Settled ⟨false, choice evaluator renderings kept⟩ := by
  intro rendering hmem
  obtain ⟨⟨other, finished⟩, hpair, hstage⟩ := List.mem_map.1 hmem
  have hfinished : finished = true := h finished (List.of_mem_zip hpair).2
  subst hfinished
  cases hstage

/-- What is left of entries when the pending ones are dropped. -/
def dropPending (stages : List Stage) : List Stage :=
  stages.map fun stage ↦
    match stage with
    | .pending _ => .dropped
    | settled => settled

/-- Dropping pending entries changes no outcome. -/
theorem outcome_dropPending (stages : List Stage) :
    (dropPending stages).map Stage.outcome = stages.map Stage.outcome := by
  unfold dropPending
  rw [List.map_map]
  refine List.map_congr_left fun stage _ ↦ ?_
  cases stage <;> rfl

/-- Nothing is pending when the pending entries are dropped. -/
theorem settled_dropPending (cancelled : Bool) (stages : List Stage) :
    Settled ⟨cancelled, dropPending stages⟩ := by
  intro rendering hmem
  obtain ⟨stage, _, hstage⟩ := List.mem_map.1 hmem
  cases stage <;> cases hstage

/-- After the cancellation all pending entries can be dropped. -/
theorem steps_drop (before stages : List Stage) :
    Steps evaluator ⟨true, before ++ stages⟩ ⟨true, before ++ dropPending stages⟩ := by
  induction stages generalizing before with
  | nil => exact .refl
  | cons stage rest ih =>
      have hrest (settled : Stage) :
          Steps evaluator ⟨true, before ++ settled :: rest⟩
            ⟨true, before ++ settled :: dropPending rest⟩ := by
        simpa using ih (before ++ [settled])
      cases stage with
      | pending rendering => exact .head (.drop before rest rendering) (hrest .dropped)
      | finished result => exact hrest (.finished result)
      | dropped => exact hrest .dropped

end Assembling

end Invocation
