import Invocation.Document.DraftScript
import Invocation.Proofs.Json.Members
import Mathlib.Data.List.SplitBy
import Mathlib.Data.List.TakeWhile

/-!
# The script of an expression

Scripts of draft documents call the inputs, the resources and the value at hand by names of their own,
which start with a dollar sign.  `scripted` gives the words of an expression these names, and
`scriptSource_scripted` says that reading the script gives the expression back: the replacements of the
names one after the other undo each other's words only.
-/

namespace Invocation.Document

/-! ## Replacing -/

variable {name replacement : List Char}

/-- No mention of the name starts in the text, whatever follows it. -/
def PassesOver (name replacement text : List Char) : Prop :=
  ∀ rest, replaceFrom name replacement 0 (text ++ rest) = text ++ replaceFrom name replacement 0 rest

/-- A mention starts with the first character of its name. -/
theorem mentions_of_ne {c d : Char} (h : c ≠ d) (tail rest : List Char) :
    mentions (c :: tail) (d :: rest) = false := by
  simp [mentions, List.isPrefixOf, h]

/-- A text without the first character of a name has no mention of it. -/
theorem passesOver_of_notMem {c : Char} {tail text : List Char} (h : c ∉ text) :
    PassesOver (c :: tail) replacement text := by
  intro rest
  induction text with
  | nil => rfl
  | cons d text ih =>
      obtain ⟨hne, hrest⟩ := not_or.1 (List.mem_cons.not.1 h)
      rw [List.cons_append, replaceFrom, mentions_of_ne hne, if_neg Bool.false_ne_true, ih hrest]
      rfl

/-- The characters of a replaced mention are dropped. -/
theorem replaceFrom_length (dropped rest : List Char) :
    replaceFrom name replacement dropped.length (dropped ++ rest) =
      replaceFrom name replacement 0 rest := by
  induction dropped with
  | nil => rfl
  | cons c dropped ih => rw [List.length_cons, List.cons_append, replaceFrom, ih]

/-- A name that ends at the end of a word is replaced. -/
theorem replaceFrom_mention (hname : name ≠ []) {rest : List Char} (hend : Text.atWordEnd rest = true) :
    replaceFrom name replacement 0 (name ++ rest) = replacement ++ replaceFrom name replacement 0 rest := by
  obtain ⟨c, tail, rfl⟩ := List.exists_cons_of_ne_nil hname
  have hmention : mentions (c :: tail) (c :: (tail ++ rest)) = true := by
    simp [mentions, hend]
  rw [List.cons_append, replaceFrom, if_pos hmention, List.length_cons, Nat.add_sub_cancel,
    replaceFrom_length]

/-! ## Words -/

/-- Both characters are parts of words, or neither is. -/
def areAlike (first second : Char) : Bool :=
  Text.isWord first == Text.isWord second

/-- The longest runs of characters that are parts of words, and of characters that are not. -/
def wordRuns (text : List Char) : List (List Char) :=
  text.splitBy areAlike

/-- The other name of a run, or the run when it has none. -/
def nameOf (names : List (String × String)) (run : List Char) : List Char :=
  match names.lookup (String.ofList run) with
  | some other => other.toList
  | none => run

/-- The text of runs of which some are given other names. -/
def namedRuns (names : List (String × String)) (runs : List (List Char)) : List Char :=
  runs.flatMap (nameOf names)

/-- The text of runs is that of the first one and of the others. -/
theorem namedRuns_cons (names : List (String × String)) (run : List Char) (rest : List (List Char)) :
    namedRuns names (run :: rest) = nameOf names run ++ namedRuns names rest := rfl

/-- What scripts call the names that expressions know. -/
def scriptNames : List (String × String) :=
  [("inputs", "$job.inputs"), ("runtime", "$job.allocatedResources"), ("self", "$self")]

/-- The script of an expression. -/
def scripted (body : String) : String :=
  String.ofList (namedRuns scriptNames (wordRuns body.toList))

/-- Each run ends where the characters of the next one are of the other sort. -/
def Separated (runs : List (List Char)) : Prop :=
  runs.IsChain fun first second ↦
    ∃ hfirst hsecond, areAlike (first.getLast hfirst) (second.head hsecond) = false

variable {names : List (String × String)}

/-- A run keeps its name, or has one of the other names. -/
theorem nameOf_eq (names : List (String × String)) (run : List Char) :
    nameOf names run = run ∨
      ∃ entry ∈ names, entry.1.toList = run ∧ nameOf names run = entry.2.toList := by
  unfold nameOf
  split
  · next other hother =>
    exact .inr ⟨_, Entries.mem_of_lookup_eq_some hother, String.toList_ofList, rfl⟩
  · exact .inl rfl

/-- A run that does not start with a part of a word has no other name. -/
theorem nameOf_of_not_isWord {c : Char} {run : List Char} (h : Text.isWord c = false)
    (hnames : ∀ entry ∈ names, entry.1.toList.head?.all Text.isWord = true) :
    nameOf names (c :: run) = c :: run := by
  rcases nameOf_eq names (c :: run) with hsame | ⟨entry, hentry, hrun, -⟩
  · exact hsame
  · have hc := hnames entry hentry
    rw [hrun, List.head?_cons, Option.all_some, h] at hc
    cases hc

/-- A word ends where its run does. -/
theorem atWordEnd_namedRuns {run : List Char} {rest : List (List Char)}
    (hnames : ∀ entry ∈ names, entry.1.toList.head?.all Text.isWord = true)
    (hrun : run.getLast?.all Text.isWord = true) (h : Separated (run :: rest)) :
    Text.atWordEnd (namedRuns names rest) = true := by
  cases rest with
  | nil => rfl
  | cons next rest =>
      obtain ⟨⟨hlast, hhead, hdiffer⟩, -⟩ := List.isChain_cons_cons.1 h
      have hword : Text.isWord (run.getLast hlast) = true := by
        rwa [List.getLast?_eq_getLast_of_ne_nil hlast] at hrun
      obtain ⟨c, tail, rfl⟩ := List.exists_cons_of_ne_nil hhead
      have hnot : Text.isWord c = false := by
        simpa [areAlike, hword] using hdiffer
      rw [namedRuns_cons, nameOf_of_not_isWord hnot hnames, List.cons_append]
      simp [Text.atWordEnd, hnot]

/-- Replacing one of the names gives its words back. -/
theorem replaceMentions_namedRuns {plain called : String} {tail : List Char}
    (hcalled : called.toList = '$' :: tail)
    (hlast : plain.toList.getLast?.all Text.isWord = true) (hnew : names.lookup plain = none)
    (hnames : ∀ entry ∈ (plain, called) :: names, entry.1.toList.head?.all Text.isWord = true)
    (hothers : ∀ entry ∈ names, PassesOver called.toList plain.toList entry.2.toList)
    {runs : List (List Char)} (hsigns : ∀ run ∈ runs, '$' ∉ run) (h : Separated runs) :
    replaceMentions called plain (namedRuns ((plain, called) :: names) runs) = namedRuns names runs := by
  unfold replaceMentions
  induction runs with
  | nil => rfl
  | cons run rest ih =>
      obtain ⟨hrun, hrest⟩ := List.forall_mem_cons.1 hsigns
      have ih := ih hrest h.tail
      rw [namedRuns_cons, namedRuns_cons]
      by_cases hplain : String.ofList run = plain
      · have hrun : run = plain.toList := by rw [← hplain, String.toList_ofList]
        have hend := atWordEnd_namedRuns hnames (hrun ▸ hlast) h
        have hfirst : nameOf ((plain, called) :: names) run = called.toList := by
          simp [nameOf, hplain]
        have hsecond : nameOf names run = plain.toList := by
          simp [nameOf, hnew, hrun]
        have hne : called.toList ≠ [] := by rw [hcalled]; exact List.cons_ne_nil _ _
        rw [hfirst, hsecond, replaceFrom_mention hne hend, ih]
      · have hfirst : nameOf ((plain, called) :: names) run = nameOf names run := by
          unfold nameOf
          rw [Entries.lookup_cons_of_ne (Ne.symm hplain)]
        have hpass : PassesOver called.toList plain.toList (nameOf names run) := by
          rcases nameOf_eq names run with hsame | ⟨entry, hentry, -, hother⟩
          · rw [hsame, hcalled]
            exact passesOver_of_notMem hrun
          · rw [hother]
            exact hothers entry hentry
        rw [hfirst, hpass, ih]

/-- Without other names the runs are the text. -/
theorem namedRuns_wordRuns (text : List Char) : namedRuns [] (wordRuns text) = text := by
  show (wordRuns text).flatMap id = text
  rw [List.flatMap_id]
  exact List.flatten_splitBy _ text

/-- The names that expressions know are given back to a script. -/
theorem renamed_namedRuns {text : List Char} (h : '$' ∉ text) :
    renamed (namedRuns scriptNames (wordRuns text)) = text := by
  have hsigns : ∀ run ∈ wordRuns text, '$' ∉ run := by
    intro run hrun hmem
    refine h ?_
    rw [← List.flatten_splitBy areAlike text]
    exact List.mem_flatten.2 ⟨run, hrun, hmem⟩
  have hseparated : Separated (wordRuns text) := List.isChain_getLast_head_splitBy _ _
  -- the names are replaced one after the other, and none is met in another
  have hinputs : ∀ entry ∈ [("runtime", "$job.allocatedResources"), ("self", "$self")],
      PassesOver "$job.inputs".toList "inputs".toList entry.2.toList :=
    List.forall_mem_cons.2 ⟨fun _ ↦ rfl, List.forall_mem_singleton.2 fun _ ↦ rfl⟩
  have hruntime : ∀ entry ∈ [("self", "$self")],
      PassesOver "$job.allocatedResources".toList "runtime".toList entry.2.toList :=
    List.forall_mem_singleton.2 fun _ ↦ rfl
  unfold renamed scriptNames
  rw [replaceMentions_namedRuns rfl (by decide) rfl (by decide) hinputs hsigns hseparated,
    replaceMentions_namedRuns rfl (by decide) rfl (by decide) hruntime hsigns hseparated,
    replaceMentions_namedRuns rfl (by decide) rfl (by decide) (by simp) hsigns hseparated,
    namedRuns_wordRuns]

/-! ## Blanks -/

/-- Text is trimmed when neither of its ends is a blank. -/
theorem trimChars_eq_self_iff {text : List Char} :
    Text.trimChars text = text ↔
      text.head?.any Text.isBlank = false ∧ text.getLast?.any Text.isBlank = false := by
  have hfront {cs : List Char} : Text.trimFront cs = cs ↔ cs.head?.any Text.isBlank = false := by
    unfold Text.trimFront
    rw [List.dropWhile_eq_self_iff]
    cases cs <;> simp
  unfold Text.trimChars
  rw [← hfront, ← List.head?_reverse, ← hfront]
  constructor
  · intro h
    -- nothing is lost at either end
    have hlength := congrArg List.length h
    rw [List.length_reverse] at hlength
    have hback := (List.dropWhile_suffix Text.isBlank (l := (Text.trimFront text).reverse)).length_le
    have hsuffix := List.dropWhile_suffix Text.isBlank (l := text)
    have hsame : Text.trimFront text = text := by
      refine hsuffix.eq_of_length ?_
      have hle := hsuffix.length_le
      rw [List.length_reverse] at hback
      unfold Text.trimFront at *
      omega
    refine ⟨hsame, ?_⟩
    rw [hsame] at h
    rw [← List.reverse_eq_iff, h]
  · rintro ⟨hhead, hlast⟩
    rw [hhead, hlast, List.reverse_reverse]

/-- The other names of scripts start and end with no blank. -/
theorem ends_of_mem_scriptNames {entry : String × String} (h : entry ∈ scriptNames) :
    entry.2.toList ≠ [] ∧ entry.2.toList.head?.any Text.isBlank = false ∧
      entry.2.toList.getLast?.any Text.isBlank = false := by
  revert entry
  decide

/-- The name of a run in a script starts and ends with no blank where the run does not. -/
theorem ends_nameOf {run : List Char} (hrun : run ≠ []) :
    nameOf scriptNames run ≠ [] ∧
      (run.head?.any Text.isBlank = false →
        (nameOf scriptNames run).head?.any Text.isBlank = false) ∧
      (run.getLast?.any Text.isBlank = false →
        (nameOf scriptNames run).getLast?.any Text.isBlank = false) := by
  rcases nameOf_eq scriptNames run with hsame | ⟨entry, hentry, -, hother⟩
  · rw [hsame]
    exact ⟨hrun, id, id⟩
  · obtain ⟨hnonempty, hhead, hlast⟩ := ends_of_mem_scriptNames hentry
    rw [hother]
    exact ⟨hnonempty, fun _ ↦ hhead, fun _ ↦ hlast⟩

/-- The script of a trimmed expression is trimmed. -/
theorem trimChars_namedRuns {text : List Char} (h : Text.trimChars text = text) :
    Text.trimChars (namedRuns scriptNames (wordRuns text)) = namedRuns scriptNames (wordRuns text) := by
  rw [trimChars_eq_self_iff] at h ⊢
  have hflatten : (wordRuns text).flatten = text := List.flatten_splitBy _ text
  have hnonempty : ∀ run ∈ wordRuns text, run ≠ [] := fun run hrun ↦ List.ne_nil_of_mem_splitBy hrun
  constructor
  · -- the script starts with the name of the first run
    cases hruns : wordRuns text with
    | nil => simp [namedRuns]
    | cons run rest =>
        rw [hruns] at hflatten hnonempty
        have hrun := hnonempty run List.mem_cons_self
        obtain ⟨hname, hhead, -⟩ := ends_nameOf hrun
        rw [← hflatten, List.flatten_cons, List.head?_append_of_ne_nil _ hrun] at h
        rw [namedRuns_cons, List.head?_append_of_ne_nil _ hname]
        exact hhead h.1
  · -- and ends with the name of the last one
    rcases List.eq_nil_or_concat (wordRuns text) with hruns | ⟨front, run, hruns⟩
    · simp [hruns, namedRuns]
    · rw [List.concat_eq_append] at hruns
      rw [hruns] at hflatten hnonempty ⊢
      have hrun := hnonempty run (by simp)
      obtain ⟨hname, -, hlast⟩ := ends_nameOf hrun
      rw [← hflatten, List.flatten_append, List.flatten_singleton,
        List.getLast?_append_of_ne_nil _ hrun] at h
      rw [namedRuns, List.flatMap_append, List.flatMap_singleton,
        List.getLast?_append_of_ne_nil _ hname]
      exact hlast h.2

/-- A script is read as the expression in parentheses. -/
theorem scriptSource_scripted {body : String} (hsigns : '$' ∉ body.toList) (htrim : Text.trim body = body)
    (hbrace : ∀ rest, body.toList ≠ '\x7b' :: rest) :
    scriptSource (scripted body) = "$(" ++ body ++ ")" := by
  have htrim : Text.trimChars body.toList = body.toList := by
    rw [← String.toList_ofList (l := Text.trimChars body.toList)]
    exact congrArg String.toList htrim
  unfold scriptSource scripted
  rw [String.toList_ofList, trimChars_namedRuns htrim, renamed_namedRuns hsigns]
  split
  · next rest hrest => exact absurd hrest (hbrace rest)
  · rw [String.ofList_toList]

example : scripted "inputs.a + self.inputs" = "$job.inputs.a + $self.$job.inputs" := by decide +kernel

end Invocation.Document
