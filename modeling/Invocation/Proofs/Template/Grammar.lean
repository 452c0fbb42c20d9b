import Invocation.Proofs.Template.Printing
import Mathlib.Logic.ExistsUnique

/-!
# The grammar of templates

A template is read from the left in units: an escaped dollar sign, a reference up to the parenthesis that
closes it, or any other character.  `Reads` says how far a text can be read in this way, without a word
about segments.  Every text has one reading (`existsUnique_reads`), and splitting a template gives the
segments of its reading or the fault at which the reading stops (`segments_of_reads`).
-/

namespace Invocation.Template

/-! ## Units -/

/-- A unit of a template. -/
inductive Token where
  | escape
  | reference (body : List Char)
  | char (c : Char)
  deriving DecidableEq

namespace Token

/-- The unit as it is written. -/
def written : Token → List Char
  | escape => ['\\', '$']
  | reference body => '$' :: '(' :: (body ++ [')'])
  | char c => [c]

/-- What the unit stands for. -/
def segment : Token → Segment
  | escape => .text ['$']
  | reference body => .reference body
  | char c => .text [c]

end Token

/-- `Begins text token rest` says that the text begins with the unit, and the rest is behind it. -/
inductive Begins : List Char → Token → List Char → Prop where
  | escape (rest : List Char) : Begins ('\\' :: '$' :: rest) .escape rest
  | reference {body : List Char} (rest : List Char) :
      Closes 0 body → Begins ('$' :: '(' :: (body ++ ')' :: rest)) (.reference body) rest
  | char {c : Char} {rest : List Char} : IsLiteral c rest → Begins (c :: rest) (.char c) rest

/-- `Stops text fault` says that the text begins with no unit, for the reason that the fault gives. -/
inductive Stops : List Char → Fault → Prop where
  | functionBody (rest : List Char) : Stops ('$' :: '\x7b' :: rest) .functionBody
  | unterminated {rest : List Char} :
      (∀ body behind, Closes 0 body → rest ≠ body ++ ')' :: behind) →
      Stops ('$' :: '(' :: rest) .unterminated

/-- `Reads text tokens fault` says that the text is read as the units, to its end or up to a place where
it stops. -/
inductive Reads : List Char → List Token → Option Fault → Prop where
  | done : Reads [] [] none
  | token {text rest : List Char} {token : Token} {tokens : List Token} {fault : Option Fault} :
      Begins text token rest → Reads rest tokens fault → Reads text (token :: tokens) fault
  | fault {text : List Char} {fault : Fault} : Stops text fault → Reads text [] (some fault)

variable {text rest others : List Char} {token other : Token} {tokens : List Token}
  {fault : Fault}

/-! ## Every text has one reading -/

/-- A unit is read as it is written. -/
theorem Begins.eq_written_append (h : Begins text token rest) : text = token.written ++ rest := by
  cases h with
  | escape | char => rfl
  | reference => simp [Token.written]

/-- The text behind a unit is shorter. -/
theorem Begins.length_lt (h : Begins text token rest) : rest.length < text.length := by
  rw [h.eq_written_append, List.length_append]
  cases token <;> simp [Token.written]

/-- A text begins with one unit. -/
theorem Begins.unique (h : Begins text token rest) (hother : Begins text other others) :
    token = other ∧ rest = others := by
  cases h with
  | escape rest =>
      cases hother with
      | escape => exact ⟨rfl, rfl⟩
      | char hliteral => exact absurd rfl (hliteral.backslash rfl)
  | @reference body rest hbody =>
      generalize htext : '$' :: '(' :: (body ++ ')' :: rest) = text at hother
      cases hother with
      | escape => cases htext
      | reference others hcloses =>
          simp only [List.cons.injEq, true_and] at htext
          obtain ⟨rfl, rfl⟩ := hbody.eq_of_append_eq hcloses htext
          exact ⟨rfl, rfl⟩
      | char hliteral =>
          cases htext
          exact absurd rfl (hliteral.dollar rfl).1
  | char hliteral =>
      cases hother with
      | escape => exact absurd rfl (hliteral.backslash rfl)
      | reference => exact absurd rfl (hliteral.dollar rfl).1
      | char => exact ⟨rfl, rfl⟩

/-- A text that stops a reading begins with no unit. -/
theorem Stops.not_begins (h : Stops text fault) : ¬ Begins text token rest := by
  intro hbegins
  cases h with
  | functionBody =>
      cases hbegins with
      | char hliteral => exact (hliteral.dollar rfl).2 rfl
  | unterminated hopen =>
      cases hbegins with
      | reference behind hbody => exact hopen _ _ hbody rfl
      | char hliteral => exact (hliteral.dollar rfl).1 rfl

/-- A reading stops for one reason. -/
theorem Stops.unique {reason : Fault} (h : Stops text fault) (hreason : Stops text reason) :
    fault = reason := by
  cases h <;> cases hreason <;> rfl

/-- A text has no more than one reading. -/
theorem Reads.unique {found : List Token} {outcome result : Option Fault}
    (h : Reads text tokens outcome) (hfound : Reads text found result) :
    tokens = found ∧ outcome = result := by
  induction h generalizing found with
  | done =>
      cases hfound with
      | done => exact ⟨rfl, rfl⟩
      | token hbegins => cases hbegins
      | fault hstops => cases hstops
  | token hbegins _ ih =>
      cases hfound with
      | done => cases hbegins
      | token hother hrest =>
          obtain ⟨rfl, rfl⟩ := hbegins.unique hother
          obtain ⟨rfl, rfl⟩ := ih hrest
          exact ⟨rfl, rfl⟩
      | fault hstops => exact absurd hbegins hstops.not_begins
  | fault hstops =>
      cases hfound with
      | done => cases hstops
      | token hbegins => exact absurd hbegins hstops.not_begins
      | fault hother => exact ⟨rfl, congrArg some (hstops.unique hother)⟩

/-- A text that is not empty begins with a unit or stops the reading. -/
theorem begins_or_stops (c : Char) (text : List Char) :
    (∃ token rest, Begins (c :: text) token rest) ∨ ∃ fault, Stops (c :: text) fault := by
  by_cases hescape : c = '\\' ∧ text.head? = some '$'
  · obtain ⟨rfl, hhead⟩ := hescape
    rw [List.eq_cons_of_mem_head? hhead]
    exact .inl ⟨.escape, text.tail, .escape _⟩
  by_cases hbrace : c = '$' ∧ text.head? = some '\x7b'
  · obtain ⟨rfl, hhead⟩ := hbrace
    rw [List.eq_cons_of_mem_head? hhead]
    exact .inr ⟨.functionBody, .functionBody _⟩
  by_cases hparenthesis : c = '$' ∧ text.head? = some '('
  · obtain ⟨rfl, hhead⟩ := hparenthesis
    rw [List.eq_cons_of_mem_head? hhead]
    by_cases hclosed : ∃ body behind, Closes 0 body ∧ text.tail = body ++ ')' :: behind
    · obtain ⟨body, behind, hbody, htail⟩ := hclosed
      rw [htail]
      exact .inl ⟨.reference body, behind, .reference behind hbody⟩
    · refine .inr ⟨.unterminated, .unterminated fun body behind hbody htail ↦ ?_⟩
      exact hclosed ⟨body, behind, hbody, htail⟩
  · refine .inl ⟨.char c, text, .char ⟨fun hslash hhead ↦ hescape ⟨hslash, hhead⟩, ?_⟩⟩
    exact fun hdollar ↦ ⟨fun hhead ↦ hparenthesis ⟨hdollar, hhead⟩, fun hhead ↦ hbrace ⟨hdollar, hhead⟩⟩

/-- A text has a reading. -/
theorem exists_reads (text : List Char) : ∃ tokens outcome, Reads text tokens outcome := by
  -- the rest is read behind a unit of any length
  induction hlength : text.length using Nat.strongRecOn generalizing text with
  | ind n ih =>
  subst hlength
  cases text with
  | nil => exact ⟨[], none, .done⟩
  | cons c text =>
      rcases begins_or_stops c text with ⟨token, rest, hbegins⟩ | ⟨fault, hstops⟩
      · obtain ⟨tokens, outcome, hrest⟩ := ih rest.length hbegins.length_lt rest rfl
        exact ⟨token :: tokens, outcome, .token hbegins hrest⟩
      · exact ⟨[], some fault, .fault hstops⟩

/-- Every text has one reading. -/
theorem existsUnique_reads (text : List Char) :
    ∃! reading : List Token × Option Fault, Reads text reading.1 reading.2 := by
  obtain ⟨tokens, outcome, hreads⟩ := exists_reads text
  refine ⟨(tokens, outcome), hreads, fun reading hreading ↦ ?_⟩
  obtain ⟨htokens, houtcome⟩ := hreading.unique hreads
  exact Prod.ext htokens houtcome

/-- A text is its units as they are written, and behind them what stops the reading, if anything does. -/
theorem Reads.exists_behind {outcome : Option Fault} (h : Reads text tokens outcome) :
    ∃ behind, text = tokens.flatMap Token.written ++ behind ∧
      outcome.elim (behind = []) (Stops behind) := by
  induction h with
  | done => exact ⟨[], rfl, rfl⟩
  | token hbegins _ ih =>
      obtain ⟨behind, htext, hbehind⟩ := ih
      refine ⟨behind, ?_, hbehind⟩
      rw [hbegins.eq_written_append, htext, List.flatMap_cons, List.append_assoc]
  | @fault text _ hstops => exact ⟨text, rfl, hstops⟩

/-- The references that are read balance. -/
theorem Reads.closes {outcome : Option Fault} {body : List Char} (h : Reads text tokens outcome)
    (hbody : .reference body ∈ tokens) : Closes 0 body := by
  induction h with
  | done | fault => cases hbody
  | token hbegins _ ih =>
      cases hbody with
      | head =>
          cases hbegins with
          | reference _ hcloses => exact hcloses
      | tail _ hbody => exact ih hbody

/-! ## The segments of a reading -/

/-- Text in front of segments, which is a segment unless it is empty. -/
def withText : List Char → List Segment → List Segment
  | [], found => found
  | content, found => .text content :: found

/-- The characters that go on with a text in front of units, and the segments behind them.  A text ends in
front of a reference, and an escaped sign begins a new one. -/
def runs : List Token → List Char × List Segment
  | [] => ([], [])
  | .escape :: tokens => ([], .text ('$' :: (runs tokens).1) :: (runs tokens).2)
  | .reference body :: tokens => ([], .reference body :: withText (runs tokens).1 (runs tokens).2)
  | .char c :: tokens => (c :: (runs tokens).1, (runs tokens).2)

/-- The segments of units: the references, and the text between them. -/
def grouped (tokens : List Token) : List Segment :=
  withText (runs tokens).1 (runs tokens).2

/-- Text in front of segments is in front of their outline. -/
theorem outline_withText (content : List Char) (found : List Segment) :
    outline (withText content found) = (content ++ (outline found).1, (outline found).2) := by
  cases content <;> rfl

/-- Text in front of segments is no empty segment. -/
theorem text_nil_mem_withText_iff {content : List Char} {found : List Segment} :
    .text [] ∈ withText content found ↔ .text [] ∈ found := by
  cases content <;> simp [withText]

/-- Text in front of segments is no reference. -/
theorem reference_mem_withText_iff {content body : List Char} {found : List Segment} :
    .reference body ∈ withText content found ↔ .reference body ∈ found := by
  cases content <;> simp [withText]

/-- A run of text is a segment in front of those behind it. -/
theorem flush_append (run : List Char) (found : List Segment) :
    flush run ++ found = withText run.reverse found := by
  cases run with
  | nil => rfl
  | cons c run =>
      obtain ⟨first, others, hreverse⟩ :=
        List.exists_cons_of_ne_nil (List.reverse_ne_nil_iff.2 (List.cons_ne_nil c run))
      simp [flush, withText, hreverse]

/-- The references of units are those of their segments, with the same text between them. -/
theorem outline_grouped (tokens : List Token) :
    outline (grouped tokens) = outline (tokens.map Token.segment) := by
  unfold grouped
  rw [outline_withText]
  induction tokens with
  | nil => rfl
  | cons token tokens ih =>
      cases token with
      | escape | char => simp [runs, outline, Token.segment, ← ih]
      | reference body => simp [runs, outline, outline_withText, Token.segment, ← ih]

/-- No segment of units is an empty text. -/
theorem text_nil_notMem_grouped (tokens : List Token) : .text [] ∉ grouped tokens := by
  unfold grouped
  rw [text_nil_mem_withText_iff]
  induction tokens with
  | nil => exact List.not_mem_nil
  | cons token tokens ih =>
      cases token with
      | escape | char => simpa [runs] using ih
      | reference body => simpa [runs, text_nil_mem_withText_iff] using ih

/-- The references among the segments of units are those among the units. -/
theorem reference_mem_grouped_iff {body : List Char} :
    .reference body ∈ grouped tokens ↔ .reference body ∈ tokens := by
  unfold grouped
  rw [reference_mem_withText_iff]
  induction tokens with
  | nil => simp [runs]
  | cons token tokens ih =>
      cases token with
      | escape | char => simpa [runs] using ih
      | reference other => simp [runs, reference_mem_withText_iff, ih]

/-! ## Scanning units -/

/-- Where a reading stops, the scanner fails. -/
theorem Stops.scan_eq (h : Stops text fault) (run : List Char) :
    scan (.text run) text = .error fault := by
  cases h with
  | functionBody rest => rw [scan]
  | @unterminated rest hopen =>
      rw [scan, scan_reference, splitBody_eq_none_iff.2 hopen]
      rfl

/-- Behind a run of text the scanner finds the segments of the units that are read, or fails where the
reading stops. -/
theorem Reads.scan_eq {outcome : Option Fault} (h : Reads text tokens outcome) (run : List Char) :
    scan (.text run) text =
      outcome.elim (.ok (withText (run.reverse ++ (runs tokens).1) (runs tokens).2)) .error := by
  induction h generalizing run with
  | done => simp [scan, runs, ← flush_append]
  | @token _ _ _ _ outcome hbegins _ ih =>
      cases hbegins with
      | escape rest =>
          rw [scan, ih]
          cases outcome with
          | some => rfl
          | none => simp [runs, Except.map, flush_append, withText.eq_2]
      | reference rest hbody =>
          rw [scan_body hbody, ih]
          cases outcome with
          | some => rfl
          | none => simp [runs, ← flush_append, Except.map]
      | char hliteral =>
          rw [scan_text_cons hliteral, ih]
          simp [runs]
  | fault hstops => exact hstops.scan_eq run

/-- A text that is read to its end is split into the segments of its units. -/
theorem Reads.segments_eq {source : String} (h : Reads source.toList tokens none) :
    segments source = .ok (grouped tokens) :=
  h.scan_eq []

/-- A reference is split as it stands alone. -/
theorem segments_reference {body : List Char} (h : Closes 0 body) :
    segments (String.ofList (Token.reference body).written) = .ok [.reference body] := by
  have hreads : Reads (Token.reference body).written [.reference body] none :=
    .token (.reference [] h) .done
  exact Reads.segments_eq (by rwa [String.toList_ofList])

/-- A template has one reading in units.  If it is read to its end, it is nothing but its units, and
splitting it gives the segments of the units: their references, each of which is split alone in the same
way, with the text between them, none of it empty.  If the reading stops, evaluating the template fails
for the reason for which it stops. -/
theorem segments_of_reads (source : String) :
    (∃! reading : List Token × Option Fault, Reads source.toList reading.1 reading.2) ∧
    (∀ tokens, Reads source.toList tokens none →
      segments source = .ok (grouped tokens) ∧
      source.toList = tokens.flatMap Token.written ∧
      outline (grouped tokens) = outline (tokens.map Token.segment) ∧
      .text [] ∉ grouped tokens ∧
      ∀ body, .reference body ∈ grouped tokens →
        segments (String.ofList (Token.reference body).written) = .ok [.reference body]) ∧
    ∀ tokens fault, Reads source.toList tokens (some fault) →
      (∃ behind, source.toList = tokens.flatMap Token.written ++ behind ∧ Stops behind fault) ∧
      segments source = .error fault ∧
      ∀ value location, evaluate value source location = .error ⟨"SyntaxError", location,
        match fault with
        | .functionBody => "function bodies are not supported"
        | .unterminated => "unterminated parameter reference"⟩ := by
  refine ⟨existsUnique_reads source.toList, ?_, ?_⟩
  · intro tokens hreads
    obtain ⟨behind, htext, rfl⟩ := hreads.exists_behind
    rw [List.append_nil] at htext
    refine ⟨hreads.segments_eq, htext, outline_grouped tokens, text_nil_notMem_grouped tokens,
      fun body hbody ↦ ?_⟩
    exact segments_reference (hreads.closes (reference_mem_grouped_iff.1 hbody))
  · intro tokens fault hreads
    have hsegments : segments source = .error fault := hreads.scan_eq []
    refine ⟨hreads.exists_behind, hsegments, fun value location ↦ ?_⟩
    rw [evaluate, hsegments]
    cases fault <;> rfl

/-- A backslash in front of an escaped sign, a sign in front of a reference whose string holds a closing
parenthesis, and two texts at which the reading stops. -/
theorem segments_of_reads_overlapping :
    segments "\\\\$($$(f(')'))" = .ok [.text ['\\'], .text "$($".toList, .reference "f(')')".toList] ∧
    segments "n$\x7b$(" = .error .functionBody ∧
    segments "$(n)$(')" = .error .unterminated := by
  have hquoted : Quoted '\'' [')', '\''] := .char (by decide) (by decide) .close
  have hcall : Closes 0 ['f', '(', '\'', ')', '\'', ')'] :=
    .char (by decide) (by decide) (by unfold IsMark; decide)
      (.opening (.string (.inl rfl) hquoted (.closing .nil)))
  have hname : Closes 0 ['n'] := .char (by decide) (by decide) (by unfold IsMark; decide) .nil
  have hopen : ∀ body behind, Closes 0 body → "')".toList ≠ body ++ ')' :: behind :=
    splitBody_eq_none_iff.1 (by decide)
  refine ⟨?_, ?_, ?_⟩
  · exact ((segments_of_reads "\\\\$($$(f(')'))").2.1
      [.char '\\', .escape, .char '(', .char '$', .reference "f(')')".toList]
      (.token (.char ⟨by decide, by decide⟩) (.token (.escape _) (.token (.char ⟨by decide, by decide⟩)
        (.token (.char ⟨by decide, by decide⟩) (.token (.reference [] hcall) .done)))))).1
  · exact ((segments_of_reads "n$\x7b$(").2.2 [.char 'n'] .functionBody
      (.token (.char ⟨by decide, by decide⟩) (.fault (.functionBody _)))).2.1
  · exact ((segments_of_reads "$(n)$(')").2.2 [.reference ['n']] .unterminated
      (.token (.reference _ hname) (.fault (.unterminated hopen)))).2.1

end Invocation.Template
