import Invocation.Template
import Mathlib.Data.List.Basic

/-!
# Reading templates

What the scanner does with the pieces of a template, whatever follows them.  A reference ends behind a body
whose parentheses balance outside of its quoted strings (`Closes 0`), and nowhere else
(`splitBody_eq_some_iff`), so that it is read as a whole (`scan_body`).  Literal text whose dollar signs are
escaped is read as text (`scan_escaped`).
-/

namespace Invocation.Template

/-! ## Bodies of references -/

/-- `Quoted mark text` says that the text is a string behind its opening mark: it ends with the first mark
that is not taken along by a backslash. -/
inductive Quoted (mark : Char) : List Char → Prop where
  | close : Quoted mark [mark]
  | escape (c : Char) {rest : List Char} : Quoted mark rest → Quoted mark ('\\' :: c :: rest)
  | char {c : Char} {rest : List Char} :
      c ≠ '\\' → c ≠ mark → Quoted mark rest → Quoted mark (c :: rest)

/-- A mark that opens a string, and closes it. -/
def IsMark (c : Char) : Prop :=
  c = '\'' ∨ c = '"'

/-- `Closes depth text` says that outside of its strings, all of which are closed, the text closes the
given number of parentheses that are open in front of it, and every one that it opens. -/
inductive Closes : Nat → List Char → Prop where
  | nil : Closes 0 []
  | opening {depth : Nat} {rest : List Char} : Closes (depth + 1) rest → Closes depth ('(' :: rest)
  | closing {depth : Nat} {rest : List Char} : Closes depth rest → Closes (depth + 1) (')' :: rest)
  | string {depth : Nat} {mark : Char} {inside rest : List Char} :
      IsMark mark → Quoted mark inside → Closes depth rest → Closes depth (mark :: (inside ++ rest))
  | char {depth : Nat} {c : Char} {rest : List Char} :
      c ≠ '(' → c ≠ ')' → ¬ IsMark c → Closes depth rest → Closes depth (c :: rest)

/-! ### One character of a body -/

section
variable {mark c : Char} (depth : Nat)

/-- A mark is no backslash. -/
theorem IsMark.ne_backslash (h : IsMark mark) : mark ≠ '\\' := by
  rcases h with rfl | rfl <;> decide

/-- Behind a backslash in a string any character is passed over. -/
@[simp] theorem next?_escaped (c : Char) :
    Nesting.next? ⟨depth, some mark, true⟩ c = some ⟨depth, some mark, false⟩ := by
  simp [Nesting.next?, Nesting.insideString]

/-- A backslash in a string takes the next character along. -/
@[simp] theorem next?_backslash :
    Nesting.next? ⟨depth, some mark, false⟩ '\\' = some ⟨depth, some mark, true⟩ := by
  simp [Nesting.next?, Nesting.insideString]

/-- The mark of a string closes it. -/
theorem next?_closing_mark (h : mark ≠ '\\') :
    Nesting.next? ⟨depth, some mark, false⟩ mark = some ⟨depth, none, false⟩ := by
  simp [Nesting.next?, Nesting.insideString, h]

/-- Any other character of a string leaves it open. -/
theorem next?_in_string (hc : c ≠ '\\') (hmark : c ≠ mark) :
    Nesting.next? ⟨depth, some mark, false⟩ c = some ⟨depth, some mark, false⟩ := by
  simp [Nesting.next?, Nesting.insideString, hc, hmark]

/-- Outside of strings a mark opens one. -/
theorem next?_opening_mark (h : IsMark mark) :
    Nesting.next? ⟨depth, none, false⟩ mark = some ⟨depth, some mark, false⟩ :=
  if_pos h

/-- One more parenthesis is open behind an opening one. -/
@[simp] theorem next?_opening :
    Nesting.next? ⟨depth, none, false⟩ '(' = some ⟨depth + 1, none, false⟩ := by
  simp [Nesting.next?]

/-- A closing parenthesis closes the last one that is open. -/
@[simp] theorem next?_closing :
    Nesting.next? ⟨depth + 1 + 1, none, false⟩ ')' = some ⟨depth + 1, none, false⟩ := by
  simp [Nesting.next?]

/-- The parenthesis of the reference closes the reference. -/
@[simp] theorem next?_last : Nesting.next? ⟨0 + 1, none, false⟩ ')' = none := by
  simp [Nesting.next?]

/-- Any other character outside of strings leaves open what is open. -/
theorem next?_in_body (hopen : c ≠ '(') (hclose : c ≠ ')') (hmark : ¬ IsMark c) :
    Nesting.next? ⟨depth, none, false⟩ c = some ⟨depth, none, false⟩ := by
  have hplain : ¬ (c = '\'' ∨ c = '"') := hmark
  simp only [Nesting.next?]
  rw [if_neg hplain, if_neg hopen, if_neg hclose]

end

/-! ### The end of a body -/

/-- The rest of a body and the text behind the parenthesis that closes the reference. -/
def splitBody : Nesting → List Char → Option (List Char × List Char)
  | _, [] => none
  | nesting, c :: text =>
    match nesting.next? c with
    | some next => (splitBody next text).map fun (body, rest) ↦ (c :: body, rest)
    | none => some ([], text)

/-- A character that leaves the reference open belongs to its body. -/
theorem splitBody_cons {nesting next : Nesting} {c : Char} (h : nesting.next? c = some next)
    (text : List Char) :
    splitBody nesting (c :: text) =
      (splitBody next text).map fun (body, rest) ↦ (c :: body, rest) := by
  rw [splitBody, h]

/-- A body that begins with such a character. -/
theorem splitBody_cons_eq_some_iff {nesting next : Nesting} {c : Char} (h : nesting.next? c = some next)
    {text body rest : List Char} :
    splitBody nesting (c :: text) = some (body, rest) ↔
      ∃ later, splitBody next text = some (later, rest) ∧ body = c :: later := by
  rw [splitBody_cons h, Option.map_eq_some_iff]
  constructor
  · rintro ⟨⟨later, behind⟩, hlater, heq⟩
    cases heq
    exact ⟨later, hlater, rfl⟩
  · rintro ⟨later, hlater, rfl⟩
    exact ⟨(later, rest), hlater, rfl⟩

/-- A reference is read up to the parenthesis that closes it, if there is one. -/
theorem scan_reference (nesting : Nesting) (front text : List Char) :
    scan (.reference nesting front) text =
      match splitBody nesting text with
      | some (body, rest) =>
        (scan (.text []) rest).map (.reference (front.reverse ++ body) :: ·)
      | none => .error .unterminated := by
  induction text generalizing nesting front with
  | nil => rw [scan, splitBody]
  | cons c text ih =>
      rw [scan, splitBody]
      cases nesting.next? c with
      | none => simp
      | some next =>
          dsimp only
          rw [ih]
          cases splitBody next text <;> simp

/-- A string belongs to the body as a whole. -/
theorem splitBody_quoted {mark : Char} (hmark : IsMark mark) {inside : List Char}
    (h : Quoted mark inside) (depth : Nat) (text : List Char) :
    splitBody ⟨depth, some mark, false⟩ (inside ++ text) =
      (splitBody ⟨depth, none, false⟩ text).map fun (body, rest) ↦ (inside ++ body, rest) := by
  induction h with
  | close => exact splitBody_cons (next?_closing_mark depth hmark.ne_backslash) text
  | @escape c inside _ ih =>
      -- the character behind the backslash is not looked at
      show splitBody _ ('\\' :: c :: (inside ++ text)) = _
      rw [splitBody_cons (next?_backslash depth), splitBody_cons (next?_escaped depth c), ih]
      simp [Function.comp_def]
  | @char c inside hc hother _ ih =>
      show splitBody _ (c :: (inside ++ text)) = _
      rw [splitBody_cons (next?_in_string depth hc hother), ih]
      simp [Function.comp_def]

/-- A text that closes all parentheses but the one of the reference is the rest of the body, when a
closing parenthesis stands behind it. -/
theorem Closes.splitBody_eq {depth : Nat} {body : List Char} (h : Closes depth body)
    (rest : List Char) :
    splitBody ⟨depth + 1, none, false⟩ (body ++ ')' :: rest) = some (body, rest) := by
  induction h with
  | nil => simp [splitBody]
  | @opening depth body _ ih =>
      show splitBody _ ('(' :: (body ++ ')' :: rest)) = _
      rw [splitBody_cons (next?_opening _), ih]
      rfl
  | @closing depth body _ ih =>
      show splitBody _ (')' :: (body ++ ')' :: rest)) = _
      rw [splitBody_cons (next?_closing _), ih]
      rfl
  | @string depth mark inside body hmark hquoted _ ih =>
      show splitBody _ (mark :: (inside ++ body ++ ')' :: rest)) = _
      rw [splitBody_cons (next?_opening_mark _ hmark), List.append_assoc,
        splitBody_quoted hmark hquoted, ih]
      rfl
  | @char depth c body hopen hclose hmark _ ih =>
      show splitBody _ (c :: (body ++ ')' :: rest)) = _
      rw [splitBody_cons (next?_in_body _ hopen hclose hmark), ih]
      rfl

/-- A string that is open in a body is closed before the reference is. -/
theorem exists_quoted_of_splitBody {depth : Nat} {mark : Char} (hmark : IsMark mark) {escaped : Bool}
    {text body rest : List Char}
    (h : splitBody ⟨depth, some mark, escaped⟩ text = some (body, rest)) :
    ∃ inside behind others,
      Quoted mark (if escaped then '\\' :: inside else inside) ∧
      text = inside ++ behind ∧ body = inside ++ others ∧
      splitBody ⟨depth, none, false⟩ behind = some (others, rest) := by
  induction text generalizing escaped body with
  | nil => cases h
  | cons c text ih =>
      -- the string goes on behind the character
      have hgoesOn : ∀ next : Bool,
          Nesting.next? ⟨depth, some mark, escaped⟩ c = some ⟨depth, some mark, next⟩ →
          (∀ inside, Quoted mark (if next then '\\' :: inside else inside) →
            Quoted mark (if escaped then '\\' :: c :: inside else c :: inside)) →
          ∃ inside behind others,
            Quoted mark (if escaped then '\\' :: inside else inside) ∧
            c :: text = inside ++ behind ∧ body = inside ++ others ∧
            splitBody ⟨depth, none, false⟩ behind = some (others, rest) := by
        intro next hnext hquoted
        obtain ⟨later, hlater, rfl⟩ := (splitBody_cons_eq_some_iff hnext).1 h
        obtain ⟨inside, behind, others, hinside, rfl, rfl, hsplit⟩ := ih hlater
        exact ⟨c :: inside, behind, others, hquoted inside hinside, rfl, rfl, hsplit⟩
      cases escaped with
      | true => exact hgoesOn false (next?_escaped depth c) fun inside ↦ .escape c
      | false =>
          by_cases hslash : c = '\\'
          · subst hslash
            exact hgoesOn true (next?_backslash depth) fun inside ↦ id
          by_cases hclose : c = mark
          · subst hclose
            obtain ⟨others, hsplit, rfl⟩ :=
              (splitBody_cons_eq_some_iff (next?_closing_mark depth hslash)).1 h
            exact ⟨[c], text, others, .close, rfl, rfl, hsplit⟩
          · exact hgoesOn false (next?_in_string depth hslash hclose) fun inside ↦
              .char hslash hclose

/-- What is found as the rest of a body closes all parentheses but the one of the reference. -/
theorem closes_of_splitBody {depth : Nat} {text body rest : List Char}
    (h : splitBody ⟨depth + 1, none, false⟩ text = some (body, rest)) :
    text = body ++ ')' :: rest ∧ Closes depth body := by
  -- a string is passed over as a whole, so that the induction is on the length
  induction hlength : text.length using Nat.strongRecOn generalizing depth text body with
  | ind n ih =>
  subst hlength
  cases text with
  | nil => cases h
  | cons c text =>
      by_cases hmark : IsMark c
      · obtain ⟨later, hlater, rfl⟩ := (splitBody_cons_eq_some_iff (next?_opening_mark _ hmark)).1 h
        obtain ⟨inside, behind, others, hquoted, rfl, rfl, hsplit⟩ :=
          exists_quoted_of_splitBody hmark hlater
        have hshorter : behind.length < (c :: (inside ++ behind)).length := by
          rw [List.length_cons, List.length_append]
          omega
        obtain ⟨rfl, hcloses⟩ := ih _ hshorter hsplit rfl
        exact ⟨by simp, .string hmark hquoted hcloses⟩
      by_cases hopen : c = '('
      · subst hopen
        obtain ⟨later, hlater, rfl⟩ := (splitBody_cons_eq_some_iff (next?_opening _)).1 h
        obtain ⟨rfl, hcloses⟩ := ih text.length (by simp) hlater rfl
        exact ⟨rfl, .opening hcloses⟩
      by_cases hclose : c = ')'
      · subst hclose
        cases depth with
        | zero =>
            rw [splitBody, next?_last] at h
            cases h
            exact ⟨rfl, .nil⟩
        | succ depth =>
            obtain ⟨later, hlater, rfl⟩ := (splitBody_cons_eq_some_iff (next?_closing _)).1 h
            obtain ⟨rfl, hcloses⟩ := ih text.length (by simp) hlater rfl
            exact ⟨rfl, .closing hcloses⟩
      · obtain ⟨later, hlater, rfl⟩ := (splitBody_cons_eq_some_iff (next?_in_body _ hopen hclose hmark)).1 h
        obtain ⟨rfl, hcloses⟩ := ih text.length (by simp) hlater rfl
        exact ⟨rfl, .char hopen hclose hmark hcloses⟩

/-- A reference is closed exactly by the parenthesis behind a text whose own parentheses balance. -/
theorem splitBody_eq_some_iff {text body rest : List Char} :
    splitBody .opening text = some (body, rest) ↔ text = body ++ ')' :: rest ∧ Closes 0 body := by
  constructor
  · exact closes_of_splitBody
  · rintro ⟨rfl, hcloses⟩
    exact hcloses.splitBody_eq rest

/-- A reference is not closed exactly when no such text stands in front of a closing parenthesis. -/
theorem splitBody_eq_none_iff {text : List Char} :
    splitBody .opening text = none ↔
      ∀ body rest, Closes 0 body → text ≠ body ++ ')' :: rest := by
  rw [Option.eq_none_iff_forall_ne_some, Prod.forall]
  refine forall_congr' fun body ↦ forall_congr' fun rest ↦ ?_
  rw [Ne, splitBody_eq_some_iff, not_and']

/-- A reference is closed in one way at most. -/
theorem Closes.eq_of_append_eq {body other rest others : List Char} (h : Closes 0 body)
    (hother : Closes 0 other) (heq : body ++ ')' :: rest = other ++ ')' :: others) :
    body = other ∧ rest = others := by
  have hbody := h.splitBody_eq rest
  rw [heq, hother.splitBody_eq others] at hbody
  cases hbody
  exact ⟨rfl, rfl⟩

/-! ## Pieces of a template -/

/-- A reference whose body balances is read as a whole. -/
theorem scan_body {body : List Char} (h : Closes 0 body) (run rest : List Char) :
    scan (.text run) ('$' :: '(' :: (body ++ ')' :: rest)) =
      (scan (.text []) rest).map fun found ↦ flush run ++ .reference body :: found := by
  rw [scan, scan_reference, splitBody_eq_some_iff.2 ⟨rfl, h⟩]
  dsimp only
  cases scan (.text []) rest <;> rfl

/-! ## Literal text -/

/-- Literal text in a template: a backslash stands in front of every dollar sign. -/
def escape (content : List Char) : List Char :=
  content.flatMap fun c ↦ if c = '$' then ['\\', '$'] else [c]

/-- Escaped text does not begin with a dollar sign. -/
theorem head?_escape_append {content rest : List Char}
    (h : content = [] → rest.head? ≠ some '$') : (escape content ++ rest).head? ≠ some '$' := by
  cases content with
  | nil => exact h rfl
  | cons c others =>
      by_cases hc : c = '$'
      · simp [escape, hc]
      · simp [escape, hc]

/-- In front of the text the character stands for itself: it neither escapes a dollar sign nor begins a
reference or a function body. -/
structure IsLiteral (c : Char) (rest : List Char) : Prop where
  backslash : c = '\\' → rest.head? ≠ some '$'
  dollar : c = '$' → rest.head? ≠ some '(' ∧ rest.head? ≠ some '\x7b'

/-- A character that stands for itself is put to the text. -/
theorem scan_text_cons {c : Char} {rest : List Char} (h : IsLiteral c rest) (run : List Char) :
    scan (.text run) (c :: rest) = scan (.text (c :: run)) rest := by
  refine scan.eq_6 run c rest ?_ ?_ ?_
  · rintro others hslash rfl
    exact h.backslash hslash rfl
  · rintro others hdollar rfl
    exact (h.dollar hdollar).2 rfl
  · rintro others hdollar rfl
    exact (h.dollar hdollar).1 rfl

/-- A run of text is a segment, unless it is empty. -/
theorem exists_flush (run : List Char) :
    ∃ complete : List (List Char), (∀ text ∈ complete, text ≠ []) ∧
      complete.flatten = run.reverse ∧ flush run = complete.map .text := by
  cases run with
  | nil => exact ⟨[], nofun, rfl, rfl⟩
  | cons c run => exact ⟨[(c :: run).reverse], by simp, by simp, rfl⟩

/-- Escaped text is read as text: some segments of it are complete behind it, and the last run goes on.
A backslash at the end of the text must not stand in front of a dollar sign. -/
theorem scan_escaped (content run rest : List Char)
    (h : content.getLast? = some '\\' → rest.head? ≠ some '$') :
    ∃ (complete : List (List Char)) (last : List Char),
      (∀ text ∈ complete, text ≠ []) ∧
      complete.flatten ++ last.reverse = run.reverse ++ content ∧
      scan (.text run) (escape content ++ rest) =
        (scan (.text last) rest).map (complete.map .text ++ ·) := by
  induction content generalizing run with
  | nil =>
      refine ⟨[], run, nofun, by simp, ?_⟩
      show scan (.text run) rest = (scan (.text run) rest).map ([] ++ ·)
      cases scan (.text run) rest <;> rfl
  | cons c content ih =>
      have hcontent : content.getLast? = some '\\' → rest.head? ≠ some '$' := by
        intro hlast
        exact h (by simp [List.getLast?_cons, hlast])
      by_cases hc : c = '$'
      · -- the escaped sign begins a new run
        obtain ⟨front, hfront, hrun, hflush⟩ := exists_flush run
        obtain ⟨complete, last, hfull, htext, hscan⟩ := ih ['$'] hcontent
        refine ⟨front ++ complete, last, List.forall_mem_append.2 ⟨hfront, hfull⟩, ?_, ?_⟩
        · rw [List.flatten_append, List.append_assoc, htext, hrun, hc]
          rfl
        · have hsplit : escape (c :: content) ++ rest = '\\' :: '$' :: (escape content ++ rest) := by
            simp [escape, hc]
          rw [hsplit, scan, hscan, hflush, List.map_append]
          cases scan (.text last) rest with
          | error => rfl
          | ok found => simp [Except.map]
      · obtain ⟨complete, last, hfull, htext, hscan⟩ := ih (c :: run) hcontent
        refine ⟨complete, last, hfull, by simpa using htext, ?_⟩
        have hsplit : escape (c :: content) ++ rest = c :: (escape content ++ rest) := by
          simp [escape, hc]
        rw [hsplit, scan_text_cons ⟨fun hslash ↦ head?_escape_append fun hempty ↦ h ?_,
          fun hdollar ↦ absurd hdollar hc⟩, hscan]
        rw [hslash, hempty]
        rfl

end Invocation.Template
