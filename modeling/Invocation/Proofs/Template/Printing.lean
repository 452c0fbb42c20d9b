import Invocation.Proofs.Template.Scanner
import Mathlib.Data.List.Chain

/-!
# Printing and evaluating templates

A template can be printed from pieces: literal text with its dollar signs escaped, and references.  When
the bodies balance and no backslash stands in front of a reference, splitting the printed text gives the
references back with the text between them (`segments_printed`), so that the value of the printed template
is the value of its pieces (`evaluate_printed`).
-/

namespace Invocation.Template

/-! ## Pieces -/

/-- A piece as it is written in a template. -/
def Segment.printed : Segment → List Char
  | .text content => escape content
  | .reference body => '$' :: '(' :: (body ++ [')'])

/-- The template that is written for pieces. -/
def printed (pieces : List Segment) : String :=
  String.ofList (pieces.flatMap Segment.printed)

/-- The second piece may be written behind the first one: text is not split, and the backslash at its end
would escape the dollar sign of a reference. -/
def MayPrecede : Segment → Segment → Prop
  | .text _, .text _ => False
  | .text content, .reference _ => content.getLast? ≠ some '\\'
  | .reference _, _ => True

/-- The pieces can be written one behind the other. -/
structure Printable (pieces : List Segment) : Prop where
  balanced {body : List Char} : .reference body ∈ pieces → Closes 0 body
  chain : pieces.IsChain MayPrecede

/-- The text in front of the first reference, and each reference with the text behind it.  Where text is
split makes no difference. -/
def outline : List Segment → List Char × List (List Char × List Char)
  | [] => ([], [])
  | .text content :: rest => (content ++ (outline rest).1, (outline rest).2)
  | .reference body :: rest => ([], (body, (outline rest).1) :: (outline rest).2)

/-- Text in front of pieces belongs to their first text. -/
theorem outline_texts_append (texts : List (List Char)) (pieces : List Segment) :
    outline (texts.map .text ++ pieces) =
      (texts.flatten ++ (outline pieces).1, (outline pieces).2) := by
  induction texts with
  | nil => rfl
  | cons text texts ih =>
      show outline (.text text :: (texts.map .text ++ pieces)) = _
      rw [outline, ih]
      simp

/-- Texts of which none is empty are no empty segments. -/
theorem text_nil_notMem_map {texts : List (List Char)} (h : ∀ text ∈ texts, text ≠ []) :
    Segment.text [] ∉ texts.map .text := by
  intro hmem
  obtain ⟨text, htext, hempty⟩ := List.mem_map.1 hmem
  exact h text htext (Segment.text.inj hempty)

/-! ## Splitting -/

/-- The written pieces begin with a dollar sign only when the first one is a reference. -/
theorem head?_printed_ne {content : List Char} {pieces : List Segment}
    (h : (Segment.text content :: pieces).IsChain MayPrecede)
    (hlast : content.getLast? = some '\\') : (pieces.flatMap Segment.printed).head? ≠ some '$' := by
  cases pieces with
  | nil => simp
  | cons piece pieces =>
      have hpiece := (List.isChain_cons_cons.1 h).1
      cases piece with
      | text => cases hpiece
      | reference => exact absurd hlast hpiece

/-- Written pieces are read as segments with the same references and texts, none of them empty; the run of
text in front of them goes on. -/
theorem exists_scan_printed {pieces : List Segment} (h : Printable pieces) (run : List Char) :
    ∃ found, scan (.text run) (pieces.flatMap Segment.printed) = .ok found ∧ .text [] ∉ found ∧
      outline found = (run.reverse ++ (outline pieces).1, (outline pieces).2) := by
  -- a text leaves its last run to the pieces behind it, a reference leaves none
  induction pieces generalizing run with
  | nil =>
      obtain ⟨texts, hfull, htext, hflush⟩ := exists_flush run
      refine ⟨flush run, by simp [scan], ?_, ?_⟩
      · rw [hflush]
        exact text_nil_notMem_map hfull
      · have houtline := outline_texts_append texts []
        rw [List.append_nil, ← hflush, htext] at houtline
        exact houtline
  | cons piece pieces ih =>
      have hrest : Printable pieces :=
        ⟨fun hmem ↦ h.balanced (.tail _ hmem), h.chain.tail⟩
      cases piece with
      | text content =>
          obtain ⟨texts, last, hfull, htext, hscan⟩ := scan_escaped content run
            (pieces.flatMap Segment.printed) (head?_printed_ne h.chain)
          obtain ⟨found, hfound, hnonempty, houtline⟩ := ih hrest last
          refine ⟨texts.map .text ++ found, ?_, ?_, ?_⟩
          · rw [List.flatMap_cons]
            exact hscan.trans (by rw [hfound]; rfl)
          · intro hmem
            rcases List.mem_append.1 hmem with hmem | hmem
            · exact text_nil_notMem_map hfull hmem
            · exact hnonempty hmem
          · rw [outline_texts_append, houtline, ← List.append_assoc, htext]
            simp [outline]
      | reference body =>
          obtain ⟨texts, hfull, htext, hflush⟩ := exists_flush run
          obtain ⟨found, hfound, hnonempty, houtline⟩ := ih hrest []
          refine ⟨flush run ++ .reference body :: found, ?_, ?_, ?_⟩
          · have hprinted : (Segment.reference body :: pieces).flatMap Segment.printed =
                '$' :: '(' :: (body ++ ')' :: pieces.flatMap Segment.printed) := by
              simp [Segment.printed]
            rw [hprinted, scan_body (h.balanced List.mem_cons_self), hfound]
            rfl
          · rw [hflush]
            intro hmem
            rcases List.mem_append.1 hmem with hmem | hmem
            · exact text_nil_notMem_map hfull hmem
            · cases hmem with
              | tail _ hmem => exact hnonempty hmem
          · rw [hflush, outline_texts_append, outline, houtline, htext]
            rfl

/-- The segments of a written template have its references and texts. -/
theorem segments_printed {pieces : List Segment} (h : Printable pieces) :
    ∃ found, segments (printed pieces) = .ok found ∧ .text [] ∉ found ∧
      outline found = outline pieces := by
  unfold segments printed
  rw [String.toList_ofList]
  exact exists_scan_printed h []

/-! ## Evaluating -/

variable {value : String → Except EvaluationError Json}

/-- A text with the values of the references behind it, each of which is followed by text of its own. -/
def joined (value : String → Except EvaluationError Json) (front : List Char) :
    List (List Char × List Char) → Except EvaluationError (List Char)
  | [] => .ok front
  | (body, behind) :: rest => do
    let text ← (value (String.ofList body)).map interpolated
    let others ← joined value behind rest
    return front ++ text.toList ++ others

/-- More text in front of the references stands in front of the result. -/
theorem joined_append (content front : List Char) (references : List (List Char × List Char)) :
    joined value (content ++ front) references =
      (joined value front references).map (content ++ ·) := by
  cases references with
  | nil => rfl
  | cons reference rest =>
      simp only [joined]
      cases (value (String.ofList reference.1)).map interpolated with
      | error => rfl
      | ok text =>
          cases joined value reference.2 rest with
          | error => rfl
          | ok others => simp [bind, Except.bind, Except.map, pure, Except.pure]

/-- A text joined in front of texts. -/
theorem join_mapM_cons (piece : Segment) (pieces : List Segment) :
    ((piece :: pieces).mapM (segmentText value)).map String.join = (do
      let text ← segmentText value piece
      let others ← (pieces.mapM (segmentText value)).map String.join
      return text ++ others) := by
  rw [List.mapM_cons]
  cases segmentText value piece with
  | error => rfl
  | ok text =>
      cases pieces.mapM (segmentText value) with
      | error => rfl
      | ok texts => exact congrArg Except.ok String.join_cons

/-- The joined text of segments depends on their outline alone. -/
theorem join_mapM_segmentText (pieces : List Segment) :
    (pieces.mapM (segmentText value)).map String.join =
      (joined value (outline pieces).1 (outline pieces).2).map String.ofList := by
  induction pieces with
  | nil => rfl
  | cons piece pieces ih =>
      rw [join_mapM_cons, ih]
      cases piece with
      | text content =>
          rw [outline, joined_append]
          cases joined value (outline pieces).1 (outline pieces).2 with
          | error => rfl
          | ok others => exact congrArg Except.ok String.ofList_append.symm
      | reference body =>
          rw [outline, joined, segmentText]
          cases (value (String.ofList body)).map interpolated with
          | error => rfl
          | ok text =>
              cases joined value (outline pieces).1 (outline pieces).2 with
              | error => rfl
              | ok others =>
                  show Except.ok (text ++ String.ofList others) =
                    Except.ok (String.ofList ([] ++ text.toList ++ others))
                  simp

/-- A reference stands alone when all other pieces are empty texts. -/
def IsSole (body : List Char) (pieces : List Segment) : Prop :=
  pieces.filter (· ≠ .text []) = [.reference body]

/-- The reference that stands alone is a piece, and no other reference is. -/
theorem IsSole.reference_mem_iff {body other : List Char} {pieces : List Segment}
    (h : IsSole body pieces) : .reference other ∈ pieces ↔ other = body := by
  have hmem : .reference other ∈ pieces.filter (· ≠ .text []) ↔ .reference other ∈ pieces := by
    simp
  rw [← hmem, h, List.mem_singleton, Segment.reference.injEq]

/-- Pieces without text and references are empty texts. -/
theorem forall_eq_text_nil_iff {pieces : List Segment} :
    (∀ piece ∈ pieces, piece = .text []) ↔ (outline pieces).1 = [] ∧ (outline pieces).2 = [] := by
  induction pieces with
  | nil => simp [outline]
  | cons piece pieces ih =>
      rw [List.forall_mem_cons, ih]
      cases piece with
      | reference => simp [outline]
      | text content => simp [outline, and_assoc]

/-- Whether a reference stands alone can be read off the outline. -/
theorem isSole_iff_outline {body : List Char} {pieces : List Segment} :
    IsSole body pieces ↔ (outline pieces).1 = [] ∧ (outline pieces).2 = [(body, [])] := by
  unfold IsSole
  induction pieces with
  | nil => simp [outline]
  | cons piece pieces ih =>
      cases piece with
      | text content =>
          cases content with
          | nil => simpa [outline] using ih
          | cons => simp [outline]
      | reference other => simp [outline, ← forall_eq_text_nil_iff, and_assoc]

/-- The text of a piece, when its reference has an answer. -/
def Segment.shown (answer : List Char → Json) : Segment → String
  | .text content => String.ofList content
  | .reference body => interpolated (answer body)

/-- When every reference has an answer, every piece has its text. -/
theorem mapM_segmentText_of_answers (answer : List Char → Json) {pieces : List Segment}
    (h : ∀ body, .reference body ∈ pieces → value (String.ofList body) = .ok (answer body)) :
    pieces.mapM (segmentText value) = .ok (pieces.map (Segment.shown answer)) := by
  induction pieces with
  | nil => rfl
  | cons piece pieces ih =>
      have hpiece : segmentText value piece = .ok (piece.shown answer) := by
        cases piece with
        | text => rfl
        | reference body => rw [segmentText, h body List.mem_cons_self]; rfl
      rw [List.mapM_cons, hpiece, ih fun body hbody ↦ h body (.tail _ hbody)]
      rfl

/-- The first reference without an answer decides the error. -/
theorem mapM_segmentText_of_error {front back : List Segment} {body : List Char}
    {error : EvaluationError}
    (hfront : ∀ earlier, .reference earlier ∈ front →
      ∃ answer, value (String.ofList earlier) = .ok answer)
    (hbody : value (String.ofList body) = .error error) :
    (front ++ .reference body :: back).mapM (segmentText value) = .error error := by
  have htexts : ∃ texts, front.mapM (segmentText value) = .ok texts := by
    refine ⟨_, mapM_segmentText_of_answers
      (fun earlier ↦ (value (String.ofList earlier)).toOption.getD .null) ?_⟩
    intro earlier hearlier
    obtain ⟨answer, hanswer⟩ := hfront earlier hearlier
    rw [hanswer]
    rfl
  have hpiece : segmentText value (.reference body) = .error error := by
    rw [segmentText, hbody]
    rfl
  obtain ⟨texts, htexts⟩ := htexts
  rw [List.mapM_append, htexts, List.mapM_cons, hpiece]
  rfl

/-- Segments that are no single reference are filled by joining their texts. -/
theorem fill_of_not_isSole {found : List Segment} (h : ∀ body, ¬ IsSole body found) :
    fill value found =
      (found.mapM (segmentText value)).map fun texts ↦ .string (String.join texts) := by
  refine fill.eq_2 value found ?_
  rintro body rfl
  exact h body rfl

/-- A written reference that stands alone keeps its value. -/
theorem evaluate_of_isSole {pieces : List Segment} (h : Printable pieces) {body : List Char}
    (hsole : IsSole body pieces) (location : String) :
    evaluate value (printed pieces) location =
      (value (String.ofList body)).map JobValue.ofJson := by
  obtain ⟨found, hfound, hnonempty, houtline⟩ := segments_printed h
  have hfoundSole : IsSole body found := by
    rw [isSole_iff_outline] at hsole ⊢
    rwa [houtline]
  -- no empty text is left out of the segments
  have hall : found.filter (· ≠ .text []) = found := by
    refine List.filter_eq_self.2 fun piece hpiece ↦ decide_eq_true ?_
    rintro rfl
    exact hnonempty hpiece
  have halone : found = [.reference body] := hall.symm.trans hfoundSole
  rw [evaluate, hfound, halone]
  rfl

/-- Other written pieces are joined. -/
theorem evaluate_of_not_isSole {pieces : List Segment} (h : Printable pieces)
    (hsole : ∀ body, ¬ IsSole body pieces) (location : String) :
    evaluate value (printed pieces) location =
      (pieces.mapM (segmentText value)).map fun texts ↦ .string (String.join texts) := by
  obtain ⟨found, hfound, -, houtline⟩ := segments_printed h
  -- the segments may split the texts of the pieces, but their outline is the same
  have hfoundSole : ∀ body, ¬ IsSole body found := by
    intro body
    rw [isSole_iff_outline, houtline, ← isSole_iff_outline]
    exact hsole body
  have hjoin : (found.mapM (segmentText value)).map String.join =
      (pieces.mapM (segmentText value)).map String.join := by
    rw [join_mapM_segmentText, join_mapM_segmentText, houtline]
  have hstring : ∀ texts : Except EvaluationError (List String),
      texts.map (fun texts ↦ JobValue.string (String.join texts)) =
        (texts.map String.join).map JobValue.string := by
    intro texts
    cases texts <;> rfl
  rw [evaluate, hfound]
  show fill value found = _
  rw [fill_of_not_isSole hfoundSole, hstring, hjoin, ← hstring]

/-- The text of written pieces whose references have answers. -/
theorem evaluate_of_answers {pieces : List Segment} (h : Printable pieces)
    (hsole : ∀ body, ¬ IsSole body pieces) (answer : List Char → Json)
    (hanswer : ∀ body, .reference body ∈ pieces →
      value (String.ofList body) = .ok (answer body)) (location : String) :
    evaluate value (printed pieces) location =
      .ok (.string (String.join (pieces.map (Segment.shown answer)))) := by
  rw [evaluate_of_not_isSole h hsole, mapM_segmentText_of_answers answer hanswer]
  rfl

/-- Texts without a reference are joined. -/
theorem join_shown_texts (answer : List Char → Json) (texts : List (List Char)) :
    String.join ((texts.map Segment.text).map (Segment.shown answer)) =
      String.ofList texts.flatten := by
  induction texts with
  | nil => rfl
  | cons text texts ih =>
      rw [List.map_cons, List.map_cons, String.join_cons, ih, List.flatten_cons,
        String.ofList_append]
      rfl

/-- A template that is written for pieces has the value of the pieces.  Its segments have the references
and texts of the pieces.  Text without references is unchanged, a reference that stands alone keeps its
value, and otherwise every piece has its text in its place, or the first failure is the error. -/
theorem evaluate_printed {pieces : List Segment} (h : Printable pieces) :
    (∃ found, segments (printed pieces) = .ok found ∧ outline found = outline pieces) ∧
    ∀ (value : String → Except EvaluationError Json) (location : String),
      (∀ texts : List (List Char), pieces = texts.map .text →
        evaluate value (printed pieces) location = .ok (.string (String.ofList texts.flatten))) ∧
      (∀ body, IsSole body pieces →
        evaluate value (printed pieces) location =
          (value (String.ofList body)).map JobValue.ofJson) ∧
      (∀ answer : List Char → Json,
        (∀ body, ¬ IsSole body pieces) →
        (∀ body, .reference body ∈ pieces → value (String.ofList body) = .ok (answer body)) →
        evaluate value (printed pieces) location =
          .ok (.string (String.join (pieces.map (Segment.shown answer))))) ∧
      (∀ front body back error, pieces = front ++ .reference body :: back →
        (∀ earlier, .reference earlier ∈ front →
          ∃ answer, value (String.ofList earlier) = .ok answer) →
        value (String.ofList body) = .error error →
        evaluate value (printed pieces) location = .error error) := by
  constructor
  · obtain ⟨found, hfound, -, houtline⟩ := segments_printed h
    exact ⟨found, hfound, houtline⟩
  intro value location
  refine ⟨?_, ?_, ?_, ?_⟩
  · rintro texts rfl
    have hnone : ∀ body, .reference body ∉ texts.map Segment.text := by
      intro body hbody
      obtain ⟨text, -, htext⟩ := List.mem_map.1 hbody
      cases htext
    have hsole : ∀ body, ¬ IsSole body (texts.map .text) := by
      intro body hbody
      exact hnone body (hbody.reference_mem_iff.2 rfl)
    rw [evaluate_of_answers h hsole (fun _ ↦ .null)
      (fun body hbody ↦ absurd hbody (hnone body)) location, join_shown_texts]
  · intro body hsole
    exact evaluate_of_isSole h hsole location
  · intro answer hsole hanswer
    exact evaluate_of_answers h hsole answer hanswer location
  · rintro front body back error rfl hfront hbody
    by_cases hsole : ∃ other, IsSole other (front ++ .reference body :: back)
    · obtain ⟨other, hother⟩ := hsole
      have hsame : body = other := hother.reference_mem_iff.1 (by simp)
      rw [evaluate_of_isSole h hother, ← hsame, hbody]
      rfl
    · rw [evaluate_of_not_isSole h (fun other hother ↦ hsole ⟨other, hother⟩),
        mapM_segmentText_of_error hfront hbody]
      rfl

/-- Text with dollar signs and a backslash run, a reference with an escaped mark, a parenthesis and a sign
of two bytes in its string, a second reference right behind it, and a text that ends in a backslash. -/
def pricedPieces : List Segment :=
  [.text "$é\\\\$(".toList, .reference "g(\"\\\")é\")".toList, .reference "n".toList,
    .text "\x7b\\".toList]

/-- Each of these pieces may stand in front of the next one, and their references balance. -/
theorem printable_pricedPieces : Printable pricedPieces where
  balanced hmem := by
    have hquoted : Quoted '"' ['\\', '"', ')', 'é', '"'] :=
      .escape _ (.char (by decide) (by decide) (.char (by decide) (by decide) .close))
    have hcall : Closes 0 ['g', '(', '"', '\\', '"', ')', 'é', '"', ')'] :=
      .char (by decide) (by decide) (by unfold IsMark; decide)
        (.opening (.string (.inr rfl) hquoted (.closing .nil)))
    have hname : Closes 0 ['n'] :=
      .char (by decide) (by decide) (by unfold IsMark; decide) .nil
    simp only [pricedPieces, List.mem_cons, List.not_mem_nil, Segment.reference.injEq,
      reduceCtorEq, false_or, or_false] at hmem
    rcases hmem with rfl | rfl
    · exact hcall
    · exact hname
  chain := by
    simp [pricedPieces, List.isChain_cons_cons, MayPrecede]

/-- The written pieces with their references answered, and with the second one failing. -/
theorem evaluate_printed_priced :
    printed pricedPieces = "\\$é\\\\\\$($(g(\"\\\")é\"))$(n)\x7b\\" ∧
    evaluate (fun body ↦ .ok (if body = "n" then .bool true else .string "ü"))
      (printed pricedPieces) "here" = .ok (.string "$é\\\\$(ütrue\x7b\\") ∧
    evaluate (fun body ↦ if body = "n" then .error ⟨"TypeError", "here", "n"⟩ else .ok .null)
      (printed pricedPieces) "here" = .error ⟨"TypeError", "here", "n"⟩ := by
  have hsole : ∀ body, ¬ IsSole body pricedPieces := by
    simp [IsSole, pricedPieces]
  refine ⟨by decide, ?_, ?_⟩
  · obtain ⟨-, -, hanswers, -⟩ := (evaluate_printed printable_pricedPieces).2
      (fun body ↦ .ok (if body = "n" then .bool true else .string "ü")) "here"
    exact hanswers (fun body ↦ if String.ofList body = "n" then .bool true else .string "ü")
      hsole fun body _ ↦ rfl
  · obtain ⟨-, -, -, herror⟩ := (evaluate_printed printable_pricedPieces).2
      (fun body ↦ if body = "n" then .error ⟨"TypeError", "here", "n"⟩ else .ok .null) "here"
    refine herror (pricedPieces.take 2) "n".toList (pricedPieces.drop 3) _ rfl ?_ rfl
    intro earlier hearlier
    have hcall : earlier = "g(\"\\\")é\")".toList := by
      simpa [pricedPieces] using hearlier
    rw [hcall]
    exact ⟨.null, rfl⟩

end Invocation.Template
