import Invocation.Document.Tool
import Invocation.Proofs.Template.Printing
import Mathlib.Data.List.Infix

/-!
# Text without references

A text in which no reference starts is evaluated without asking for any value: the result is the text
itself, but for the backslash in front of each escaped dollar sign (`evaluate_of_not_hasReference`).  So
the text is left as it is exactly when nothing is escaped in it.
-/

namespace Invocation.Template

/-! ## Escapes -/

/-- The text without the backslash of each escaped dollar sign. -/
def unescaped : List Char → List Char
  | '\\' :: '$' :: rest => '$' :: unescaped rest
  | c :: rest => c :: unescaped rest
  | [] => []

/-- Somewhere in the text a backslash stands in front of a dollar sign. -/
def HasEscape (text : List Char) : Prop :=
  ['\\', '$'] <:+: text

/-- Text in which nothing is escaped stays as it is. -/
theorem unescaped_of_not_hasEscape {text : List Char} (h : ¬ HasEscape text) : unescaped text = text := by
  fun_induction unescaped text with
  | case1 rest => exact absurd (List.prefix_append ['\\', '$'] rest).isInfix h
  | case2 c rest _ ih => rw [ih fun hrest ↦ h (List.infix_cons hrest)]
  | case3 => rfl

/-- No backslash is added. -/
theorem count_unescaped_le (text : List Char) : (unescaped text).count '\\' ≤ text.count '\\' := by
  fun_induction unescaped text with
  | case1 rest ih =>
      rw [List.count_cons_of_ne (by decide), List.count_cons_self, List.count_cons_of_ne (by decide)]
      omega
  | case2 c rest _ ih =>
      simp only [List.count_cons]
      omega
  | case3 => exact Nat.le_refl 0

/-- Where a dollar sign is escaped, a backslash is lost. -/
theorem count_unescaped_lt {text : List Char} (h : HasEscape text) :
    (unescaped text).count '\\' < text.count '\\' := by
  fun_induction unescaped text with
  | case1 rest ih =>
      have hle := count_unescaped_le rest
      rw [List.count_cons_of_ne (by decide), List.count_cons_self, List.count_cons_of_ne (by decide)]
      omega
  | case2 c rest hne ih =>
      rcases List.infix_cons_iff.1 h with hfront | hrest
      · obtain ⟨others, hothers⟩ := hfront
        obtain ⟨rfl, rfl⟩ := List.cons.inj hothers
        exact absurd rfl (hne _ rfl)
      · have hlt := ih hrest
        simp only [List.count_cons]
        omega
  | case3 => cases List.eq_nil_of_infix_nil h

/-! ## Scanning -/

/-- Where no reference starts, none starts at the first character nor behind it. -/
theorem not_hasReference_cons {c : Char} {rest : List Char}
    (h : Document.hasReference (c :: rest) = false) :
    (c = '$' → rest.head? ≠ some '(' ∧ rest.head? ≠ some '\x7b') ∧
      Document.hasReference rest = false := by
  unfold Document.hasReference at h
  split at h
  · cases h
  · cases h
  · next hparenthesis hbrace heq =>
    obtain ⟨rfl, rfl⟩ := List.cons.inj heq
    refine ⟨fun hdollar ↦ ⟨?_, ?_⟩, h⟩
    · exact fun hhead ↦ hparenthesis _ hdollar (List.eq_cons_of_mem_head? hhead)
    · exact fun hhead ↦ hbrace _ hdollar (List.eq_cons_of_mem_head? hhead)
  · next heq => cases heq

/-- Text in which no reference starts is split into runs of text, which lack the backslashes of escaped
signs and nothing else. -/
theorem exists_scan_text {text : List Char} (h : Document.hasReference text = false)
    (run : List Char) :
    ∃ texts : List (List Char), scan (.text run) text = .ok (texts.map .text) ∧
      texts.flatten = run.reverse ++ unescaped text := by
  fun_induction unescaped text generalizing run with
  | case1 rest ih =>
      have hrest := (not_hasReference_cons (not_hasReference_cons h).2).2
      obtain ⟨texts, hscan, htexts⟩ := ih hrest ['$']
      obtain ⟨front, -, hfront, hflush⟩ := exists_flush run
      refine ⟨front ++ texts, ?_, ?_⟩
      · rw [scan, hscan, hflush, List.map_append]
        rfl
      · rw [List.flatten_append, hfront, htexts]
        rfl
  | case2 c rest hne ih =>
      obtain ⟨hdollar, hrest⟩ := not_hasReference_cons h
      obtain ⟨texts, hscan, htexts⟩ := ih hrest (c :: run)
      refine ⟨texts, ?_, by simpa using htexts⟩
      rw [← hscan]
      refine scan_text_cons ⟨fun hslash hhead ↦ ?_, hdollar⟩ run
      exact hne rest.tail hslash (List.eq_cons_of_mem_head? hhead)
  | case3 =>
      obtain ⟨front, -, hfront, hflush⟩ := exists_flush run
      exact ⟨front, by rw [scan, hflush], by rw [hfront]; simp⟩

/-! ## Evaluating -/

variable {value other : String → Except EvaluationError Json}

/-- Text in which no reference starts has itself as its value, without the backslashes of escaped signs. -/
theorem evaluate_of_not_hasReference {source : String}
    (h : Document.hasReference source.toList = false) (location : String) :
    evaluate value source location = .ok (.string (String.ofList (unescaped source.toList))) := by
  obtain ⟨texts, hscan, htexts⟩ := exists_scan_text h []
  have hnone : ∀ body, .reference body ∉ texts.map Segment.text := by
    intro body hbody
    obtain ⟨text, -, htext⟩ := List.mem_map.1 hbody
    cases htext
  have hsole : ∀ body, ¬ IsSole body (texts.map .text) := by
    intro body hbody
    exact hnone body (hbody.reference_mem_iff.2 rfl)
  unfold evaluate segments
  rw [hscan]
  dsimp only
  rw [fill_of_not_isSole hsole, mapM_segmentText_of_answers (fun _ ↦ .null)
    fun body hbody ↦ absurd hbody (hnone body)]
  show Except.ok (JobValue.string (String.join _)) = _
  rw [join_shown_texts, htexts]
  rfl

/-- A change of a value succeeds when there is a value. -/
theorem map_eq_ok_iff {ε α β : Type} {outcome : Except ε α} {f : α → β} {result : β} :
    outcome.map f = .ok result ↔ ∃ found, outcome = .ok found ∧ f found = result := by
  cases outcome <;> simp [Except.map]

/-- The text of a segment is the same when every reference that has a value keeps it. -/
theorem segmentText_mono (h : ∀ body json, value body = .ok json → other body = .ok json)
    {piece : Segment} {text : String} (htext : segmentText value piece = .ok text) :
    segmentText other piece = .ok text := by
  cases piece with
  | text content => exact htext
  | reference body =>
      rw [segmentText, map_eq_ok_iff] at *
      obtain ⟨json, hvalue, hjson⟩ := htext
      exact ⟨json, h _ _ hvalue, hjson⟩

/-- The texts of segments are the same when every reference that has a value keeps it. -/
theorem mapM_segmentText_mono (h : ∀ body json, value body = .ok json → other body = .ok json)
    {pieces : List Segment} {texts : List String}
    (htexts : pieces.mapM (segmentText value) = .ok texts) :
    pieces.mapM (segmentText other) = .ok texts := by
  induction pieces generalizing texts with
  | nil => exact htexts
  | cons piece pieces ih =>
      rw [List.mapM_cons] at *
      cases hpiece : segmentText value piece with
      | error =>
          rw [hpiece] at htexts
          cases htexts
      | ok text =>
          cases hrest : pieces.mapM (segmentText value) with
          | error =>
              rw [hpiece, hrest] at htexts
              cases htexts
          | ok rest =>
              rw [hpiece, hrest] at htexts
              rw [segmentText_mono h hpiece, ih hrest]
              exact htexts

/-- A template that has a value keeps it when every reference that has a value does; the place of the
template makes no difference. -/
theorem evaluate_mono (h : ∀ body json, value body = .ok json → other body = .ok json)
    {source location : String} {result : JobValue}
    (hresult : evaluate value source location = .ok result) (place : String) :
    evaluate other source place = .ok result := by
  unfold evaluate at *
  cases hsegments : segments source with
  | error =>
      rw [hsegments] at hresult
      cases hresult
  | ok found =>
      rw [hsegments] at hresult
      dsimp only at *
      by_cases hsole : ∃ body, found = [.reference body]
      · obtain ⟨body, rfl⟩ := hsole
        rw [fill, map_eq_ok_iff] at *
        obtain ⟨json, hvalue, hjson⟩ := hresult
        exact ⟨json, h _ _ hvalue, hjson⟩
      · have hmany : ∀ body, found ≠ [.reference body] := fun body hbody ↦ hsole ⟨body, hbody⟩
        rw [fill.eq_2 _ found hmany, map_eq_ok_iff] at *
        obtain ⟨texts, htexts, hjoin⟩ := hresult
        exact ⟨texts, mapM_segmentText_mono h htexts, hjoin⟩

end Invocation.Template
