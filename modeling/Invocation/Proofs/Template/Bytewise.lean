import Invocation.Proofs.Template.Scanner
import Invocation.Proofs.Text.Offsets

/-!
# Splitting a template byte by byte

A template can also be split without looking at characters: one cursor moves through the bytes of the text, and
at a reference a second one, the probe, looks for the byte that closes it.  Both move on by one or two bytes, so
that they may stand inside of a character, and what they do can fail (`Abort`): to read a byte, to close a
parenthesis and to cut a text out between two offsets.  From the start nothing of this fails in any round, and
in one round more than there are bytes the run ends with the segments of the template
(`run_eq_segments`).
-/

namespace Invocation.Template

/-- A mark is an ASCII character. -/
theorem IsMark.toNat_lt {mark : Char} (h : IsMark mark) : mark.toNat < 128 := by
  rcases h with rfl | rfl <;> decide

namespace Bytewise

/-! ## What can fail -/

/-- Why a run breaks off. -/
inductive Abort where
  /-- There is no byte at the offset. -/
  | index (offset : Nat)
  /-- No parenthesis is open. -/
  | depth
  /-- The offsets are not in order, or one of them is behind the end or inside of a character. -/
  | slice (start stop : Nat)
  deriving DecidableEq

/-- The byte at an offset. -/
def byteAt (source : String) (offset : Nat) : Except Abort UInt8 :=
  match (Text.bytes source)[offset]? with
  | some byte => .ok byte
  | none => .error (.index offset)

/-- The byte behind an offset, if the text does not end in front of it. -/
def byteBehind? (source : String) (offset : Nat) : Except Abort (Option UInt8) :=
  if offset + 1 < source.utf8ByteSize then (byteAt source (offset + 1)).map some else .ok none

/-- One open parenthesis less. -/
def lowered : Nat → Except Abort Nat
  | 0 => .error .depth
  | depth + 1 => .ok depth

/-- The characters between two offsets. -/
def slice (source : String) (start stop : Nat) : Except Abort (List Char) :=
  if start ≤ stop ∧ stop ≤ source.utf8ByteSize ∧ String.Pos.Raw.isValid source ⟨start⟩ = true ∧
      String.Pos.Raw.isValid source ⟨stop⟩ = true then
    .ok (String.Pos.Raw.extract source ⟨start⟩ ⟨stop⟩).toList
  else .error (.slice start stop)

/-! ## Rounds -/

/-- The cursor of the text: the segments in front of it, the offset of the text that is not among them, and its
own. -/
structure Cursor where
  found : List Segment
  textStart : Nat
  offset : Nat
  deriving DecidableEq

/-- The probe of a reference: its offset, how many parentheses are open, and the mark of an open string. -/
structure Probe where
  offset : Nat
  depth : Nat
  quote : Option UInt8
  deriving DecidableEq

/-- Where a run stands: in the text, inside of the reference at the cursor, or at its end. -/
inductive Control where
  | text (cursor : Cursor)
  | reference (cursor : Cursor) (probe : Probe)
  | returned (result : Except Fault (List Segment))
  deriving DecidableEq

/-- The segments of a cursor with the text in front of an offset, unless this is empty. -/
def withText (source : String) (cursor : Cursor) (stop : Nat) : Except Abort (List Segment) :=
  if cursor.textStart < stop then
    (slice source cursor.textStart stop).map fun content ↦ cursor.found ++ [.text content]
  else .ok cursor.found

/-- The next byte of the text. -/
def Cursor.advanced (cursor : Cursor) : Control :=
  .text { cursor with offset := cursor.offset + 1 }

/-- A backslash: in front of a dollar sign it is left out, and the sign begins a new run of text. -/
def backslashRound (source : String) (cursor : Cursor) : Except Abort Control := do
  let behind ← byteBehind? source cursor.offset
  if behind = some '$'.toUInt8 then
    let found ← withText source cursor cursor.offset
    return .text ⟨found, cursor.offset + 1, cursor.offset + 2⟩
  else return cursor.advanced

/-- A dollar sign: a reference begins with a probe at its parenthesis. -/
def dollarRound (source : String) (cursor : Cursor) : Except Abort Control := do
  let behind ← byteBehind? source cursor.offset
  if behind = some '\x7b'.toUInt8 then return .returned (.error .functionBody)
  else if behind = some '('.toUInt8 then return .reference cursor ⟨cursor.offset + 1, 0, none⟩
  else return cursor.advanced

/-- A round in the text. -/
def textRound (source : String) (cursor : Cursor) : Except Abort Control := do
  if source.utf8ByteSize ≤ cursor.offset then
    let found ← withText source cursor source.utf8ByteSize
    return .returned (.ok found)
  else
    let byte ← byteAt source cursor.offset
    if byte = '\\'.toUInt8 then backslashRound source cursor
    else if byte = '$'.toUInt8 then dollarRound source cursor
    else return cursor.advanced

/-- The cursor behind a reference that is closed at an offset. -/
def closed (source : String) (cursor : Cursor) (stop : Nat) : Except Abort Control := do
  let found ← withText source cursor cursor.offset
  let body ← slice source (cursor.offset + 2) stop
  return .text ⟨found ++ [.reference body], stop + 1, stop + 1⟩

/-- A byte of a string that a mark closes: a backslash takes the next byte along. -/
def stringRound (cursor : Cursor) (probe : Probe) (quote byte : UInt8) : Control :=
  if byte = '\\'.toUInt8 then .reference cursor { probe with offset := probe.offset + 2 }
  else if byte = quote then .reference cursor ⟨probe.offset + 1, probe.depth, none⟩
  else .reference cursor { probe with offset := probe.offset + 1 }

/-- A byte outside of strings. -/
def bodyRound (source : String) (cursor : Cursor) (probe : Probe) (byte : UInt8) : Except Abort Control := do
  if byte = '\''.toUInt8 ∨ byte = '"'.toUInt8 then
    return .reference cursor ⟨probe.offset + 1, probe.depth, some byte⟩
  else if byte = '('.toUInt8 then
    return .reference cursor ⟨probe.offset + 1, probe.depth + 1, none⟩
  else if byte = ')'.toUInt8 then
    let depth ← lowered probe.depth
    if depth = 0 then closed source cursor probe.offset
    else return .reference cursor ⟨probe.offset + 1, depth, none⟩
  else return .reference cursor { probe with offset := probe.offset + 1 }

/-- A round inside of a reference. -/
def probeRound (source : String) (cursor : Cursor) (probe : Probe) : Except Abort Control := do
  if source.utf8ByteSize ≤ probe.offset then return .returned (.error .unterminated)
  else
    let byte ← byteAt source probe.offset
    match probe.quote with
    | some quote => return stringRound cursor probe quote byte
    | none => bodyRound source cursor probe byte

/-- A round, in which a run that has ended rests. -/
def next (source : String) : Control → Except Abort Control
  | .text cursor => textRound source cursor
  | .reference cursor probe => probeRound source cursor probe
  | .returned result => .ok (.returned result)

/-- In front of the text. -/
def start : Control :=
  .text ⟨[], 0, 0⟩

/-- Where a run stands after a number of rounds. -/
def run (source : String) : Nat → Except Abort Control
  | 0 => .ok start
  | rounds + 1 => run source rounds >>= next source

/-! ## What does not fail -/

section
variable {source : String} {front middle back rest : List Char}

/-- A byte that is there is read. -/
theorem byteAt_eq {offset : Nat} {byte : UInt8} (h : (Text.bytes source)[offset]? = some byte) :
    byteAt source offset = .ok byte := by
  unfold byteAt
  rw [h]

/-- The byte behind the offset shows the next ASCII character, if the next character is one. -/
theorem exists_byteBehind? (h : source.toList = front ++ rest) {offset : Nat}
    (hoffset : offset + 1 = String.utf8Len front) : ∃ behind, byteBehind? source offset = .ok behind ∧
      ∀ c : Char, c.toNat < 128 → (behind = some c.toUInt8 ↔ rest.head? = some c) := by
  have hsize := Text.utf8ByteSize_eq h
  unfold byteBehind?
  rw [hoffset]
  cases rest with
  | nil => exact ⟨none, if_neg (by simp [hsize]), fun c _ ↦ by simp⟩
  | cons d rest =>
      obtain ⟨byte, hbyte, hshows, -⟩ := Text.exists_byte h
      have hd := d.utf8Size_pos
      rw [String.utf8Len_cons] at hsize
      refine ⟨some byte, ?_, fun c hc ↦ ?_⟩
      · rw [if_pos (by omega), byteAt_eq hbyte]
        rfl
      · rw [Option.some_inj, hshows c hc, List.head?_cons]

/-- An offset behind some characters is at the boundary of a character. -/
theorem isValid_utf8Len (h : source.toList = front ++ back) :
    String.Pos.Raw.isValid source ⟨String.utf8Len front⟩ = true := by
  rw [String.Pos.Raw.isValid_eq_true_iff, String.Pos.Raw.isValid_iff_exists_append]
  refine ⟨.ofList front, .ofList back, ?_, (String.rawEndPos_ofList front).symm⟩
  rw [← String.ofList_append, ← h, String.ofList_toList]

/-- Characters are cut out between the offsets in front of them and behind them. -/
theorem slice_eq (h : source.toList = front ++ middle ++ back) :
    slice source (String.utf8Len front) (String.utf8Len (front ++ middle)) = .ok middle := by
  have hsize := Text.utf8ByteSize_eq h
  have hextract := String.extract_of_valid front middle back
  rw [← h, String.ofList_toList, ← String.utf8Len_append] at hextract
  unfold slice
  rw [if_pos ⟨by simp, by omega, isValid_utf8Len (h.trans (List.append_assoc ..)), isValid_utf8Len h⟩, hextract,
    String.toList_ofList]

/-- The run of text behind the segments is put to them. -/
theorem withText_eq (h : source.toList = front ++ middle ++ back) {cursor : Cursor}
    (hstart : cursor.textStart = String.utf8Len front) :
    withText source cursor (String.utf8Len (front ++ middle)) = .ok (cursor.found ++ flush middle.reverse) := by
  unfold withText flush
  rw [hstart, slice_eq h]
  cases middle with
  | nil => simp
  | cons c middle =>
      have hc : c.utf8Size ≠ 0 := c.utf8Size_pos.ne'
      simp [Except.map, hc]

end

/-- Segments that are put in front one after the other are put in front together. -/
theorem map_append_map (first second : List Segment) (rest : Except Fault (List Segment)) :
    (rest.map (second ++ ·)).map (first ++ ·) = rest.map (first ++ second ++ ·) := by
  cases rest <;> simp [Except.map]

/-! ## Rounds in the text -/

/-- The cursor has come to the end of `content`, or into its last character: the segments of the text in front
of `content` are found, and those of the template are found when the characters behind the cursor are scanned. -/
structure TextAligned (source : String) (cursor : Cursor) (front content rest : List Char) : Prop where
  split : source.toList = front ++ content ++ rest
  start : cursor.textStart = String.utf8Len front
  touches : Text.Touches source cursor.offset (front ++ content)
  scan : segments source = (scan (.text content.reverse) rest).map (cursor.found ++ ·)

/-- The probe has come to the end of `passed`, or into its last character, in the reference at the cursor:
when the parentheses and the string that are open there are closed by the characters behind it, so is the
reference. -/
structure ProbeAligned (source : String) (cursor : Cursor) (probe : Probe) (quote : Option Char)
    (front content passed back : List Char) : Prop where
  text : TextAligned source cursor front content ('$' :: '(' :: (passed ++ back))
  cursor : cursor.offset = String.utf8Len (front ++ content)
  depth : 0 < probe.depth
  depth_le : probe.depth ≤ probe.offset
  marks : ∀ mark ∈ quote, IsMark mark
  quoted : probe.quote = quote.map Char.toUInt8
  touches : Text.Touches source probe.offset (front ++ content ++ ['$', '('] ++ passed)
  body : splitBody .opening (passed ++ back) =
    (splitBody ⟨probe.depth, quote, false⟩ back).map fun (body, rest) ↦ (passed ++ body, rest)

/-- A run stands where the scanner of characters stands, behind the same characters or inside of the last one. -/
inductive Aligned (source : String) : Control → Prop where
  | text {cursor : Cursor} {front content rest : List Char} (h : TextAligned source cursor front content rest) :
      Aligned source (.text cursor)
  /-- The probe stands at the parenthesis of the reference. -/
  | opening {cursor : Cursor} {front content rest : List Char}
      (h : TextAligned source cursor front content ('$' :: '(' :: rest))
      (hcursor : cursor.offset = String.utf8Len (front ++ content)) :
      Aligned source (.reference cursor ⟨cursor.offset + 1, 0, none⟩)
  | reference {cursor : Cursor} {probe : Probe} {quote : Option Char} {front content passed back : List Char}
      (h : ProbeAligned source cursor probe quote front content passed back) :
      Aligned source (.reference cursor probe)
  /-- A backslash at the end has taken the probe behind the end of the template. -/
  | exhausted {cursor : Cursor} {probe : Probe} {front content rest : List Char}
      (h : TextAligned source cursor front content ('$' :: '(' :: rest))
      (hrest : splitBody .opening rest = none) (hprobe : probe.offset = source.utf8ByteSize + 1)
      (hdepth : probe.depth ≤ probe.offset) :
      Aligned source (.reference cursor probe)
  | returned : Aligned source (.returned (segments source))

/-- The run has come to an offset, or it has ended. -/
def Control.HasPassed (offset : Nat) : Control → Prop
  | .text cursor => offset ≤ cursor.offset
  | .reference _ probe => offset ≤ probe.offset
  | .returned _ => True

/-- The round does not fail, and leads from the offset to an aligned run further on. -/
def Goes (source : String) (offset : Nat) (round : Except Abort Control) : Prop :=
  ∃ following, round = .ok following ∧ Aligned source following ∧ following.HasPassed (offset + 1)

section
variable {source : String} {cursor : Cursor} {front content rest : List Char}

/-- When the cursor passes a byte that shows nothing it is aligned as before. -/
theorem TextAligned.goes (h : TextAligned source cursor front content rest)
    (htouches : Text.Touches source (cursor.offset + 1) (front ++ content)) :
    Goes source cursor.offset (.ok cursor.advanced) :=
  ⟨_, rfl, .text ⟨h.split, h.start, htouches, h.scan⟩, le_rfl⟩

/-- When the cursor passes a character that stands for itself this belongs to the text. -/
theorem TextAligned.goes_literal {c : Char} (h : TextAligned source cursor front content (c :: rest))
    (hc : IsLiteral c rest) (htouches : Text.Touches source (cursor.offset + 1) (front ++ content ++ [c])) :
    Goes source cursor.offset (.ok cursor.advanced) := by
  have haligned : TextAligned source { cursor with offset := cursor.offset + 1 } front (content ++ [c])
      rest := by
    refine ⟨by simp [h.split], h.start, ?_, ?_⟩
    · rwa [← List.append_assoc]
    · rw [h.scan, scan_text_cons hc, List.reverse_append]
      rfl
  exact ⟨_, rfl, .text haligned, le_rfl⟩

/-- At the end the text behind the last segment is put to the segments. -/
theorem TextAligned.textRound_end (h : TextAligned source cursor front content rest)
    (hend : source.utf8ByteSize ≤ cursor.offset) :
    textRound source cursor = .ok (.returned (segments source)) := by
  obtain ⟨rfl, hoffset⟩ := h.touches.eq_nil h.split hend
  have hsize : source.utf8ByteSize = String.utf8Len (front ++ content) := Text.utf8ByteSize_eq h.split
  unfold textRound
  rw [if_pos hend, hsize, withText_eq h.split h.start, h.scan, Template.scan]
  rfl

/-- A backslash in the text escapes a dollar sign or stands for itself. -/
theorem TextAligned.goes_backslashRound (h : TextAligned source cursor front content ('\\' :: rest))
    (hoffset : cursor.offset = String.utf8Len (front ++ content))
    (htouches : Text.Touches source (cursor.offset + 1) (front ++ content ++ ['\\'])) :
    Goes source cursor.offset (backslashRound source cursor) := by
  have hsplit : source.toList = front ++ content ++ ['\\'] ++ rest := by simp [h.split]
  have hslash : String.utf8Len (front ++ content ++ ['\\']) = cursor.offset + 1 := by
    rw [String.utf8Len_append, hoffset]
    rfl
  obtain ⟨behind, hbehind, hshows⟩ := exists_byteBehind? hsplit hslash.symm
  unfold backslashRound
  rw [hbehind]
  show Goes _ _ (if _ then _ else _)
  split
  · next heq =>
    obtain ⟨others, rfl⟩ := List.head?_eq_some_iff.1 ((hshows '$' (by decide)).1 heq)
    rw [hoffset, withText_eq h.split h.start, ← hoffset]
    have haligned : TextAligned source
        ⟨cursor.found ++ flush content.reverse, cursor.offset + 1, cursor.offset + 2⟩
        (front ++ content ++ ['\\']) ['$'] others := by
      refine ⟨by simp [h.split], hslash.symm, ?_, ?_⟩
      · have hend := Text.touches_end source (front ++ content ++ ['\\'] ++ ['$'])
        rwa [String.utf8Len_append, hslash] at hend
      · rw [h.scan, Template.scan, map_append_map]
        rfl
    exact ⟨_, rfl, .text haligned, Nat.le_succ _⟩
  · next hne =>
    exact h.goes_literal ⟨fun _ hhead ↦ hne ((hshows '$' (by decide)).2 hhead),
      fun hc ↦ absurd hc (by decide)⟩ htouches

/-- A dollar sign in the text begins a function body or a reference, or it stands for itself. -/
theorem TextAligned.goes_dollarRound (h : TextAligned source cursor front content ('$' :: rest))
    (hoffset : cursor.offset = String.utf8Len (front ++ content))
    (htouches : Text.Touches source (cursor.offset + 1) (front ++ content ++ ['$'])) :
    Goes source cursor.offset (dollarRound source cursor) := by
  have hsplit : source.toList = front ++ content ++ ['$'] ++ rest := by simp [h.split]
  have hdollar : String.utf8Len (front ++ content ++ ['$']) = cursor.offset + 1 := by
    rw [String.utf8Len_append, hoffset]
    rfl
  obtain ⟨behind, hbehind, hshows⟩ := exists_byteBehind? hsplit hdollar.symm
  have hbrace := hshows '\x7b' (by decide)
  have hparen := hshows '(' (by decide)
  unfold dollarRound
  rw [hbehind]
  show Goes _ _ (if _ then _ else _)
  split
  · next heq =>
    obtain ⟨others, rfl⟩ := List.head?_eq_some_iff.1 (hbrace.1 heq)
    have hfault : segments source = .error .functionBody := by
      rw [h.scan, Template.scan]
      rfl
    exact ⟨_, rfl, hfault ▸ .returned, trivial⟩
  · next hne =>
    split
    · next heq =>
      obtain ⟨others, rfl⟩ := List.head?_eq_some_iff.1 (hparen.1 heq)
      exact ⟨_, rfl, .opening h hoffset, le_rfl⟩
    · next hother =>
      exact h.goes_literal ⟨fun hc ↦ absurd hc (by decide), fun _ ↦
        ⟨fun hhead ↦ hother (hparen.2 hhead), fun hhead ↦ hne (hbrace.2 hhead)⟩⟩ htouches

/-- A round in the text does not fail, keeps the alignment and moves on. -/
theorem TextAligned.goes_textRound (h : TextAligned source cursor front content rest) :
    Goes source cursor.offset (textRound source cursor) := by
  by_cases hend : source.utf8ByteSize ≤ cursor.offset
  · exact ⟨_, h.textRound_end hend, .returned, trivial⟩
  obtain ⟨byte, hbyte, hseen⟩ := h.touches.look h.split (Nat.lt_of_not_le hend)
  unfold textRound
  rw [if_neg hend, byteAt_eq hbyte]
  show Goes _ _ (if _ then _ else if _ then _ else _)
  cases hseen with
  | inside hshows htouches =>
      rw [if_neg (hshows.ne (by decide)), if_neg (hshows.ne (by decide))]
      exact h.goes htouches
  | @character c _ hoffset hshows htouches =>
      have hslash := hshows '\\' (by decide)
      have hdollar := hshows '$' (by decide)
      rw [Option.some_inj] at hslash hdollar
      split
      · next heq =>
        obtain rfl := hslash.1 heq
        exact h.goes_backslashRound hoffset htouches
      · next hne =>
        split
        · next heq =>
          obtain rfl := hdollar.1 heq
          exact h.goes_dollarRound hoffset htouches
        · next hother =>
          exact h.goes_literal ⟨fun hc ↦ absurd (hslash.2 hc) hne, fun hc ↦ absurd (hdollar.2 hc) hother⟩
            htouches

end

/-! ## Rounds inside of a reference -/

section
variable {source : String} {cursor : Cursor} {probe : Probe} {front content passed back rest : List Char}
  {quote : Option Char}

/-- A character that leaves the reference open belongs to the part of the body that is passed. -/
theorem splitBody_passed {nesting following : Nesting} {c : Char}
    (hbody : splitBody .opening (passed ++ c :: rest) =
      (splitBody nesting (c :: rest)).map fun (body, rest) ↦ (passed ++ body, rest))
    (hnext : nesting.next? c = some following) : splitBody .opening (passed ++ [c] ++ rest) =
      (splitBody following rest).map fun (body, rest) ↦ (passed ++ [c] ++ body, rest) := by
  rw [List.append_assoc, List.singleton_append, hbody, splitBody_cons hnext, Option.map_map]
  simp [Function.comp_def]

/-- A reference whose end is not found has none in the template. -/
theorem TextAligned.segments_unterminated (h : TextAligned source cursor front content ('$' :: '(' :: rest))
    (hbody : splitBody .opening rest = none) : segments source = .error .unterminated := by
  rw [h.scan, Template.scan, scan_reference, hbody]
  rfl

namespace ProbeAligned

/-- The template up to the probe and behind it. -/
theorem split (h : ProbeAligned source cursor probe quote front content passed back) :
    source.toList = front ++ content ++ ['$', '('] ++ passed ++ back := by
  rw [h.text.split]
  simp

/-- At the end of the template no parenthesis has closed the reference. -/
theorem segments_end (h : ProbeAligned source cursor probe quote front content passed back)
    (hend : source.utf8ByteSize ≤ probe.offset) : segments source = .error .unterminated := by
  obtain ⟨rfl, -⟩ := h.touches.eq_nil h.split hend
  exact h.text.segments_unterminated h.body

/-- When the probe passes a byte that shows nothing it is aligned as before. -/
theorem goes (h : ProbeAligned source cursor probe quote front content passed back)
    (htouches : Text.Touches source (probe.offset + 1) (front ++ content ++ ['$', '('] ++ passed)) :
    Goes source probe.offset (.ok (.reference cursor { probe with offset := probe.offset + 1 })) :=
  ⟨_, rfl, .reference ⟨h.text, h.cursor, h.depth, Nat.le_succ_of_le h.depth_le, h.marks, h.quoted, htouches,
    h.body⟩, le_rfl⟩

/-- When the probe passes a character it is aligned behind it, provided that it counts what the character opens
and closes. -/
theorem goes_of_next? {c : Char} {mark : Option Char} {depth : Nat}
    (h : ProbeAligned source cursor probe quote front content passed (c :: rest))
    (htouches : Text.Touches source (probe.offset + 1) (front ++ content ++ ['$', '('] ++ passed ++ [c]))
    (hnext : Nesting.next? ⟨probe.depth, quote, false⟩ c = some ⟨depth + 1, mark, false⟩)
    (hdepth : depth ≤ probe.depth) (hmarks : ∀ other ∈ mark, IsMark other) :
    Goes source probe.offset
      (.ok (.reference cursor ⟨probe.offset + 1, depth + 1, mark.map Char.toUInt8⟩)) := by
  have haligned : ProbeAligned source cursor ⟨probe.offset + 1, depth + 1, mark.map Char.toUInt8⟩ mark front
      content (passed ++ [c]) rest := by
    refine ⟨?_, h.cursor, Nat.succ_pos _, Nat.succ_le_succ (hdepth.trans h.depth_le), hmarks, rfl, ?_,
      splitBody_passed h.body hnext⟩
    · simpa using h.text
    · rwa [← List.append_assoc]
  exact ⟨_, rfl, .reference haligned, le_rfl⟩

/-- A backslash in a string takes the next character along, or it ends the template. -/
theorem goes_backslash {mark : Char}
    (h : ProbeAligned source cursor probe (some mark) front content passed ('\\' :: rest))
    (hoffset : probe.offset = String.utf8Len (front ++ content ++ ['$', '('] ++ passed)) :
    Goes source probe.offset (.ok (.reference cursor { probe with offset := probe.offset + 2 })) := by
  have hslash : String.utf8Len (front ++ content ++ ['$', '('] ++ passed ++ ['\\']) = probe.offset + 1 := by
    rw [String.utf8Len_append, hoffset]
    rfl
  have hbody := splitBody_passed h.body (next?_backslash _)
  cases rest with
  | nil =>
      -- the probe jumps over the end, where no character is left to close anything
      have hsize : source.utf8ByteSize = probe.offset + 1 := by
        rw [Text.utf8ByteSize_eq h.split, hoffset]
        rfl
      rw [List.append_nil] at hbody
      exact ⟨_, rfl, .exhausted h.text hbody (by rw [hsize]) (Nat.le_succ_of_le (Nat.le_succ_of_le h.depth_le)),
        Nat.le_succ _⟩
  | cons c others =>
      -- the first byte of the next character is jumped over, its other bytes show nothing
      have hsplit : source.toList = front ++ content ++ ['$', '('] ++ passed ++ ['\\'] ++ c :: others := by
        simp [h.split]
      obtain ⟨-, -, -, htouches⟩ := Text.exists_byte hsplit
      rw [hslash] at htouches
      have haligned : ProbeAligned source cursor { probe with offset := probe.offset + 2 } (some mark) front
          content (passed ++ ['\\'] ++ [c]) others := by
        refine ⟨?_, h.cursor, h.depth, Nat.le_succ_of_le (Nat.le_succ_of_le h.depth_le), h.marks, h.quoted, ?_,
          splitBody_passed hbody (next?_escaped _ c)⟩
        · simpa using h.text
        · simpa using htouches
      exact ⟨_, rfl, .reference haligned, Nat.le_succ _⟩

/-- In a string a byte that is no mark and no backslash is passed, a backslash takes the next character along,
and the mark of the string closes it. -/
theorem goes_stringRound {mark : Char} {byte : UInt8}
    (h : ProbeAligned source cursor probe (some mark) front content passed back)
    (hseen : Text.Sees source probe.offset byte (front ++ content ++ ['$', '('] ++ passed) back) :
    Goes source probe.offset (.ok (stringRound cursor probe mark.toUInt8 byte)) := by
  have hmark : IsMark mark := h.marks mark rfl
  unfold stringRound
  cases hseen with
  | inside hshows htouches =>
      rw [if_neg (hshows.ne (by decide)), if_neg (hshows.ne hmark.toNat_lt)]
      exact h.goes htouches
  | @character c rest hoffset hshows htouches =>
      have hslash := hshows '\\' (by decide)
      have hclose := hshows mark hmark.toNat_lt
      rw [Option.some_inj] at hslash hclose
      split
      · next heq =>
        obtain rfl := hslash.1 heq
        exact h.goes_backslash hoffset
      · next hne =>
        obtain ⟨offset, depth, quoted⟩ := probe
        obtain ⟨depth, rfl⟩ := Nat.exists_eq_succ_of_ne_zero h.depth.ne'
        split
        · next heq =>
          obtain rfl := hclose.1 heq
          exact h.goes_of_next? htouches (next?_closing_mark _ hmark.ne_backslash) (Nat.le_succ _) nofun
        · next hother =>
          obtain rfl : quoted = some mark.toUInt8 := h.quoted
          refine h.goes_of_next? htouches (next?_in_string _ (fun hc ↦ hne (hslash.2 hc)) fun hc ↦ ?_)
            (Nat.le_succ _) h.marks
          exact hother (hclose.2 hc)

/-- The parenthesis of the reference leads back into the text. -/
theorem goes_closed (h : ProbeAligned source cursor probe none front content passed (')' :: rest))
    (hdepth : probe.depth = 1)
    (hoffset : probe.offset = String.utf8Len (front ++ content ++ ['$', '('] ++ passed)) :
    Goes source probe.offset (closed source cursor probe.offset) := by
  have hbody : splitBody .opening (passed ++ ')' :: rest) = some (passed, rest) := by
    rw [h.body, hdepth]
    simp [splitBody]
  have hstart : cursor.offset + 2 = String.utf8Len (front ++ content ++ ['$', '(']) := by
    rw [String.utf8Len_append, h.cursor]
    rfl
  have hend : probe.offset + 1 = String.utf8Len (front ++ content ++ ['$', '('] ++ passed ++ [')']) := by
    rw [String.utf8Len_append, hoffset]
    rfl
  have hscan : scan (.text content.reverse) ('$' :: '(' :: (passed ++ ')' :: rest)) =
      (scan (.text []) rest).map (flush content.reverse ++ [.reference passed] ++ ·) := by
    rw [scan_body (splitBody_eq_some_iff.1 hbody).2]
    simp
  have haligned : TextAligned source
      ⟨cursor.found ++ flush content.reverse ++ [.reference passed], probe.offset + 1, probe.offset + 1⟩
      (front ++ content ++ ['$', '('] ++ passed ++ [')']) [] rest := by
    refine ⟨by simp [h.split], hend, ?_, ?_⟩
    · rw [hend, List.append_nil]
      exact Text.touches_end source _
    · rw [h.text.scan, hscan, map_append_map, List.append_assoc]
      rfl
  unfold closed
  rw [hstart, hoffset, slice_eq h.split, h.cursor, withText_eq h.text.split h.text.start, ← hoffset]
  exact ⟨_, rfl, .text haligned, le_rfl⟩

/-- Outside of strings marks and parentheses open and close, and the parenthesis of the reference ends it. -/
theorem goes_bodyRound {byte : UInt8} (h : ProbeAligned source cursor probe none front content passed back)
    (hseen : Text.Sees source probe.offset byte (front ++ content ++ ['$', '('] ++ passed) back) :
    Goes source probe.offset (bodyRound source cursor probe byte) := by
  unfold bodyRound
  show Goes _ _ (if _ then _ else if _ then _ else if _ then _ else _)
  cases hseen with
  | inside hshows htouches =>
      rw [if_neg (not_or.2 ⟨hshows.ne (by decide), hshows.ne (by decide)⟩), if_neg (hshows.ne (by decide)),
        if_neg (hshows.ne (by decide))]
      exact h.goes htouches
  | @character c rest hoffset hshows htouches =>
      have hmark : (byte = '\''.toUInt8 ∨ byte = '"'.toUInt8) ↔ IsMark c := by
        rw [hshows _ (by decide), hshows _ (by decide), Option.some_inj, Option.some_inj]
        rfl
      have hopen := hshows '(' (by decide)
      have hclose := hshows ')' (by decide)
      rw [Option.some_inj] at hopen hclose
      obtain ⟨offset, depth, quoted⟩ := probe
      obtain rfl : quoted = none := h.quoted
      obtain ⟨depth, rfl⟩ := Nat.exists_eq_succ_of_ne_zero h.depth.ne'
      split
      · next heq =>
        have hc := hmark.1 heq
        obtain rfl : byte = c.toUInt8 := (hshows c hc.toNat_lt).2 rfl
        refine h.goes_of_next? htouches (next?_opening_mark _ hc) (Nat.le_succ _) fun other hother ↦ ?_
        cases hother
        exact hc
      · next hplain =>
        split
        · next heq =>
          obtain rfl := hopen.1 heq
          exact h.goes_of_next? htouches (next?_opening _) le_rfl nofun
        · next hnotOpen =>
          split
          · next heq =>
            obtain rfl := hclose.1 heq
            show Goes _ _ (if _ then _ else _)
            split
            · next hzero => exact h.goes_closed (congrArg Nat.succ hzero) hoffset
            · next hdeep =>
              obtain ⟨depth, rfl⟩ := Nat.exists_eq_succ_of_ne_zero hdeep
              exact h.goes_of_next? htouches (next?_closing _) (Nat.le_succ_of_le (Nat.le_succ _)) nofun
          · next hnotClose =>
            exact h.goes_of_next? htouches (next?_in_body _ (fun hc ↦ hnotOpen (hopen.2 hc))
              (fun hc ↦ hnotClose (hclose.2 hc)) fun hc ↦ hplain (hmark.2 hc)) (Nat.le_succ _) nofun

/-- A round inside of a reference does not fail, keeps the alignment and moves on. -/
theorem goes_probeRound (h : ProbeAligned source cursor probe quote front content passed back) :
    Goes source probe.offset (probeRound source cursor probe) := by
  unfold probeRound
  by_cases hend : source.utf8ByteSize ≤ probe.offset
  · rw [if_pos hend]
    exact ⟨_, rfl, h.segments_end hend ▸ .returned, trivial⟩
  · obtain ⟨byte, hbyte, hseen⟩ := h.touches.look h.split (Nat.lt_of_not_le hend)
    rw [if_neg hend, byteAt_eq hbyte, h.quoted]
    cases quote with
    | none => exact h.goes_bodyRound hseen
    | some mark => exact h.goes_stringRound hseen

end ProbeAligned

/-- The probe passes the parenthesis of its reference. -/
theorem TextAligned.goes_opening (h : TextAligned source cursor front content ('$' :: '(' :: rest))
    (hcursor : cursor.offset = String.utf8Len (front ++ content)) :
    cursor.offset + 1 < source.utf8ByteSize ∧
      Goes source (cursor.offset + 1) (probeRound source cursor ⟨cursor.offset + 1, 0, none⟩) := by
  have hsplit : source.toList = front ++ content ++ ['$'] ++ '(' :: rest := by simp [h.split]
  have hoffset : String.utf8Len (front ++ content ++ ['$']) = cursor.offset + 1 := by
    rw [String.utf8Len_append, hcursor]
    rfl
  obtain ⟨byte, hbyte, hshows, htouches⟩ := Text.exists_byte hsplit
  rw [hoffset] at hbyte htouches
  have hlt : cursor.offset + 1 < source.utf8ByteSize := (List.getElem?_eq_some_iff.1 hbyte).1
  obtain rfl : byte = '('.toUInt8 := (hshows '(' (by decide)).2 rfl
  refine ⟨hlt, ?_⟩
  unfold probeRound
  rw [if_neg (Nat.not_le.2 hlt), byteAt_eq hbyte]
  have haligned : ProbeAligned source cursor ⟨cursor.offset + 1 + 1, 1, none⟩ none front content [] rest := by
    refine ⟨h, hcursor, Nat.one_pos, Nat.succ_pos _, nofun, rfl, ?_, ?_⟩
    · simpa using htouches
    · show splitBody .opening rest = (splitBody .opening rest).map id
      rw [Option.map_id, id]
  exact ⟨_, rfl, .reference haligned, le_rfl⟩

end

/-! ## Runs -/

section
variable {source : String} {control : Control}

/-- A run that has come to an offset has come to those in front of it. -/
theorem Control.HasPassed.mono {first second : Nat} (h : control.HasPassed second) (hle : first ≤ second) :
    control.HasPassed first := by
  cases control with
  | text | reference => exact hle.trans h
  | returned => trivial

/-- A round does not fail, keeps the alignment and moves on. -/
theorem Aligned.next_eq (h : Aligned source control) : ∃ following, next source control = .ok following ∧
    Aligned source following ∧ ∀ offset, control.HasPassed offset → following.HasPassed (offset + 1) := by
  have hgoes {offset : Nat} {round : Except Abort Control} (h : Goes source offset round) :
      ∃ following, round = .ok following ∧ Aligned source following ∧
        ∀ other, other ≤ offset → following.HasPassed (other + 1) := by
    obtain ⟨following, hround, haligned, hpassed⟩ := h
    exact ⟨following, hround, haligned, fun _ hle ↦ hpassed.mono (Nat.succ_le_succ hle)⟩
  cases h with
  | text h => exact hgoes h.goes_textRound
  | opening h hcursor => exact hgoes (h.goes_opening hcursor).2
  | reference h => exact hgoes h.goes_probeRound
  | @exhausted _ probe _ _ _ h hrest hprobe =>
      have hend : source.utf8ByteSize ≤ probe.offset := hprobe ▸ Nat.le_succ _
      refine ⟨.returned (.error .unterminated), if_pos hend, ?_, fun _ _ ↦ trivial⟩
      exact h.segments_unterminated hrest ▸ .returned
  | returned => exact ⟨_, rfl, .returned, fun _ _ ↦ trivial⟩

/-- At the end of the template a round ends the run with the segments of the template. -/
theorem Aligned.next_end (h : Aligned source control) (hend : control.HasPassed source.utf8ByteSize) :
    next source control = .ok (.returned (segments source)) := by
  cases h with
  | text h => exact h.textRound_end hend
  | opening h hcursor => exact absurd hend (Nat.not_le.2 (h.goes_opening hcursor).1)
  | reference h =>
      rw [h.segments_end hend]
      exact if_pos hend
  | exhausted h hrest =>
      rw [h.segments_unterminated hrest]
      exact if_pos hend
  | returned => rfl

/-- No offset and no number of parentheses exceeds the limit. -/
def Control.Within (limit : Nat) : Control → Prop
  | .text cursor => cursor.textStart ≤ limit ∧ cursor.offset ≤ limit
  | .reference cursor probe =>
    cursor.textStart ≤ limit ∧ cursor.offset ≤ limit ∧ probe.offset ≤ limit ∧ probe.depth ≤ limit
  | .returned _ => True

/-- The offsets of the cursor are in the template. -/
theorem TextAligned.le_size {cursor : Cursor} {front content rest : List Char}
    (h : TextAligned source cursor front content rest) :
    cursor.textStart ≤ source.utf8ByteSize ∧ cursor.offset ≤ source.utf8ByteSize := by
  refine ⟨?_, h.touches.le_size h.split⟩
  rw [h.start, Text.utf8ByteSize_eq h.split, String.utf8Len_append, Nat.add_assoc]
  exact Nat.le_add_right _ _

/-- An aligned run counts no further than to the offset behind the end. -/
theorem Aligned.within (h : Aligned source control) : control.Within (source.utf8ByteSize + 1) := by
  cases h with
  | text h => exact ⟨Nat.le_succ_of_le h.le_size.1, Nat.le_succ_of_le h.le_size.2⟩
  | opening h =>
      exact ⟨Nat.le_succ_of_le h.le_size.1, Nat.le_succ_of_le h.le_size.2, Nat.succ_le_succ h.le_size.2,
        Nat.zero_le _⟩
  | reference h =>
      obtain ⟨hstart, hoffset⟩ := h.text.le_size
      have hprobe := h.touches.le_size h.split
      exact ⟨Nat.le_succ_of_le hstart, Nat.le_succ_of_le hoffset, Nat.le_succ_of_le hprobe,
        Nat.le_succ_of_le (h.depth_le.trans hprobe)⟩
  | exhausted h _ hprobe hdepth =>
      obtain ⟨hstart, hoffset⟩ := h.le_size
      exact ⟨Nat.le_succ_of_le hstart, Nat.le_succ_of_le hoffset, hprobe.le, hdepth.trans hprobe.le⟩
  | returned => trivial

/-- After any number of rounds a run is aligned, and each of them has moved it on. -/
theorem run_aligned (source : String) (rounds : Nat) :
    ∃ control, run source rounds = .ok control ∧ Aligned source control ∧ control.HasPassed rounds := by
  induction rounds with
  | zero =>
      have haligned : TextAligned source ⟨[], 0, 0⟩ [] [] source.toList := by
        refine ⟨rfl, rfl, Text.touches_end source [], ?_⟩
        show segments source = (segments source).map ([] ++ ·)
        cases segments source <;> rfl
      exact ⟨start, rfl, .text haligned, Nat.zero_le _⟩
  | succ rounds ih =>
      obtain ⟨control, hrun, haligned, hpassed⟩ := ih
      obtain ⟨following, hnext, hfollowing, hmoves⟩ := haligned.next_eq
      refine ⟨following, ?_, hfollowing, hmoves rounds hpassed⟩
      rw [run, hrun]
      exact hnext

/-- No round of a run fails: every byte that is looked at is there, no parenthesis is closed that is not open,
and texts are cut out between offsets in order at boundaries of characters, although the cursors themselves may
stand inside of characters.  No number in a run exceeds the number of bytes by more than one, and in one round
more than there are bytes the run ends with the segments of the template. -/
theorem run_eq_segments (source : String) :
    (∀ rounds, ∃ control, run source rounds = .ok control ∧ control.Within (source.utf8ByteSize + 1)) ∧
    run source (source.utf8ByteSize + 1) = .ok (.returned (segments source)) := by
  constructor
  · intro rounds
    obtain ⟨control, hrun, haligned, -⟩ := run_aligned source rounds
    exact ⟨control, hrun, haligned.within⟩
  · obtain ⟨control, hrun, haligned, hpassed⟩ := run_aligned source source.utf8ByteSize
    rw [run, hrun]
    exact haligned.next_end hpassed

end

/-- The probe is taken into the middle of the character behind the backslash, where no text can be cut. -/
example : run "$(\"\\é\")" 4 = .ok (.reference ⟨[], 0, 0⟩ ⟨5, 1, some '"'.toUInt8⟩) ∧
    slice "$(\"\\é\")" 2 5 = .error (.slice 2 5) := by
  decide

end Bytewise

end Invocation.Template
