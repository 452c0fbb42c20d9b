import Invocation.Proofs.Text.ByteOrder

/-!
# Byte offsets in a text

A cursor that moves on by single bytes stands behind a character or inside of one.  `Touches` says so without
a word of where characters begin: between the cursor and the end of the characters that it has come to, no
byte is that of an ASCII character.  What the cursor sees is such a byte, or the first byte of the next
character, which tells the ASCII characters apart (`Sees`).
-/

namespace Invocation.Text

/-! ## Bytes of characters -/

/-- The byte shows the character, or none: it is the byte of an ASCII character exactly when it shows it. -/
def Shows (byte : UInt8) (shown : Option Char) : Prop :=
  ∀ c : Char, c.toNat < 128 → (byte = c.toUInt8 ↔ shown = some c)

/-- A byte behind those of ASCII shows no character. -/
theorem shows_none {byte : UInt8} (h : 128 ≤ byte.toNat) : Shows byte none := by
  refine fun c hc ↦ ⟨fun heq ↦ ?_, nofun⟩
  have hbyte : byte.toNat = c.toNat % 256 := congrArg UInt8.toNat heq
  omega

/-- A byte that shows no character is not that of an ASCII character. -/
theorem Shows.ne {byte : UInt8} (h : Shows byte none) {c : Char} (hc : c.toNat < 128) : byte ≠ c.toUInt8 :=
  fun heq ↦ nomatch (h c hc).1 heq

/-- Such a byte shows any character that is not in ASCII. -/
theorem Shows.of_not_ascii {byte : UInt8} (h : Shows byte none) {c : Char} (hc : 128 ≤ c.toNat) :
    Shows byte (some c) := by
  refine fun d hd ↦ (h d hd).trans ⟨nofun, fun heq ↦ ?_⟩
  rw [Option.some.inj heq] at hc
  omega

/-- An ASCII character is its only byte. -/
theorem shows_ascii {c : Char} (h : c.toNat < 128) : Shows (UInt8.ofNat c.toNat) (some c) := by
  intro d hd
  have hbyte : (UInt8.ofNat c.toNat).toNat = c.toNat := UInt8.toNat_ofNat_of_lt' (h.trans (by decide))
  have hother : d.toUInt8.toNat = d.toNat := Nat.mod_eq_of_lt (hd.trans (by decide))
  rw [← UInt8.toNat_inj, hbyte, hother, Char.toNat_inj, Option.some_inj]

/-- The bytes of a character begin with one that shows it, and go on with bytes that show none. -/
theorem exists_utf8EncodeChar (c : Char) : ∃ byte rest, String.utf8EncodeChar c = byte :: rest ∧
    Shows byte (some c) ∧ ∀ other ∈ rest, Shows other none := by
  have hlarge {n : Nat} (h : 128 ≤ n) (hn : n < 256) : Shows (UInt8.ofNat n) none :=
    shows_none (by rwa [UInt8.toNat_ofNat_of_lt' hn])
  have hcontinued (n : Nat) : Shows (UInt8.ofNat (n % 64 + 128)) none := hlarge (by omega) (by omega)
  unfold String.utf8EncodeChar
  dsimp only
  split_ifs with hone htwo hthree
  · exact ⟨_, _, rfl, shows_ascii (Nat.lt_succ_of_le hone), nofun⟩
  · refine ⟨_, _, rfl, (hlarge (by omega) (by omega)).of_not_ascii (Nat.lt_of_not_le hone), ?_⟩
    exact List.forall_mem_singleton.2 (hcontinued _)
  · refine ⟨_, _, rfl, (hlarge (by omega) (by omega)).of_not_ascii (Nat.lt_of_not_le hone), ?_⟩
    exact List.forall_mem_cons.2 ⟨hcontinued _, List.forall_mem_singleton.2 (hcontinued _)⟩
  · refine ⟨_, _, rfl, (hlarge (by omega) (by omega)).of_not_ascii (Nat.lt_of_not_le hone), ?_⟩
    exact List.forall_mem_cons.2 ⟨hcontinued _,
      List.forall_mem_cons.2 ⟨hcontinued _, List.forall_mem_singleton.2 (hcontinued _)⟩⟩

/-! ## Cursors -/

/-- The encodings of characters have their sizes. -/
theorem length_flatMap_utf8EncodeChar (cs : List Char) :
    (cs.flatMap String.utf8EncodeChar).length = String.utf8Len cs := by
  induction cs with
  | nil => rfl
  | cons c cs ih =>
      rw [List.flatMap_cons, List.length_append, String.length_utf8EncodeChar, ih, String.utf8Len_cons,
        Nat.add_comm]

/-- The bytes of a text are those of its characters in front of an offset and behind it. -/
theorem utf8ByteSize_eq {text : String} {front back : List Char} (h : text.toList = front ++ back) :
    text.utf8ByteSize = String.utf8Len front + String.utf8Len back := by
  rw [← String.utf8Len_toList, h, String.utf8Len_append]

/-- Behind some characters the bytes are those of the characters that follow. -/
theorem getElem?_bytes {text : String} {front back : List Char} (h : text.toList = front ++ back) (k : Nat) :
    (bytes text)[String.utf8Len front + k]? = (back.flatMap String.utf8EncodeChar)[k]? := by
  rw [bytes_eq_flatMap, h, List.flatMap_append, ← length_flatMap_utf8EncodeChar front,
    List.getElem?_append_right (Nat.le_add_right _ _), Nat.add_sub_cancel_left]

/-- The cursor stands at the end of the characters, or inside of the last of them: no byte in front of the end
shows a character. -/
structure Touches (text : String) (cursor : Nat) (front : List Char) : Prop where
  le : cursor ≤ String.utf8Len front
  inside {k : Nat} : cursor ≤ k → k < String.utf8Len front →
    ∃ byte, (bytes text)[k]? = some byte ∧ Shows byte none

/-- A cursor stands at the end of the characters that it has passed. -/
theorem touches_end (text : String) (front : List Char) : Touches text (String.utf8Len front) front :=
  ⟨le_rfl, fun hle hlt ↦ absurd hlt (not_lt.2 hle)⟩

/-- A cursor is not behind the end of the text. -/
theorem Touches.le_size {text : String} {cursor : Nat} {front back : List Char} (h : Touches text cursor front)
    (hsplit : text.toList = front ++ back) : cursor ≤ text.utf8ByteSize := by
  rw [utf8ByteSize_eq hsplit]
  exact Nat.le_add_right_of_le h.le

/-- At the end of some characters the next one is shown, and a cursor that moves on touches its end. -/
theorem exists_byte {text : String} {front rest : List Char} {c : Char} (h : text.toList = front ++ c :: rest) :
    ∃ byte, (bytes text)[String.utf8Len front]? = some byte ∧ Shows byte (some c) ∧
      Touches text (String.utf8Len front + 1) (front ++ [c]) := by
  obtain ⟨byte, others, hencoded, hshows, hothers⟩ := exists_utf8EncodeChar c
  have hlength : (byte :: others).length = c.utf8Size := by
    rw [← hencoded, String.length_utf8EncodeChar]
  have hbytes (k : Nat) : (bytes text)[String.utf8Len front + k]? =
      (byte :: (others ++ rest.flatMap String.utf8EncodeChar))[k]? := by
    rw [getElem?_bytes h, List.flatMap_cons, hencoded, List.cons_append]
  have hend : String.utf8Len (front ++ [c]) = String.utf8Len front + (others.length + 1) := by
    rw [String.utf8Len_append, ← List.length_cons, hlength]
    simp
  refine ⟨byte, hbytes 0, hshows, ⟨by omega, fun {k} hle hlt ↦ ?_⟩⟩
  obtain ⟨offset, rfl⟩ := Nat.exists_eq_add_of_le hle
  have hoffset : offset < others.length := by omega
  refine ⟨others[offset], ?_, hothers _ (List.getElem_mem hoffset)⟩
  rw [Nat.add_assoc, hbytes, Nat.add_comm 1, List.getElem?_cons_succ, List.getElem?_append_left hoffset,
    List.getElem?_eq_getElem hoffset]

/-- What a cursor sees in front of the characters `back`: a byte that shows nothing, or one that shows the first
of them, which it passes when it moves on. -/
inductive Sees (text : String) (cursor : Nat) (byte : UInt8) (front : List Char) : List Char → Prop where
  | inside {back : List Char} (hshows : Shows byte none) (htouches : Touches text (cursor + 1) front) :
      Sees text cursor byte front back
  | character {c : Char} {rest : List Char} (hcursor : cursor = String.utf8Len front)
      (hshows : Shows byte (some c)) (htouches : Touches text (cursor + 1) (front ++ [c])) :
      Sees text cursor byte front (c :: rest)

/-- A cursor in front of the end sees a byte. -/
theorem Touches.look {text : String} {cursor : Nat} {front back : List Char} (h : Touches text cursor front)
    (hsplit : text.toList = front ++ back) (hcursor : cursor < text.utf8ByteSize) :
    ∃ byte, (bytes text)[cursor]? = some byte ∧ Sees text cursor byte front back := by
  rcases h.le.lt_or_eq with hlt | rfl
  · obtain ⟨byte, hbyte, hshows⟩ := h.inside le_rfl hlt
    exact ⟨byte, hbyte, .inside hshows ⟨hlt, fun hle ↦ h.inside (Nat.le_of_succ_le hle)⟩⟩
  · cases back with
    | nil =>
        rw [utf8ByteSize_eq hsplit] at hcursor
        exact absurd hcursor (lt_irrefl _)
    | cons c rest =>
        obtain ⟨byte, hbyte, hshows, htouches⟩ := exists_byte hsplit
        exact ⟨byte, hbyte, .character rfl hshows htouches⟩

/-- A cursor at the end of the text has passed all characters. -/
theorem Touches.eq_nil {text : String} {cursor : Nat} {front back : List Char} (h : Touches text cursor front)
    (hsplit : text.toList = front ++ back) (hcursor : text.utf8ByteSize ≤ cursor) :
    back = [] ∧ cursor = text.utf8ByteSize := by
  have hsize := utf8ByteSize_eq hsplit
  have hle := h.le
  refine ⟨String.utf8Len_eq_zero.1 ?_, ?_⟩ <;> omega

end Invocation.Text
