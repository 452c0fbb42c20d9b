import Mathlib.Data.String.Basic
import Mathlib.Data.Nat.Basic

/-!
# The order of texts by their bytes

Texts are compared by their characters.  Since a larger character has a larger encoding, and none is the
beginning of another, this is also the order of the UTF-8 bytes (`bytes_lt_of_lt`).
-/

namespace Invocation.Text

/-- The UTF-8 bytes of a text. -/
def bytes (text : String) : List UInt8 :=
  text.toUTF8.data.toList

/-- The bytes of a text are those of its characters. -/
theorem bytes_eq_flatMap (text : String) :
    bytes text = text.toList.flatMap String.utf8EncodeChar := by
  have h : text.toUTF8 = text.toList.utf8Encode := by
    rw [String.toUTF8_eq_toByteArray, String.utf8Encode_toList]
  unfold bytes
  rw [h, List.utf8Encode]
  simp

/-- Two bytes decide an order, unless they are equal. -/
theorem lex_byte {a b : Nat} {as bs : List UInt8} (hle : a ≤ b) (hb : b < 256)
    (h : a = b → List.Lex (· < ·) as bs) :
    List.Lex (· < ·) (UInt8.ofNat a :: as) (UInt8.ofNat b :: bs) := by
  rcases Nat.lt_or_eq_of_le hle with hlt | rfl
  · refine .rel ?_
    have ha : a < UInt8.size := hlt.trans hb
    rwa [UInt8.lt_iff_toNat_lt, UInt8.toNat_ofNat_of_lt' ha, UInt8.toNat_ofNat_of_lt' hb]
  · exact .cons (h rfl)

/-- The bytes of a smaller character come before those of a larger one, whatever follows them. -/
theorem lex_utf8EncodeChar {c d : Char} (h : c < d) (cs ds : List UInt8) :
    List.Lex (· < ·) (String.utf8EncodeChar c ++ cs) (String.utf8EncodeChar d ++ ds) := by
  have hlt : c.val.toNat < d.val.toNat := h
  have hd : d.val.toNat < 0x110000 := by
    rcases d.valid with hvalid | hvalid
    · have : d.val.toNat < 0xd800 := hvalid
      omega
    · exact hvalid.2
  unfold String.utf8EncodeChar
  dsimp only
  generalize c.val.toNat = m at hlt ⊢
  generalize d.val.toNat = n at hlt hd ⊢
  split_ifs
  -- where the lengths differ the first bytes decide, else the first bytes that are not equal
  all_goals try omega
  all_goals simp only [List.cons_append, List.nil_append]
  all_goals refine lex_byte (by omega) (by omega) fun _ ↦ ?_
  all_goals try omega
  all_goals refine lex_byte (by omega) (by omega) fun _ ↦ ?_
  all_goals try omega
  all_goals refine lex_byte (by omega) (by omega) fun _ ↦ ?_
  all_goals try omega
  all_goals refine lex_byte (by omega) (by omega) fun _ ↦ ?_
  all_goals try omega

/-- The bytes of smaller characters come before those of larger ones. -/
theorem lex_flatMap_utf8EncodeChar {cs ds : List Char} (h : List.Lex (· < ·) cs ds) :
    List.Lex (· < ·) (cs.flatMap String.utf8EncodeChar) (ds.flatMap String.utf8EncodeChar) := by
  induction h with
  | @nil c rest =>
      rw [List.flatMap_nil, List.flatMap_cons]
      have hlength : 0 < (String.utf8EncodeChar c).length := by
        rw [String.length_utf8EncodeChar]
        exact c.utf8Size_pos
      obtain ⟨byte, bytes, hbytes⟩ := List.exists_cons_of_length_pos hlength
      rw [hbytes]
      exact .nil
  | @rel c rest d others h =>
      rw [List.flatMap_cons, List.flatMap_cons]
      exact lex_utf8EncodeChar h _ _
  | @cons c rest others _ ih =>
      rw [List.flatMap_cons, List.flatMap_cons]
      exact ih.append_left _ _

/-- A smaller text has smaller bytes. -/
theorem bytes_lt_of_lt {first second : String} (h : first < second) :
    List.Lex (· < ·) (bytes first) (bytes second) := by
  rw [bytes_eq_flatMap, bytes_eq_flatMap]
  exact lex_flatMap_utf8EncodeChar h

end Invocation.Text
