import Invocation.Text.Blank
import Mathlib.Data.List.Basic

/-!
# Texts with places for tokens

A stencil is a text in which some places are left for tokens.  `Stencil.Fills stencil tokens text` says
that `text` is the stencil with the tokens in its places, in order, so that the tokens stand in the text
one behind the other and do not overlap.  Stencils are put together, joined with separators and trimmed
like texts, and what fills them is then put together, joined and trimmed as well.
-/

namespace Invocation

/-- The characters of a text, with `none` for a place that is left for a token. -/
abbrev Stencil := List (Option Char)

namespace Stencil

/-- The stencil of a text without places. -/
def ofChars (cs : List Char) : Stencil :=
  cs.map some

/-- The number of places. -/
def places (stencil : Stencil) : Nat :=
  stencil.countP Option.isNone

/-- `Fills stencil tokens text` says that `text` is the stencil with the tokens in its places. -/
inductive Fills : Stencil → List (List Char) → List Char → Prop where
  | nil : Fills [] [] []
  | char (c : Char) {stencil : Stencil} {tokens : List (List Char)} {text : List Char} :
      Fills stencil tokens text → Fills (some c :: stencil) tokens (c :: text)
  | token (token : List Char) {stencil : Stencil} {tokens : List (List Char)} {text : List Char} :
      Fills stencil tokens text → Fills (none :: stencil) (token :: tokens) (token ++ text)

variable {stencil other : Stencil} {tokens others : List (List Char)} {text rest : List Char}

/-- Every place takes one token. -/
theorem Fills.places_eq (h : Fills stencil tokens text) : stencil.places = tokens.length := by
  unfold places
  induction h with
  | nil => rfl
  | char c _ ih => simpa using ih
  | token token _ ih => simpa using ih

/-- A text without places fills its own stencil. -/
theorem fills_ofChars (cs : List Char) : Fills (ofChars cs) [] cs := by
  induction cs with
  | nil => exact .nil
  | cons c rest ih => exact .char c ih

/-- A token fills a single place. -/
theorem fills_token (token : List Char) : Fills [none] [token] token := by
  have h : Fills [none] [token] (token ++ []) := .token token .nil
  rwa [List.append_nil] at h

/-- Stencils behind each other are filled one after the other. -/
theorem Fills.append (h : Fills stencil tokens text) (hrest : Fills other others rest) :
    Fills (stencil ++ other) (tokens ++ others) (text ++ rest) := by
  induction h with
  | nil => exact hrest
  | char c _ ih => exact .char c ih
  | token token _ ih =>
      rw [List.append_assoc]
      exact .token token ih

/-- Text in front of a stencil. -/
theorem Fills.prepend (cs : List Char) (h : Fills stencil tokens text) :
    Fills (ofChars cs ++ stencil) tokens (cs ++ text) :=
  (fills_ofChars cs).append h

/-- A stencil is filled in the same way when it is read from its end. -/
theorem Fills.reverse (h : Fills stencil tokens text) :
    Fills stencil.reverse (tokens.map List.reverse).reverse text.reverse := by
  induction h with
  | nil => exact .nil
  | char c _ ih =>
      have hlast := ih.append (fills_ofChars [c])
      simpa [ofChars] using hlast
  | token token _ ih =>
      have hlast := ih.append (fills_token token.reverse)
      simpa using hlast

/-! ## Blanks -/

/-- The place holds a blank and not a token. -/
def isBlankPlace (place : Option Char) : Bool :=
  place.any Text.isBlank

/-- There is nothing but blanks, and no place for a token. -/
def isBlank (stencil : Stencil) : Bool :=
  stencil.all isBlankPlace

/-- The stencil without the blanks at either end. -/
def trim (stencil : Stencil) : Stencil :=
  ((stencil.dropWhile isBlankPlace).reverse.dropWhile isBlankPlace).reverse

/-- The first character is not a blank. -/
def StartsSolid (token : List Char) : Prop :=
  ∃ c rest, token = c :: rest ∧ Text.isBlank c = false

/-- Neither the first nor the last character is a blank. -/
structure Solid (token : List Char) : Prop where
  first : StartsSolid token
  last : StartsSolid token.reverse

/-- Blanks in front are taken away from the text, not from a token. -/
theorem Fills.trimFront (h : Fills stencil tokens text) (hsolid : ∀ token ∈ tokens, StartsSolid token) :
    Fills (stencil.dropWhile isBlankPlace) tokens (Text.trimFront text) := by
  unfold Text.trimFront
  induction h with
  | nil => exact .nil
  | char c hfills ih =>
      cases hblank : Text.isBlank c with
      | true => simpa [isBlankPlace, hblank] using ih hsolid
      | false => simpa [isBlankPlace, hblank] using hfills.char c
  | token token hfills ih =>
      obtain ⟨c, tail, rfl, hblank⟩ := hsolid token List.mem_cons_self
      simpa [isBlankPlace, hblank] using hfills.token (c :: tail)

/-- A filled stencil is trimmed like its text. -/
theorem Fills.trim (h : Fills stencil tokens text) (hsolid : ∀ token ∈ tokens, Solid token) :
    Fills stencil.trim tokens (Text.trimChars text) := by
  have hfront := (h.trimFront fun token hmem ↦ (hsolid token hmem).first).reverse
  have hback := hfront.trimFront fun token hmem ↦ by
    obtain ⟨original, horiginal, rfl⟩ := List.mem_map.1 (List.mem_reverse.1 hmem)
    exact (hsolid original horiginal).last
  simpa [Stencil.trim, Text.trimChars, Function.comp_def] using hback.reverse

/-- A filled stencil is blank exactly when its text is. -/
theorem Fills.isBlank_eq (h : Fills stencil tokens text) (hsolid : ∀ token ∈ tokens, Solid token) :
    stencil.isBlank = text.all Text.isBlank := by
  unfold isBlank
  induction h with
  | nil => rfl
  | char c _ ih =>
      rw [List.all_cons, List.all_cons, ih hsolid]
      rfl
  | token token _ ih =>
      obtain ⟨c, tail, rfl, hblank⟩ := (hsolid token List.mem_cons_self).first
      simp [isBlankPlace, hblank]

/-- A blank stencil has no places. -/
theorem Fills.tokens_eq_nil (h : Fills stencil tokens text) (hblank : stencil.isBlank = true) :
    tokens = [] := by
  induction h with
  | nil => rfl
  | char c _ ih =>
      unfold isBlank at hblank ih
      rw [List.all_cons, Bool.and_eq_true] at hblank
      exact ih hblank.2
  | token token _ ih => cases hblank

/-! ## Several stencils -/

/-- `FillsAll stencils tokens texts` says that each text is a stencil with its share of the tokens. -/
inductive FillsAll : List Stencil → List (List Char) → List (List Char) → Prop where
  | nil : FillsAll [] [] []
  | cons {stencil : Stencil} {stencils : List Stencil} {tokens others : List (List Char)}
      {text : List Char} {texts : List (List Char)} :
      Fills stencil tokens text → FillsAll stencils others texts →
      FillsAll (stencil :: stencils) (tokens ++ others) (text :: texts)

variable {stencils : List Stencil} {texts : List (List Char)}

/-- Texts without places fill their own stencils. -/
theorem FillsAll.prepend (words : List (List Char)) (h : FillsAll stencils tokens texts) :
    FillsAll (words.map ofChars ++ stencils) tokens (words ++ texts) := by
  induction words with
  | nil => exact h
  | cons word _ ih => exact .cons (fills_ofChars word) ih

/-- Filled stencils are joined like their texts. -/
theorem FillsAll.intercalate (separator : List Char) (h : FillsAll stencils tokens texts) :
    Fills ((ofChars separator).intercalate stencils) tokens (separator.intercalate texts) := by
  induction h with
  | nil => exact .nil
  | cons hfills hrest ih =>
      cases hrest with
      | nil => simpa using hfills
      | cons hsecond hothers =>
          have hjoined := hfills.append (ih.prepend separator)
          simpa using hjoined

/-- Filled stencils that are not blank are trimmed like their texts; no token is lost. -/
theorem FillsAll.words (h : FillsAll stencils tokens texts) (hsolid : ∀ token ∈ tokens, Solid token) :
    FillsAll ((stencils.filter fun stencil ↦ !stencil.isBlank).map trim) tokens
      ((texts.filter fun text ↦ !text.all Text.isBlank).map Text.trimChars) := by
  induction h with
  | nil => exact .nil
  | @cons stencil stencils tokens others text texts hfills _ ih =>
      have hfirst : ∀ token ∈ tokens, Solid token := fun token hmem ↦
        hsolid token (List.mem_append_left others hmem)
      have hrest := ih fun token hmem ↦ hsolid token (List.mem_append_right tokens hmem)
      have hblank := hfills.isBlank_eq hfirst
      cases h : stencil.isBlank with
      | true =>
          -- a blank stencil is left out together with its text, and takes no tokens with it
          rw [h] at hblank
          rw [hfills.tokens_eq_nil h]
          simpa [h, ← hblank] using hrest
      | false =>
          rw [h] at hblank
          simpa [h, ← hblank] using FillsAll.cons (hfills.trim hfirst) hrest

end Stencil

end Invocation
