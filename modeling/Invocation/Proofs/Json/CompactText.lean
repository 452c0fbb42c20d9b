import Invocation.Json.Reader
import Invocation.Json.Writer
import Invocation.Proofs.Json.Members
import Mathlib.Tactic.IntervalCases

/-!
# The compact text of a value

A string is read back from its text, whatever follows it, so a text shows where the strings in it end.  The
order of the members of an object can therefore be told from the text: two values that are equal up to this
order have the same text only if they are equal.
-/

namespace Invocation

namespace Json

/-! ## Strings -/

/-- The four digits of a control character are read back. -/
theorem readHexFour_hexFour {n : Nat} (h : n < 32) (rest : List Char) :
    readHexFour (hexFour n ++ rest) = .ok (n, rest) := by
  interval_cases n <;> rfl

/-- A control character is read back from its digits. -/
theorem readUnicode_hexFour {c : Char} (h : c.toNat < 32) (rest : List Char) :
    readUnicode (hexFour c.toNat ++ rest) = .ok (c, rest) := by
  have hhigh : isHighSurrogate c.toNat = false := by
    simp only [isHighSurrogate, Bool.and_eq_false_iff, decide_eq_false_iff_not]
    omega
  have hlow : isLowSurrogate c.toNat = false := by
    simp only [isLowSurrogate, Bool.and_eq_false_iff, decide_eq_false_iff_not]
    omega
  simp [readUnicode, readHexFour_hexFour h, bind, Except.bind, hhigh, hlow, Char.ofNat_toNat]

/-- A character stands for itself, or an escape does that is read back. -/
theorem escapeChar_cases (c : Char) :
    (escapeChar c = [c] ∧ c ≠ '"' ∧ c ≠ '\\' ∧ 32 ≤ c.toNat) ∨
      ∃ escape, escapeChar c = '\\' :: escape ∧
        ∀ rest, readEscape (escape ++ rest) = .ok (c, rest) := by
  unfold escapeChar
  split_ifs with hquote hbackslash hn hr ht hb hf hcontrol
  · exact .inr ⟨_, rfl, fun rest ↦ by rw [hquote]; rfl⟩
  · exact .inr ⟨_, rfl, fun rest ↦ by rw [hbackslash]; rfl⟩
  · exact .inr ⟨_, rfl, fun rest ↦ by rw [hn]; rfl⟩
  · exact .inr ⟨_, rfl, fun rest ↦ by rw [hr]; rfl⟩
  · exact .inr ⟨_, rfl, fun rest ↦ by rw [ht]; rfl⟩
  · exact .inr ⟨_, rfl, fun rest ↦ by rw [hb]; rfl⟩
  · exact .inr ⟨_, rfl, fun rest ↦ by rw [hf]; rfl⟩
  · exact .inr ⟨_, rfl, readUnicode_hexFour hcontrol⟩
  · exact .inl ⟨rfl, hquote, hbackslash, Nat.le_of_not_lt hcontrol⟩

/-- The characters of a string are read back, up to the quote that closes them. -/
theorem readString_flatMap_escapeChar (cs done rest : List Char) {fuel : Nat} (h : cs.length < fuel) :
    readString fuel done (cs.flatMap escapeChar ++ '"' :: rest) =
      .ok (String.ofList (done.reverse ++ cs), rest) := by
  induction cs generalizing done fuel with
  | nil =>
      cases fuel with
      | zero => omega
      | succ fuel => simp [readString]
  | cons c cs ih =>
      cases fuel with
      | zero => omega
      | succ fuel =>
          have hfuel : cs.length < fuel := by simpa using h
          have hrest := ih (c :: done) hfuel
          rw [List.reverse_cons, List.append_assoc, List.singleton_append] at hrest
          rw [List.flatMap_cons, List.append_assoc]
          rcases escapeChar_cases c with ⟨hself, hquote, hbackslash, hcontrol⟩ | ⟨escape, hescape, hread⟩
          · rw [hself, List.singleton_append, readString, if_neg (by omega), hrest]
            · simpa using hquote
            · simpa using hbackslash
          · rw [hescape, List.cons_append, readString, hread]
            exact hrest

/-- The text of a string tells the string and where its text ends. -/
theorem stringText_append_inj {first second rest tail : String}
    (h : stringText first ++ rest = stringText second ++ tail) : first = second ∧ rest = tail := by
  have hchars := congrArg String.toList h
  simp only [stringText, String.toList_append, String.toList_ofList, List.cons_append, List.append_assoc,
    List.nil_append, List.cons.injEq, true_and] at hchars
  have hfuel : first.toList.length < first.toList.length + second.toList.length + 1 := by omega
  have hfuel' : second.toList.length < first.toList.length + second.toList.length + 1 := by omega
  have hfirst := readString_flatMap_escapeChar first.toList [] rest.toList hfuel
  rw [hchars, readString_flatMap_escapeChar second.toList [] tail.toList hfuel'] at hfirst
  simpa [eq_comm, String.toList_inj] using hfirst

/-! ## Values -/

/-- Where the first texts tell what they write (`P`) and where they end, joined texts do and go on with the
texts that are left. -/
theorem intercalate_cons_append_inj {P : Prop} {text other rest tail : String} {texts others : List String}
    (hnil : texts = [] ↔ others = []) (htext : ∀ r t, text ++ r = other ++ t → P ∧ r = t)
    (h : String.intercalate "," (text :: texts) ++ rest =
      String.intercalate "," (other :: others) ++ tail) :
    P ∧ String.intercalate "," texts ++ rest = String.intercalate "," others ++ tail := by
  cases texts with
  | nil =>
      obtain rfl := hnil.1 rfl
      simpa using htext rest tail (by simpa using h)
  | cons second texts =>
      cases others with
      | nil => cases hnil.2 rfl
      | cons following others =>
          rw [String.intercalate_cons_cons, String.intercalate_cons_cons, String.append_assoc,
            String.append_assoc, String.append_assoc, String.append_assoc] at h
          obtain ⟨hP, hrest⟩ := htext _ _ h
          exact ⟨hP, (String.append_right_inj _).1 hrest⟩

/-- The joined texts of items tell the items, when each of their texts does. -/
theorem eq_of_compactItems {items others : List Json} (hsame : List.Forall₂ Same items others)
    (hitems : ∀ item ∈ items, ∀ other, Same item other → ∀ rest tail,
      item.compact ++ rest = other.compact ++ tail → item = other ∧ rest = tail)
    {rest tail : String}
    (h : String.intercalate "," (compactItems items) ++ rest =
      String.intercalate "," (compactItems others) ++ tail) : items = others ∧ rest = tail := by
  induction hsame with
  | nil => simpa [compactItems] using h
  | @cons item other items others hitem hrest ih =>
      have hnil : compactItems items = [] ↔ compactItems others = [] := by
        cases hrest <;> simp [compactItems]
      obtain ⟨rfl, htexts⟩ :=
        intercalate_cons_append_inj hnil (hitems item List.mem_cons_self other hitem) h
      obtain ⟨rfl, hends⟩ := ih (fun item hmem ↦ hitems item (.tail _ hmem)) htexts
      exact ⟨rfl, hends⟩

/-- Each member has a text. -/
@[simp]
theorem length_compactMembers (members : Entries Json) :
    (compactMembers members).length = members.length := by
  induction members with
  | nil => rfl
  | cons member rest ih => simp [compactMembers, ih]

/-- The joined texts of members tell the members and their order, when each text of a value tells the
value. -/
theorem eq_of_compactMembers {members others : Entries Json} (hkeys : members.keys.Perm others.keys)
    (hsame : ∀ key value found, (key, value) ∈ members → (key, found) ∈ others → Same value found)
    (hvalues : ∀ member ∈ members, ∀ other, Same member.2 other → ∀ rest tail,
      member.2.compact ++ rest = other.compact ++ tail → member.2 = other ∧ rest = tail)
    {rest tail : String}
    (h : String.intercalate "," (compactMembers members) ++ rest =
      String.intercalate "," (compactMembers others) ++ tail) : members = others ∧ rest = tail := by
  induction members generalizing others with
  | nil =>
      obtain rfl : others = [] := List.map_eq_nil_iff.1 (List.nil_perm.1 hkeys)
      simpa [compactMembers] using h
  | cons member members ih =>
      cases others with
      | nil => cases List.perm_nil.1 hkeys
      | cons other others =>
          obtain ⟨key, value⟩ := member
          obtain ⟨name, found⟩ := other
          have hlength : members.length = others.length := by simpa [Entries.keys] using hkeys.length_eq
          have hnil : compactMembers members = [] ↔ compactMembers others = [] := by
            rw [← List.length_eq_zero_iff, length_compactMembers, hlength, ← length_compactMembers,
              List.length_eq_zero_iff]
          -- the first texts tell the first keys, and these whose values are written behind them
          have hfirst : ∀ r t, stringText key ++ ":" ++ value.compact ++ r =
              stringText name ++ ":" ++ found.compact ++ t → (key, value) = (name, found) ∧ r = t := by
            intro r t htext
            simp only [String.append_assoc] at htext
            obtain ⟨rfl, hbehind⟩ := stringText_append_inj htext
            have hvalue := hsame key value found List.mem_cons_self List.mem_cons_self
            obtain ⟨rfl, hends⟩ := hvalues _ List.mem_cons_self found hvalue r t
              ((String.append_right_inj _).1 hbehind)
            exact ⟨rfl, hends⟩
          obtain ⟨hmember, htexts⟩ := intercalate_cons_append_inj hnil hfirst h
          obtain ⟨rfl, rfl⟩ := Prod.mk.inj hmember
          obtain ⟨rfl, hends⟩ := ih hkeys.cons_inv
            (fun key value found hmem hfound ↦ hsame key value found (.tail _ hmem) (.tail _ hfound))
            (fun member hmem ↦ hvalues member (.tail _ hmem)) htexts
          exact ⟨rfl, hends⟩

/-- The text of a value tells the value and where it ends, among the values that are equal up to the order
of members. -/
theorem Same.eq_of_compact_append {value other : Json} (hsame : Same value other)
    (hkeys : value.HasUniqueKeys) {rest tail : String}
    (h : value.compact ++ rest = other.compact ++ tail) : value = other ∧ rest = tail := by
  induction value using Json.induction generalizing other rest tail with
  | array items ih =>
      cases hsame with
      | refl => exact ⟨rfl, (String.append_right_inj _).1 h⟩
      | array hitems =>
          rw [compact, compact, String.append_assoc, String.append_assoc, String.append_assoc,
            String.append_assoc] at h
          obtain ⟨rfl, hrest⟩ := eq_of_compactItems hitems
            (fun item hmem other hitem rest tail ↦ ih item hmem hitem (hkeys.of_mem_items hmem))
            ((String.append_right_inj _).1 h)
          exact ⟨rfl, (String.append_right_inj _).1 hrest⟩
  | object members ih =>
      cases hsame with
      | refl => exact ⟨rfl, (String.append_right_inj _).1 h⟩
      | object hmembers =>
          rw [compact, compact, String.append_assoc, String.append_assoc, String.append_assoc,
            String.append_assoc] at h
          obtain ⟨rfl, hrest⟩ := eq_of_compactMembers hmembers.perm_keys
            (fun key value found ↦ hmembers.rel_of_mem hkeys.nodup)
            (fun member hmem other hmember rest tail ↦ ih member hmem hmember (hkeys.of_mem_members hmem))
            ((String.append_right_inj _).1 h)
          exact ⟨rfl, (String.append_right_inj _).1 hrest⟩
  | _ =>
      cases hsame
      exact ⟨rfl, (String.append_right_inj _).1 h⟩

/-- Values that are equal up to the order of members have the same text only if they are equal. -/
theorem Same.eq_of_compact {value other : Json} (hsame : Same value other) (hkeys : value.HasUniqueKeys)
    (h : value.compact = other.compact) : value = other := by
  have h : value.compact ++ "" = other.compact ++ "" := by rw [h]
  exact (hsame.eq_of_compact_append hkeys h).1

end Json

end Invocation
