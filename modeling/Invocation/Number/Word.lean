/-!
# Machine words

The words of 64 and 128 bits, with and without a sign, in which whole numbers are held.  `clamp` brings a
number into the range of a word: one that fits stays as it is, any other becomes the nearer end.
-/

namespace Invocation

-- powers of whole numbers are those of the core library, also where other powers are known
attribute [default_instance 20000] instPowNat

/-- The words in which whole numbers are held. -/
inductive Word where
  | signed64
  | unsigned64
  | signed128
  | unsigned128
  deriving DecidableEq, Inhabited

namespace Word

/-- The least number of the word. -/
def least : Word → Int
  | signed64 => -2 ^ 63
  | unsigned64 => 0
  | signed128 => -2 ^ 127
  | unsigned128 => 0

/-- The greatest number of the word. -/
def greatest : Word → Int
  | signed64 => 2 ^ 63 - 1
  | unsigned64 => 2 ^ 64 - 1
  | signed128 => 2 ^ 127 - 1
  | unsigned128 => 2 ^ 128 - 1

/-- The word can hold the number. -/
def holds (word : Word) (n : Int) : Bool :=
  word.least ≤ n && n ≤ word.greatest

/-- The number of the word that is nearest to a number. -/
def clamp (word : Word) (n : Int) : Int :=
  max word.least (min word.greatest n)

/-- Numbers with a sign are held in 64 bits if they fit. -/
def ofSigned (n : Int) : Word :=
  if signed64.holds n then signed64 else signed128

/-- Numbers without a sign are held in 64 bits if they fit. -/
def ofUnsigned (n : Nat) : Word :=
  if unsigned64.holds n then unsigned64 else unsigned128

/-! ## Lemmas -/

/-- A number that fits stays as it is. -/
theorem clamp_eq_self {word : Word} {n : Int} (h : word.holds n = true) : word.clamp n = n := by
  simp only [holds, Bool.and_eq_true, decide_eq_true_eq] at h
  simp only [clamp]
  omega

/-- No word is empty. -/
theorem least_le_greatest (word : Word) : word.least ≤ word.greatest := by
  cases word <;> decide

/-- What comes out fits. -/
theorem holds_clamp (word : Word) (n : Int) : word.holds (word.clamp n) = true := by
  have h := least_le_greatest word
  rw [holds, Bool.and_eq_true]
  refine ⟨decide_eq_true ?_, decide_eq_true ?_⟩ <;> rw [clamp] <;> omega

end Word

end Invocation
