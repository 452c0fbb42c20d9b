/-!
# TOML strings

`stringText` writes a string in the plainest form that it fits: between double quotation marks without
escapes, between single ones, between three double or three single ones, and only then with escapes.  A
form with three quotation marks starts on a new line when the string has several lines.
-/

namespace Invocation.Toml

/-- The forms of a string: with or without escapes, on one line or on several. -/
inductive StringForm where
  | basic
  | literal
  | multilineBasic
  | multilineLiteral
  deriving DecidableEq, Inhabited

namespace StringForm

/-- The marks around a string of this form. -/
def delimiter : StringForm → String
  | basic => "\""
  | literal => "'"
  | multilineBasic => "\"\"\""
  | multilineLiteral => "'''"

/-- The form may hold line breaks. -/
def isMultiline : StringForm → Bool
  | basic => false
  | literal => false
  | multilineBasic => true
  | multilineLiteral => true

end StringForm

/-- The longest run of a character; `current` is the length of the run in front and `best` that of the
longest one so far. -/
def longestRun (c : Char) (current best : Nat) : List Char → Nat
  | [] => max current best
  | d :: rest =>
    if d = c then longestRun c (current + 1) best rest else longestRun c 0 (max current best) rest

/-- The character cannot stand in a literal string. -/
def needsCode (c : Char) : Bool :=
  (c.toNat < 32 && c != '\t' && c != '\n') || c == '\x7f'

/-- The form in which a string is written. -/
def formOf (cs : List Char) : StringForm :=
  let codes := cs.any needsCode
  let slash := cs.contains '\\'
  let lines := cs.contains '\n'
  let doubles := longestRun '"' 0 0 cs
  let singles := longestRun '\'' 0 0 cs
  if !codes && !slash && doubles == 0 && !lines then .basic
  else if !codes && singles == 0 && !lines then .literal
  else if !codes && !slash && doubles ≤ 2 then .multilineBasic
  else if !codes && singles ≤ 2 then .multilineLiteral
  else if lines then .multilineBasic
  else .basic

/-- Hexadecimal digits in upper case, filled up to a width. -/
def codeDigits (width n : Nat) : List Char :=
  let digits := (Nat.toDigits 16 n).map Char.toUpper
  List.replicate (width - digits.length) '0' ++ digits

/-- The characters that stand for one character other than a quotation mark. -/
def escaped (lines : Bool) (c : Char) : List Char :=
  if c = '\\' then ['\\', '\\']
  else if c = '\x08' then ['\\', 'b']
  else if c = '\t' then ['\\', 't']
  else if c = '\n' then if lines then ['\n'] else ['\\', 'n']
  else if c = '\x0c' then ['\\', 'f']
  else if c = '\r' then ['\\', 'r']
  else if needsCode c then ['\\', 'u'] ++ codeDigits 4 c.toNat
  else [c]

/-- The characters of a string with escapes.  On several lines at most two quotation marks in a row stand
as they are; `run` of them have been written. -/
def escapedFrom (lines : Bool) (run : Nat) : List Char → List Char
  | [] => []
  | '"' :: rest =>
    if (if lines then 2 else 0) ≤ run then '\\' :: '"' :: escapedFrom lines 0 rest
    else '"' :: escapedFrom lines (run + 1) rest
  | c :: rest => escaped lines c ++ escapedFrom lines 0 rest

/-- What stands between the marks of a form. -/
def contentText (form : StringForm) (cs : List Char) : List Char :=
  match form with
  | .literal => cs
  | .multilineLiteral => cs
  | form => escapedFrom form.isMultiline 0 cs

/-- The text of a string. -/
def stringText (s : String) : String :=
  let cs := s.toList
  let form := formOf cs
  let opening := if form.isMultiline && cs.contains '\n' then "\n" else ""
  form.delimiter ++ opening ++ String.ofList (contentText form cs) ++ form.delimiter

end Invocation.Toml
