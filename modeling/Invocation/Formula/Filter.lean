import Invocation.Formula.Operation
import Invocation.Formula.Test
import Invocation.Job.Value
import Invocation.Number.Reading
import Invocation.Text.Blank
import Invocation.Text.Case

/-!
# Filters

The transformations that stand behind a bar: of texts, of numbers and of lists.  `Filter.simple` and `map` are
all that formulas know here.  Left out are the other filters that are built into the template language: `attr`,
`batch`, `chain`, `escape` and `e`, `format`, `groupby`, `indent`, `lines`, `pprint`, `rejectattr`, `safe`,
`selectattr`, `slice` and `zip`.  A formula with one of them may have a value in that language; here it has the
fault of an unknown filter.
-/

namespace Invocation.Formula

/-! ## Texts -/

namespace Filter

/-- A word starts behind the character. -/
def endsWord (c : Char) : Bool :=
  Text.isBlank c || (33 ≤ c.toNat && c.toNat ≤ 126 && !c.isAlphanum)

/-- Upper case at the start of each word, lower case elsewhere. -/
def titleChars (start : Bool) : List Char → List Char
  | [] => []
  | c :: rest =>
    if endsWord c then c :: titleChars true rest
    else (if start then Text.upperChar c else Text.lowerChar c) ++ titleChars false rest

/-- Upper case at the start of the text, lower case elsewhere. -/
def capitalize (text : String) : String :=
  match text.toList with
  | [] => ""
  | c :: rest => String.ofList (Text.upperChar c) ++ Text.lower (String.ofList rest)

/-- The characters without those at either end that a set holds. -/
def trimSet (set : List Char) (cs : List Char) : List Char :=
  ((cs.dropWhile set.contains).reverse.dropWhile set.contains).reverse

/-- The pieces between the occurrences of a separator that is not empty; `skip` characters of one are
still to be dropped, and `piece` holds the current piece backward. -/
def splitFrom (separator : List Char) (skip : Nat) (piece : List Char) : List Char → List (List Char)
  | [] => [piece.reverse]
  | c :: rest =>
    if 0 < skip then splitFrom separator (skip - 1) piece rest
    else if separator.isPrefixOf (c :: rest) then
      piece.reverse :: splitFrom separator (separator.length - 1) [] rest
    else splitFrom separator 0 (c :: piece) rest

/-- The pieces between the occurrences of a separator; the empty one occurs around every character. -/
def splitText (separator text : List Char) : List (List Char) :=
  if separator.isEmpty then [] :: text.map (fun c ↦ [c]) ++ [[]]
  else splitFrom separator 0 [] text

/-- At most this many pieces, the last of which holds the rest of the text. -/
def limitPieces (separator : List Char) (count : Option Nat) (pieces : List (List Char)) :
    List (List Char) :=
  match count with
  | none => pieces
  | some count =>
    if pieces.length ≤ count then pieces
    else pieces.take (count - 1) ++ [separator.intercalate (pieces.drop (count - 1))]

/-- The words of a text.  The last of `count` words takes the rest of the text along; blanks behind the
last of fewer words are a word of their own. -/
def splitWords (fuel : Nat) (count : Option Nat) (cs : List Char) : List (List Char) :=
  match fuel with
  | 0 => []
  | fuel + 1 =>
    match Text.trimFront cs with
    | [] => if count.isSome && !cs.isEmpty then [cs] else []
    | word =>
      if count = some 1 then [word]
      else
        word.takeWhile (fun c ↦ !Text.isBlank c)
          :: splitWords fuel (count.map (· - 1)) (word.dropWhile fun c ↦ !Text.isBlank c)

/-- The text with every occurrence of a part replaced. -/
def replaceText (part replacement text : List Char) : List Char :=
  replacement.intercalate (splitText part text)

/-- Splits a text at a separator, or into words, at most a number of times. -/
def split (value : Value) (arguments : Arguments) : Except Fault Value := do
  let text ← value.asString
  let separator ← arguments.optional 0 Value.asString
  let times ← arguments.optional 1 (Value.asInt 64)
  arguments.expectAtMost 2
  let count := times.bind fun n ↦ if 0 ≤ n then some (n.toNat + 1) else none
  let pieces :=
    match separator with
    | some separator =>
      limitPieces separator.toList count (splitText separator.toList text.toList)
    | none => splitWords (text.length + 1) count text.toList
  return .ofItems (pieces.map fun piece ↦ .string (String.ofList piece))

/-- Joins the texts of what iterating over a value gives. -/
def join (value : Value) (arguments : Arguments) : Except Fault Value := do
  let separator ← arguments.optional 0 Value.asText
  arguments.expectAtMost 1
  match value.iterate? with
  | some items => return .string ((separator.getD "").intercalate (items.map Value.text))
  | none => .error (.invalid ("cannot join value of type " ++ value.kind.name))

/-! ## Numbers -/

/-- The whole number of 128 bits toward zero. -/
def truncated (x : Double) : Int :=
  if x.isNaN then 0
  else if !x.isFinite then (if x.isNegative then Word.signed128.least else Word.signed128.greatest)
  else Word.signed128.clamp x.toInt

/-- The value as a whole number; none is zero. -/
def toInt (value : Value) : Except Fault Value :=
  match value with
  | .undefined .missing => .error .undefinedValue
  | .undefined .untaken | .none => .ok (.ofInt 0)
  | .bool b => .ok (.ofNat (if b then 1 else 0))
  | .int word n => .ok (.int word n)
  | .double x => .ok (.int .signed128 (truncated x))
  | .string s =>
    match wholeOfText? s, Double.ofText? s with
    | some n, some x =>
      .ok (.int .signed128 (if Word.signed128.holds n then n else truncated x))
    | _, some x => .ok (.int .signed128 (truncated x))
    | _, none => .error (.invalid "invalid float literal")
  | value => .error (.invalid ("cannot convert " ++ value.kind.name ++ " to integer"))

/-- The value as a double; none is zero. -/
def toDouble (value : Value) : Except Fault Value :=
  match value with
  | .undefined .missing => .error .undefinedValue
  | .undefined .untaken | .none => .ok (.double (Double.ofInt 0))
  | .string s =>
    match Double.ofText? s with
    | some x => .ok (.double x)
    | none => .error (.invalid "invalid float literal")
  | value =>
    match value.toDouble? with
    | some x => .ok (.double x)
    | none => .error (.invalid ("cannot convert " ++ value.kind.name ++ " to float"))

/-- The absolute value of a number. -/
def abs (value : Value) : Except Fault Value :=
  match value with
  | .int .signed64 n => .ok (.ofInt n.natAbs)
  | .int .signed128 n =>
    if Word.signed128.holds n.natAbs then .ok (.int .signed128 n.natAbs)
    else .error (.invalid "overflow on abs")
  | .int word n => .ok (.int word n)
  | .double x => .ok (.double x.abs)
  | _ => .error (.invalid "cannot get absolute value")

/-- Rounds a double to a number of decimal places, which may be negative. -/
def round (value : Value) (arguments : Arguments) : Except Fault Value := do
  let places ← arguments.optional 0 (Value.asInt 32)
  arguments.expectAtMost 1
  match value with
  | .int word n => return .int word n
  | .double x =>
    let scale := (Double.ofInt 10).powInt (places.getD 0)
    return .double ((scale.mul x).round.div scale)
  | _ => .error (.invalid "cannot round value")

/-! ## Lists -/

/-- The value at the end of a path of names and indices, which dots separate. -/
def follow (value : Value) (path : String) : Except Fault Value :=
  (splitFrom ['.'] 0 [] path.toList).foldlM
    (fun value part ↦
      let part := String.ofList part
      match JobValue.indexOfKey? part with
      | some index => value.item (.ofNat index)
      | none => value.member part)
    value

/-- The order in which values are sorted; without regard to case, letters of the basic Latin alphabet
count as small ones. -/
def sortOrder (caseSensitive : Bool) (first second : Value) : Ordering :=
  match caseSensitive, first, second with
  | false, .string a, .string b => Ord.compare a.toLower b.toLower
  | _, first, second => first.compare second

/-- Sorts by an order, or by the opposite one, keeping what is equal in its order. -/
def sortBy {α : Type} (order : α → α → Ordering) (reverse : Bool) (items : List α) : List α :=
  items.mergeSort fun first second ↦
    if reverse then (order second first).isLE else (order first second).isLE

/-- The order of the values at a path; values without one are equal to all. -/
def orderAt (caseSensitive : Bool) (path : String) (first second : Value) : Ordering :=
  match follow first path, follow second path with
  | .ok first, .ok second => sortOrder caseSensitive first second
  | _, _ => .eq

/-- The order of the values at several paths, which commas separate: a later path decides where the earlier
ones do not. -/
def orderAtPaths (caseSensitive : Bool) (paths : String) (first second : Value) : Ordering :=
  (splitFrom [','] 0 [] paths.toList).foldl
    (fun order path ↦
      order.then (orderAt caseSensitive (String.ofList (Text.trimChars path)) first second))
    .eq

/-- Sorts what iterating over a value gives. -/
def sort (value : Value) (arguments : Arguments) : Except Fault Value := do
  let items ← value.asList
  let caseSensitive := (← arguments.namedArgument "case_sensitive" Value.asBool).getD false
  let paths ← arguments.namedArgument "attribute" Value.asString
  let reverse := (← arguments.namedArgument "reverse" Value.asBool).getD false
  arguments.expectNamed ["case_sensitive", "attribute", "reverse"]
  let order :=
    match paths with
    | none => sortOrder caseSensitive
    | some paths => orderAtPaths caseSensitive paths
  return .ofItems (sortBy order reverse items)

/-- The entries of a map as pairs, sorted by their keys or by their values, or backward. -/
def sortEntries (value : Value) (arguments : Arguments) : Except Fault Value :=
  match value with
  | .map entries => do
    let order ← arguments.namedArgument "by" Value.asString
    let caseSensitive := (← arguments.namedArgument "case_sensitive" Value.asBool).getD false
    let reverse := (← arguments.namedArgument "reverse" Value.asBool).getD false
    arguments.expectNamed ["by", "case_sensitive", "reverse"]
    let key : Value × Value → Value := if order = some "value" then Prod.snd else Prod.fst
    let sorted := sortBy (fun a b ↦ sortOrder caseSensitive (key a) (key b)) false entries
    let pairs := sorted.map fun entry ↦ Value.ofItems [entry.1, entry.2]
    return .ofItems (if reverse then pairs.reverse else pairs)
  | _ => .error (.invalid "cannot convert value into pair list")

/-- The entries of a map as pairs. -/
def items (value : Value) : Except Fault Value :=
  match value with
  | .map entries => .ok (.ofComputed (entries.map fun entry ↦ .ofItems [entry.1, entry.2]))
  | _ => .error (.invalid "cannot convert value into pairs")

/-- The items of which no earlier one has an equal key. -/
def distinctBy (key : Value → Value) (items : List Value) : List Value :=
  (items.foldl
    (fun (kept, seen) item ↦
      if seen.any fun other ↦ ((key item).compare other).isEq then (kept, seen)
      else (item :: kept, key item :: seen))
    (([], []) : List Value × List Value)).1.reverse

/-- The items without repetitions, by default without regard to case. -/
def unique (value : Value) (arguments : Arguments) : Except Fault Value := do
  let path ← arguments.namedArgument "attribute" Value.asString
  let caseSensitive ← arguments.namedArgument "case_sensitive" Value.asBool
  arguments.expectNamed ["attribute", "case_sensitive"]
  let items ← value.iterate
  let key (item : Value) : Value :=
    let item :=
      match path with
      | none => item
      | some path => (follow item path).toOption.getD .missing
    match caseSensitive, item with
    | some true, item => item
    | _, .string s => .string (Text.lower s)
    | _, item => item
  return .ofItems (distinctBy key items)

/-- The first of the least items. -/
def least (items : List Value) : Value :=
  match items with
  | [] => .missing
  | first :: rest =>
    rest.foldl (fun best item ↦ if (item.compare best).isLT then item else best) first

/-- The last of the greatest items. -/
def greatest (items : List Value) : Value :=
  match items with
  | [] => .missing
  | first :: rest =>
    rest.foldl (fun best item ↦ if (item.compare best).isLT then best else item) first

/-- The sum of numbers; undefined items count for nothing. -/
def sum (value : Value) : Except Fault Value := do
  let items ← value.iterate
  items.foldlM
    (fun total item ↦
      if item.isUndefined then .ok total
      else if item.kind = .number then total.add item
      else .error (.invalid "can only sum numbers"))
    (.ofInt 0)

/-- The first character, item or key. -/
def first (value : Value) : Except Fault Value :=
  match value with
  | .string s => .ok ((Value.characters s).head?.getD .missing)
  | .list _ items => .ok (items.head?.getD .missing)
  | .map entries => .ok ((entries.head?.map Prod.fst).getD .missing)
  | _ => .error (.invalid "cannot get first item from value")

/-- The last character or item. -/
def last (value : Value) : Except Fault Value :=
  match value with
  | .string s => .ok ((Value.characters s).getLast?.getD .missing)
  | .list _ items => .ok (items.getLast?.getD .missing)
  | _ => .error (.invalid "cannot get last item from value")

/-- The characters, items or keys backward; undefined values and none stay as they are. -/
def reverse (value : Value) : Except Fault Value :=
  match value with
  | .undefined absence => .ok (.undefined absence)
  | .none => .ok .none
  | .string s => .ok (.string (String.ofList s.toList.reverse))
  | .list _ items => .ok (.ofComputed items.reverse)
  | .map entries => .ok (.ofComputed (entries.map Prod.fst).reverse)
  | value => .error (.invalid ("cannot reverse values of type " ++ value.kind.name))

/-- The number of characters, items or entries. -/
def length (value : Value) : Except Fault Value :=
  match value.length? with
  | some n => .ok (.ofNat n)
  | none => .error (.invalid ("cannot calculate length of value of type " ++ value.kind.name))

/-- The value as a truth value. -/
def toBool (value : Value) : Except Fault Value :=
  value.truth.map .bool

/-- The value as a text. -/
def toText (value : Value) : Except Fault Value :=
  value.asText.map .string

/-- The value, or another one where it is undefined, by default the empty text; with a second argument that
is true, also where it is false. -/
def default (value : Value) (arguments : Arguments) : Except Fault Value := do
  let other ← arguments.placedOrNamed 0 "default_value"
  let lax ← arguments.placedOrNamed 1 "boolean"
  arguments.expectWithin 2 ["default_value", "boolean"]
  if value.isUndefined || (lax.any Value.isTrue && !value.isTrue) then
    return other.getD (.string "")
  else return value

/-- The items that pass a test, or those that do not; without a test the items that are true. -/
def select (keep : Bool) (value : Value) (arguments : Arguments) : Except Fault Value := do
  let name ← arguments.optional 0 Value.asText
  let rest : Arguments := { arguments with placed := arguments.placed.drop 1 }
  let passes (item : Value) : Except Fault Bool :=
    match name with
    | none => .ok item.isTrue
    | some name => Test.ask name item rest
  match name with
  | some name => if Test.isKnown name then .ok () else .error (.invalid "unknown test")
  | none =>
    if arguments.placed.isEmpty && arguments.named.isSome then .error (.invalid "unknown test")
    else .ok ()
  let items ← value.iterate
  let kept ← items.filterM fun item ↦ (passes item).map (· == keep)
  return .ofItems kept

/-- The values at a path or a key of each item; a missing one gives way to a default. -/
def mapMember (value key : Value) (arguments : Arguments) : Except Fault Value := do
  if !arguments.placed.isEmpty then .error .tooManyArguments else .ok ()
  let other := (arguments.named? "default").getD .missing
  let items ← value.iterate
  let values ← items.mapM fun item ↦
    let found :=
      match key with
      | .string path => follow item path
      | key => item.item key
    match found with
    | .ok value => .ok (if value.isUndefined then other else value)
    | .error fault => if other.isUndefined then .error fault else .ok other
  arguments.expectNamed ["attribute", "default"]
  return .ofItems values

/-- A filter of texts that has no arguments. -/
def ofText (f : String → String) (value : Value) (arguments : Arguments) : Except Fault Value := do
  let text ← value.asText
  arguments.expectNone
  return .string (f text)

/-- A filter that has no arguments. -/
def plain (f : Value → Except Fault Value) (value : Value) (arguments : Arguments) :
    Except Fault Value := do
  arguments.expectNone
  f value

/-- Removes blanks, or the given characters, at both ends. -/
def trim (value : Value) (arguments : Arguments) : Except Fault Value := do
  let text ← value.asText
  let set ← arguments.optional 0 Value.asText
  arguments.expectAtMost 1
  match set with
  | none => return .string (Text.trim text)
  | some set => return .string (String.ofList (trimSet set.toList text.toList))

/-- Replaces a part of a text. -/
def replace (value : Value) (arguments : Arguments) : Except Fault Value := do
  let text ← value.asText
  let part ← arguments.required 0 Value.asText
  let replacement ← arguments.required 1 Value.asText
  arguments.expectAtMost 2
  return .string (String.ofList (replaceText part.toList replacement.toList text.toList))

/-- The filters that do not call others; the head of the module names those that are left out. -/
def simple : List (String × (Value → Arguments → Except Fault Value)) :=
  [("upper", ofText Text.upper),
    ("lower", ofText Text.lower),
    ("capitalize", ofText capitalize),
    ("title", ofText fun text ↦ String.ofList (titleChars true text.toList)),
    ("trim", trim),
    ("replace", replace),
    ("length", plain length),
    ("count", plain length),
    ("first", plain first),
    ("last", plain last),
    ("join", join),
    ("split", split),
    ("reverse", plain reverse),
    ("list", plain fun value ↦ value.asList.map Value.ofItems),
    ("items", plain items),
    ("dictsort", sortEntries),
    ("sort", sort),
    ("unique", unique),
    ("min", plain fun value ↦ value.asList.map least),
    ("max", plain fun value ↦ value.asList.map greatest),
    ("sum", plain sum),
    ("default", default),
    ("d", default),
    ("int", plain toInt),
    ("float", plain toDouble),
    ("bool", plain toBool),
    ("abs", plain abs),
    ("round", round),
    ("string", plain toText),
    ("select", select true),
    ("reject", select false)]

/-- The filter has a meaning. -/
def isKnown (name : String) : Bool :=
  (simple.lookup name).isSome || name == "map"

/-- Applies a filter.  `map` takes a member of each item or applies another filter, which its first argument
names, to each item; the depth bounds how often that may be `map` again. -/
def apply (depth : Nat) (name : String) (value : Value) (arguments : Arguments) :
    Except Fault Value :=
  match simple.lookup name with
  | some filter => filter value arguments
  | none =>
    if name ≠ "map" then .error (.invalid ("unknown filter: filter " ++ name ++ " is unknown"))
    else do
      match ← arguments.namedArgument "attribute" .ok, depth with
      | some key, _ => mapMember value key arguments
      | none, 0 => .error (.invalid "filter name is required")
      | none, depth + 1 =>
        let name ← (arguments.placed.head?.elim
          (.error (.invalid "filter name is required")) Value.asString)
        if !isKnown name then .error (.invalid "unknown filter")
        else
          let items ← value.iterate
          let values ← items.mapM fun item ↦ apply depth name item ⟨arguments.placed.drop 1, none⟩
          return .ofItems values

end Filter

end Invocation.Formula
