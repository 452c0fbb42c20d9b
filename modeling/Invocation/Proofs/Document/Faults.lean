import Invocation.Document.Tool
import Invocation.Proofs.Document.Reading

/-!
# Where the faults of a document are

`FailsOnly holds reading` says that `holds` is true of the error of a reading, if it has one.  A part of a
document is read at its place, and its errors are at this place or below: for a type they are those of its
fields, symbols and expressions (`failsOnly_readType`).
-/

namespace Invocation

/-- A fault of a type: of its fields, its symbols or the expressions in it. -/
inductive DocumentFault.OfType : DocumentFault → Prop where
  | fieldNotObject : OfType .fieldNotObject
  | fieldWithoutName : OfType .fieldWithoutName
  | enumWithoutSymbols : OfType .enumWithoutSymbols
  | expressionForm : OfType .expressionForm
  | expressionWithoutScript : OfType .expressionWithoutScript

namespace Document

/-! ## Places -/

/-- The places at a place and below it. -/
inductive Within (place : String) : String → Prop where
  | here : Within place place
  | child {inner : String} (name : String) : Within place inner → Within place (child inner name)
  | elementAt {inner : String} (index : Nat) : Within place inner → Within place (elementAt inner index)

/-- What is below a place that is below another one is below the other one. -/
theorem Within.trans {place inner innermost : String} (h : Within place inner)
    (hinner : Within inner innermost) : Within place innermost := by
  induction hinner with
  | here => exact h
  | child name _ ih => exact ih.child name
  | elementAt index _ ih => exact ih.elementAt index

/-! ## Readings -/

variable {α β : Type} {holds weaker : DocumentError → Prop}

/-- The error of the reading is one of these. -/
def FailsOnly (holds : DocumentError → Prop) (reading : Reading α) : Prop :=
  ∀ error, reading = .error error → holds error

namespace FailsOnly

/-- What is read has no error. -/
theorem ok (value : α) : FailsOnly holds (.ok value) :=
  nofun

/-- The only error is the given one. -/
theorem error {error : DocumentError} (h : holds error) : FailsOnly holds (.error error : Reading α) :=
  fun _ heq ↦ by cases heq; exact h

/-- More errors can be allowed. -/
theorem mono {reading : Reading α} (h : FailsOnly holds reading)
    (hweaker : ∀ error, holds error → weaker error) : FailsOnly weaker reading :=
  fun failure heq ↦ hweaker failure (h failure heq)

/-- What is read in two parts fails like the first part, or like the second one for what was read. -/
theorem bind_of_ok {first : Reading α} {next : α → Reading β} (h : FailsOnly holds first)
    (hnext : ∀ value, first = .ok value → FailsOnly holds (next value)) :
    FailsOnly holds (first >>= next) := by
  cases first with
  | ok value => exact hnext value rfl
  | error failure => exact error (h failure rfl)

/-- What is read in two parts fails like its parts. -/
theorem bind {first : Reading α} {next : α → Reading β} (h : FailsOnly holds first)
    (hnext : ∀ value, FailsOnly holds (next value)) : FailsOnly holds (first >>= next) :=
  h.bind_of_ok fun value _ ↦ hnext value

/-- What is made of a reading fails like the reading. -/
theorem map {reading : Reading α} (h : FailsOnly holds reading) (make : α → β) :
    FailsOnly holds (reading.map make) := by
  cases reading with
  | ok value => exact ok _
  | error failure => exact error (h failure rfl)

/-- A list of readings fails like one of them. -/
theorem mapM {read : β → Reading α} {items : List β} (h : ∀ item ∈ items, FailsOnly holds (read item)) :
    FailsOnly holds (items.mapM read) := by
  induction items with
  | nil => exact ok _
  | cons item rest ih =>
      obtain ⟨hitem, hrest⟩ := List.forall_mem_cons.1 h
      rw [List.mapM_cons]
      exact hitem.bind fun _ ↦ (ih hrest).bind fun _ ↦ ok _

/-- The items of a list fail like one of them at its place. -/
theorem readItems {read : String → Json → Reading α} {location : String} {start : Nat} {items : List Json}
    (h : ∀ index item, items[index]? = some item →
      FailsOnly holds (read (Document.elementAt location (start + index)) item)) :
    FailsOnly holds (readItems read location start items) := by
  induction items generalizing start with
  | nil => exact ok _
  | cons item rest ih =>
      refine (h 0 item rfl).bind fun _ ↦ FailsOnly.bind (ih fun index other hother ↦ ?_) fun _ ↦ ok _
      rw [Nat.add_assoc, Nat.add_comm 1]
      exact h (index + 1) other hother

end FailsOnly

/-! ## Types -/

/-- An error of a type at a place. -/
structure IsTypeError (place : String) (error : DocumentError) : Prop where
  within : Within place error.location
  fault : error.fault.OfType

namespace IsTypeError

variable {place inner : String} {error : DocumentError}

/-- An error at a place is one at every place that it is below. -/
theorem of_within (h : Within place inner) (herror : IsTypeError inner error) : IsTypeError place error :=
  ⟨h.trans herror.within, herror.fault⟩

/-- An error at a member of an object is one of the object. -/
theorem of_child {name : String} (h : IsTypeError (child place name) error) : IsTypeError place error :=
  h.of_within (.child name .here)

/-- An error at an item of a list is one of the list. -/
theorem of_elementAt {index : Nat} (h : IsTypeError (elementAt place index) error) :
    IsTypeError place error :=
  h.of_within (.elementAt index .here)

end IsTypeError

variable {version : DocumentVersion} {place : String}

/-- An expression has its errors at its place. -/
theorem failsOnly_readExpression (version : DocumentVersion) (place : String) (raw : Json) :
    FailsOnly (IsTypeError place) (readExpression version place raw) := by
  cases raw with
  | string | number | bool => exact .ok _
  | null | array => exact .error ⟨.here, .expressionForm⟩
  | object members =>
      rw [readExpression]
      split
      · split
        · exact .ok _
        · exact .error ⟨.here, .expressionWithoutScript⟩
      · exact .error ⟨.here, .expressionForm⟩

/-- A binding has its errors in its expression. -/
theorem failsOnly_readBinding (version : DocumentVersion) (place : String) (members : Entries Json) :
    FailsOnly (IsTypeError place) (readBinding version place members) := by
  have hvalue : FailsOnly (IsTypeError place)
      (readExpression? version (child place "valueFrom") (members.lookup "valueFrom")) := by
    cases members.lookup "valueFrom" with
    | none => exact .ok _
    | some raw => exact ((failsOnly_readExpression _ _ raw).map _).mono fun _ ↦ .of_child
  exact hvalue.bind fun _ ↦ .ok _

/-- A binding that may be missing has its errors at its place. -/
theorem failsOnly_readBinding? (version : DocumentVersion) (place : String) (raw : Option Json) :
    FailsOnly (IsTypeError place) (readBinding? version place raw) := by
  unfold readBinding?
  cases raw.bind Json.members? with
  | none => exact .ok _
  | some members => exact (failsOnly_readBinding version place members).map _

/-- An enumeration fails without symbols only. -/
theorem failsOnly_readEnum (version : DocumentVersion) (place : String) (members : Entries Json) :
    FailsOnly (IsTypeError place) (readEnum version place members) := by
  unfold readEnum
  split
  · exact .ok _
  · exact .error ⟨.here, .enumWithoutSymbols⟩

/-- A union fails like one of its members. -/
theorem failsOnly_unionType (optional : Bool) {alternatives : List (Reading (InputType × Bool))}
    (h : ∀ alternative ∈ alternatives, FailsOnly holds alternative) :
    FailsOnly holds (unionType optional alternatives) := by
  unfold unionType
  split
  · exact (h _ List.mem_cons_self).map _
  · exact .ok _

/-- A field fails without a name, or like its type or its binding. -/
theorem failsOnly_readFieldMembers {members : Entries Json} {type : Reading (InputType × Bool)}
    (h : FailsOnly (IsTypeError place) type) :
    FailsOnly (IsTypeError place) (readFieldMembers version place members type) := by
  unfold readFieldMembers
  split
  · exact .error ⟨.here, .fieldWithoutName⟩
  · refine h.bind fun _ ↦ FailsOnly.bind ?_ fun _ ↦ .ok _
    exact (failsOnly_readBinding? _ _ _).mono fun _ ↦ .of_child

/-- An object that describes a type fails like its binding, its items or its fields, or without symbols. -/
theorem failsOnly_readTypeMembers {members : Entries Json} {items : Reading (InputType × Bool)}
    {fields : Reading (List Input)} (hitems : FailsOnly (IsTypeError place) items)
    (hfields : FailsOnly (IsTypeError place) fields) :
    FailsOnly (IsTypeError place) (readTypeMembers version place members items fields) := by
  unfold readTypeMembers
  refine FailsOnly.bind ((failsOnly_readBinding? _ _ _).mono fun _ ↦ .of_child) fun binding ↦ ?_
  split
  · exact .ok _
  · exact hitems.bind fun _ ↦ .ok _
  · exact hfields.bind fun _ ↦ .ok _
  · exact failsOnly_readEnum version place members
  · exact .ok _

mutual

/-- A type has its errors at its place or below. -/
theorem failsOnly_readType (version : DocumentVersion) (place : String) (raw : Json) :
    FailsOnly (IsTypeError place) (readType version place raw) := by
  match raw with
  | .string _ | .null | .bool _ | .number _ => unfold readType; exact .ok _
  | .array union =>
    unfold readType
    exact failsOnly_unionType _ (failsOnly_readAlternatives version place union)
  | .object members =>
    unfold readType
    refine FailsOnly.bind (failsOnly_readTypeMembers ?_ ?_) fun _ ↦ .ok _
    · exact (failsOnly_readTypeAt version _ "items" members).mono fun _ ↦ .of_child
    · exact (failsOnly_readFieldsAt version _ members).mono fun _ ↦ .of_child

/-- The members of a union have their errors at its place or below. -/
theorem failsOnly_readAlternatives (version : DocumentVersion) (place : String) (union : List Json) :
    ∀ alternative ∈ readAlternatives version place union, FailsOnly (IsTypeError place) alternative := by
  match union with
  | [] => exact nofun
  | item :: rest =>
    unfold readAlternatives
    split
    · exact failsOnly_readAlternatives version place rest
    · exact List.forall_mem_cons.2
        ⟨failsOnly_readType version place item, failsOnly_readAlternatives version place rest⟩

/-- The type at a member has its errors at its place or below. -/
theorem failsOnly_readTypeAt (version : DocumentVersion) (place key : String)
    (members : List (String × Json)) :
    FailsOnly (IsTypeError place) (readTypeAt version place key members) := by
  match members with
  | [] => exact .ok _
  | (name, value) :: rest =>
    unfold readTypeAt
    split
    · exact failsOnly_readType version place value
    · exact failsOnly_readTypeAt version place key rest

/-- The fields at a member have their errors at its place or below. -/
theorem failsOnly_readFieldsAt (version : DocumentVersion) (place : String)
    (members : List (String × Json)) :
    FailsOnly (IsTypeError place) (readFieldsAt version place members) := by
  match members with
  | [] => exact .ok _
  | (name, value) :: rest =>
    unfold readFieldsAt
    split
    · exact failsOnly_readFields version place value
    · exact failsOnly_readFieldsAt version place rest

/-- Fields have their errors at their place or below. -/
theorem failsOnly_readFields (version : DocumentVersion) (place : String) (raw : Json) :
    FailsOnly (IsTypeError place) (readFields version place raw) := by
  match raw with
  | .array items =>
    unfold readFields
    exact failsOnly_readFieldItems version place 0 items
  | .object members =>
    unfold readFields
    exact failsOnly_readFieldEntries version place 0 members
  | .null | .bool _ | .number _ | .string _ => unfold readFields; exact .ok _

/-- The fields of a list have their errors at its place or below. -/
theorem failsOnly_readFieldItems (version : DocumentVersion) (place : String) (index : Nat)
    (items : List Json) :
    FailsOnly (IsTypeError place) (readFieldItems version place index items) := by
  match items with
  | [] => exact .ok _
  | item :: rest =>
    have hrest := failsOnly_readFieldItems version place (index + 1) rest
    have htype := failsOnly_readOwnType version (child (elementAt place index) "type") item
    unfold readFieldItems
    dsimp only
    split
    · exact FailsOnly.bind (.error ⟨.elementAt index .here, .fieldNotObject⟩) fun _ ↦
        hrest.bind fun _ ↦ .ok _
    · refine FailsOnly.bind ?_ fun _ ↦ hrest.bind fun _ ↦ .ok _
      exact (failsOnly_readFieldMembers (htype.mono fun _ ↦ .of_child)).mono fun _ ↦ .of_elementAt

/-- The fields of an object have their errors at its place or below. -/
theorem failsOnly_readFieldEntries (version : DocumentVersion) (place : String) (index : Nat)
    (members : List (String × Json)) :
    FailsOnly (IsTypeError place) (readFieldEntries version place index members) := by
  match members with
  | [] => exact .ok _
  | (name, value) :: rest =>
    have hrest := failsOnly_readFieldEntries version place (index + 1) rest
    unfold readFieldEntries
    refine FailsOnly.bind (.mono ?_ fun _ ↦ .of_within (.elementAt index .here)) fun _ ↦
      hrest.bind fun _ ↦ .ok _
    refine failsOnly_readFieldMembers (.mono ?_ fun _ ↦ .of_within (.child "type" .here))
    split
    · exact failsOnly_readType version _ value
    · exact failsOnly_readOwnType version _ value

/-- The type that an object declares has its errors at its place or below. -/
theorem failsOnly_readOwnType (version : DocumentVersion) (place : String) (raw : Json) :
    FailsOnly (IsTypeError place) (readOwnType version place raw) := by
  match raw with
  | .object members =>
    unfold readOwnType
    exact failsOnly_readTypeAt version place "type" members
  | .null | .bool _ | .number _ | .string _ | .array _ => unfold readOwnType; exact .ok _

end

end Document

end Invocation
