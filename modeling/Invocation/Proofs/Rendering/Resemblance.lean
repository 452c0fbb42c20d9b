import Invocation.Proofs.Rendering.Mismatches

/-!
# Values that resemble each other

A list takes the type of its first item.  `JobValue.Resembles` says of values, without a word of types, which
items can stand behind which first item, and `InputType.resembles_iff` that these are the items that the type
accepts and whose entries have values that can stand for those of the first item.
-/

namespace Invocation

namespace JobValue

/-- What holds of a value when it holds of its items or entries holds of every value. -/
@[elab_as_elim]
theorem induction {motive : JobValue → Prop} (null : motive .null) (bool : ∀ b, motive (.bool b))
    (number : ∀ n, motive (.number n)) (string : ∀ s, motive (.string s))
    (file : ∀ kind path location extra, motive (.file kind path location extra))
    (list : ∀ items, (∀ item ∈ items, motive item) → motive (.list items))
    (mapping : ∀ entries : Entries JobValue, (∀ entry ∈ entries, motive entry.2) →
      motive (.mapping entries)) (value : JobValue) : motive value := by
  match value with
  | .null => exact null
  | .bool b => exact bool b
  | .number n => exact number n
  | .string s => exact string s
  | .file kind path location extra => exact file kind path location extra
  | .list items =>
      exact list items fun item hmem ↦ induction null bool number string file list mapping item
  | .mapping entries =>
      exact mapping entries fun entry hmem ↦
        induction null bool number string file list mapping entry.2
termination_by value
decreasing_by
  · have := List.sizeOf_lt_of_mem hmem
    simp only [JobValue.list.sizeOf_spec]
    omega
  · have hentry := List.sizeOf_lt_of_mem hmem
    have hvalue : sizeOf entry.2 < sizeOf entry := by
      obtain ⟨key, value⟩ := entry
      simp only [Prod.mk.sizeOf_spec]
      omega
    simp only [JobValue.mapping.sizeOf_spec]
    omega

/-- Lists and mappings, the values that have values inside of them. -/
def isNested : JobValue → Bool
  | .list _ => true
  | .mapping _ => true
  | _ => false

mutual

/-- `Resembles other first` says that `other` can stand behind the first item `first` of a list.  A whole
number may stand behind a fraction, but not the other way round, and every list behind an empty one.  A
mapping may lack entries of the first one, or have null at their keys, but has no other keys. -/
inductive Resembles : JobValue → JobValue → Prop
  | null : Resembles .null .null
  | bool (a b : Bool) : Resembles (.bool a) (.bool b)
  | int (m n : Int) : Resembles (.number (.int m)) (.number (.int n))
  | double (number : Number) (x : Double) : Resembles (.number number) (.number (.double x))
  | string (s t : String) : Resembles (.string s) (.string t)
  | file (kind : FileClass) (otherPath otherLocation : Option String) (otherExtra : Entries JobValue)
      (path location : Option String) (extra : Entries JobValue) :
      Resembles (.file kind otherPath otherLocation otherExtra) (.file kind path location extra)
  | empty (items : List JobValue) : Resembles (.list items) (.list [])
  | list {items : List JobValue} {first : JobValue} (rest : List JobValue) :
      (∀ item ∈ items, Resembles item first) → Resembles (.list items) (.list (first :: rest))
  | mapping {others entries : Entries JobValue} :
      (∀ key ∈ others.keys, key ∈ entries.keys) →
      (∀ entry ∈ entries, ∀ value, others.lookup entry.1 = some value → value.isNull = false →
        Passes value entry.2) → Resembles (.mapping others) (.mapping entries)

/-- `Passes value first` says that `value` can stand in an entry for `first`: it resembles `first`, or the
first item of the list `first`. -/
inductive Passes : JobValue → JobValue → Prop
  | whole {value first : JobValue} : Resembles value first → Passes value first
  | any (value : JobValue) : Passes value (.list [])
  | item {value first : JobValue} (rest : List JobValue) :
      Resembles value first → Passes value (.list (first :: rest))

end

end JobValue

namespace InputType

open JobValue (Resembles Passes)

variable {other first : JobValue}

/-! ## What an inferred type accepts -/

/-- The type of a value accepts what resembles the value. -/
theorem accepts_infer (h : Resembles other first) : (infer first).accepts other = true := by
  induction first using JobValue.induction generalizing other with
  | null | bool | string | mapping =>
      cases h
      rfl
  | number =>
      cases h with
      | int => rfl
      | double => rfl
  | file kind =>
      cases h
      cases kind with
      | file => rfl
      | directory => rfl
  | list items ih =>
      cases h with
      | empty items => exact List.all_eq_true.2 fun item _ ↦ rfl
      | list rest hitems =>
          exact List.all_eq_true.2 fun item hmem ↦ ih _ List.mem_cons_self (hitems item hmem)

/-- What the type of a list accepts is a list, and the type of the items accepts each of its items. -/
theorem exists_list_of_accepts {items : InputType} {itemBinding : Option Binding}
    (h : (array items itemBinding).accepts other = true) :
    ∃ values, other = .list values ∧ ∀ value ∈ values, items.accepts value = true := by
  cases other with
  | list values => exact ⟨values, rfl, by simpa [accepts] using h⟩
  | null | bool | number | string | file | mapping => cases h

/-- A list is accepted by the type of a list only. -/
theorem infer_accepts_list {values : List JobValue} (h : (infer first).accepts (.list values) = true) :
    first = .list [] ∨ ∃ item rest, first = .list (item :: rest) ∧
      ∀ value ∈ values, (infer item).accepts value = true := by
  cases first with
  | null | bool | string | mapping => cases h
  | number n => cases n <;> cases h
  | file kind => cases kind <;> cases h
  | list items =>
      cases items with
      | nil => exact .inl rfl
      | cons item rest => exact .inr ⟨item, rest, rfl, List.all_eq_true.1 h⟩

/-- Null is accepted by the type of null only. -/
theorem infer_accepts_null (h : (infer first).accepts .null = true) : first = .null := by
  cases first with
  | null => rfl
  | bool | string | list | mapping => cases h
  | number n => cases n <;> cases h
  | file kind => cases kind <;> cases h

/-- What the type of a value accepts resembles the value, if that is neither a list nor a mapping. -/
theorem resembles_of_accepts (hleaf : first.isNested = false)
    (h : (infer first).accepts other = true) : Resembles other first := by
  cases first with
  | list | mapping => cases hleaf
  | null =>
      cases other with
      | null => exact .null
      | bool | number | string | file | list | mapping => cases h
  | bool b =>
      cases other with
      | bool a => exact .bool a b
      | null | number | string | file | list | mapping => cases h
  | string t =>
      cases other with
      | string s => exact .string s t
      | null | bool | number | file | list | mapping => cases h
  | number n =>
      cases other with
      | number m =>
          cases n with
          | double x => exact .double m x
          | int n =>
              cases m with
              | int m => exact .int m n
              | double => cases h
      | null | bool | string | file | list | mapping => cases n <;> cases h
  | file kind path location extra =>
      cases other with
      | file otherKind otherPath otherLocation otherExtra =>
          -- the types of files and of directories accept their own class only
          have hkind : otherKind = kind := by
            cases kind <;> cases otherKind <;> first | rfl | cases h
          rw [hkind]
          exact .file kind otherPath otherLocation otherExtra path location extra
      | null | bool | number | string | list | mapping => cases kind <;> cases h

/-- The type of a value is that of a list or a record exactly when there are values inside of the value. -/
theorem isComposite_infer (value : JobValue) : (infer value).isComposite = value.isNested := by
  cases value with
  | null | bool | string | list | mapping => rfl
  | number n => cases n <;> rfl
  | file kind => cases kind <;> rfl

/-- A value can stand in an entry for one without values inside when the type of that accepts it. -/
theorem accepts_iff_passes (hleaf : first.isNested = false) :
    (infer first).accepts other = true ↔ Passes other first := by
  refine ⟨fun h ↦ .whole (resembles_of_accepts hleaf h), fun h ↦ ?_⟩
  cases h with
  | whole h => exact accepts_infer h
  | any | item => cases hleaf

/-- What resembles a list resembles its first item, if the type of that item accepts it. -/
theorem resembles_first_of_accepts {rest : List JobValue} (haccepts : (infer first).accepts other = true)
    (h : Resembles other (.list (first :: rest))) : Resembles other first := by
  induction first using JobValue.induction generalizing other rest with
  | null | bool | number | string | file =>
      exact resembles_of_accepts rfl haccepts
  | mapping =>
      cases h
      cases haccepts
  | list items ih =>
      cases h with
      | list _ hvalues =>
          cases items with
          | nil => exact .empty _
          | cons item others =>
              have haccepts := List.all_eq_true.1 haccepts
              exact .list others fun value hmem ↦
                ih item List.mem_cons_self (haccepts value hmem) (hvalues value hmem)

/-- What resembles a value is what its type accepts and can stand for it in an entry. -/
theorem resembles_iff :
    Resembles other first ↔ (infer first).accepts other = true ∧ Passes other first := by
  constructor
  · intro h
    exact ⟨accepts_infer h, .whole h⟩
  rintro ⟨haccepts, hpasses⟩
  induction first using JobValue.induction generalizing other with
  | null | bool | number | string | file | mapping =>
      cases hpasses with
      | whole h => exact h
  | list items ih =>
      cases hpasses with
      | whole h => exact h
      | any =>
          obtain ⟨values, rfl, -⟩ := exists_list_of_accepts haccepts
          exact .empty values
      | item rest h =>
          -- the whole list resembles the first item, so each of its items can stand for that
          obtain ⟨values, rfl, hvalues⟩ := exists_list_of_accepts haccepts
          refine .list rest fun value hmem ↦ ih _ List.mem_cons_self (hvalues value hmem) ?_
          cases h with
          | empty => exact .any value
          | list others h => exact .item others (h value hmem)

/-! ## Elements -/

/-- An element that the type of the first item accepts resembles that item, if it is null or can stand for the
item. -/
theorem resembles_of_passes (haccepts : (infer first).accepts other = true)
    (hpasses : other.isNull = false → Passes other first) : Resembles other first := by
  cases other with
  | null =>
      rw [infer_accepts_null haccepts]
      exact .null
  | bool | number | string | file | list | mapping => exact resembles_iff.2 ⟨haccepts, hpasses rfl⟩

/-- The elements of what resembles the first item of a list can stand for that item. -/
theorem passes_of_mem_elements (h : Resembles other first) {element : JobValue}
    (hmem : element ∈ other.elements) : Passes element first := by
  cases other with
  | null | bool | number | string | file | mapping =>
      rw [List.mem_singleton.1 hmem]
      exact .whole h
  | list items =>
      cases h with
      | empty => exact .any element
      | list rest hitems => exact .item rest (hitems element hmem)

/-- What the type of the first item of a list accepts resembles that item, if its elements can stand for
it. -/
theorem resembles_of_elements (hother : other.isNull = false)
    (haccepts : (infer first).accepts other = true)
    (hpasses : ∀ element ∈ other.elements, element.isNull = false → Passes element first) :
    Resembles other first := by
  cases other with
  | null | bool | number | string | file | mapping =>
      exact resembles_of_passes haccepts (hpasses _ (List.mem_singleton_self _))
  | list values =>
      rcases infer_accepts_list haccepts with rfl | ⟨item, rest, rfl, hvalues⟩
      · exact .empty values
      · refine .list rest fun value hmem ↦ resembles_of_passes (hvalues value hmem) fun hvalue ↦ ?_
        -- an element that resembles the whole first item resembles the first item of that
        cases hpasses value hmem hvalue with
        | whole h => exact .whole (resembles_first_of_accepts (hvalues value hmem) h)
        | item _ h => exact .whole h

/-- A value can stand in an entry for a list when the type of the list admits it and every element but null
can stand for the first item. -/
theorem passes_list_iff (hother : other.isNull = false) (rest : List JobValue) :
    Passes other (.list (first :: rest)) ↔
      (array (infer first) none).admits other = true ∧
        ∀ element ∈ other.elements, element.isNull = false → Passes element first := by
  rw [admits_array_iff]
  constructor
  · intro h
    cases h with
    | whole h =>
        refine ⟨.inl (accepts_infer h), fun element hmem _ ↦ ?_⟩
        cases h with
        | list _ hitems => exact .whole (hitems element hmem)
    | item _ h => exact ⟨.inr (accepts_infer h), fun element hmem _ ↦ passes_of_mem_elements h hmem⟩
  · rintro ⟨haccepts | haccepts, hpasses⟩
    · obtain ⟨values, rfl, hvalues⟩ := exists_list_of_accepts haccepts
      exact .whole (.list rest fun value hmem ↦
        resembles_of_passes (hvalues value hmem) (hpasses value hmem))
    · exact .item rest (resembles_of_elements hother haccepts hpasses)

end InputType

end Invocation
