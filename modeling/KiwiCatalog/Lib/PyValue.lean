import Mathlib.Data.List.Basic

/-!
# PyValue — the values that Python's JSON is made of

Strings are code points and may hold lone surrogates, numbers may be floats that are no numbers,
and dictionaries may have other keys than strings.
-/

set_option autoImplicit false

namespace Py

/-- An item of a Python string: a Unicode scalar value or a lone surrogate. -/
inductive CodePoint
  | scalar (c : Char)
  | surrogate (index : Fin 2048)
  deriving DecidableEq

abbrev Str := List CodePoint

/-- A string without lone surrogates. -/
def ofText (text : List Char) : Str := text.map .scalar

def lit (text : String) : Str := ofText text.toList

/-- A binary64; a finite one as `±coefficient·10^exponent`, its shortest decimal. -/
inductive Float64
  | nan
  | infinite (negative : Bool)
  | finite (negative : Bool) (coefficient : Nat) (exponent : Int)
  deriving DecidableEq

/-- A key of a dictionary; the keys that are no strings are told apart by a number. -/
inductive Key
  | text (s : List CodePoint)
  | other (id : Nat)
  deriving DecidableEq

/-- A value; `other` is any value of another type. -/
inductive Value
  | none
  | bool (b : Bool)
  | int (i : Int)
  | float (x : Float64)
  | str (s : List CodePoint)
  | list (items : List Value)
  | dict (members : List (Key × Value))
  | other

namespace Value

mutual

/-- What a dictionary is: its keys are distinct. -/
def DistinctKeys : Value → Prop
  | .list items => DistinctKeysItems items
  | .dict members => (members.map Prod.fst).Nodup ∧ DistinctKeysMembers members
  | _ => True

def DistinctKeysItems : List Value → Prop
  | [] => True
  | v :: rest => DistinctKeys v ∧ DistinctKeysItems rest

def DistinctKeysMembers : List (Key × Value) → Prop
  | [] => True
  | (_, v) :: rest => DistinctKeys v ∧ DistinctKeysMembers rest

end

end Value

def Key.isText : Key → Bool
  | .text _ => true
  | .other _ => false

/-- The characters of a string; `none` where `encode` raises a `UnicodeEncodeError`. -/
def scalars : List CodePoint → Option (List Char)
  | [] => some []
  | .scalar c :: rest => (scalars rest).map (c :: ·)
  | .surrogate _ :: _ => none

theorem scalars_eq_some {s : List CodePoint} {text : List Char} (h : scalars s = some text) :
    s = text.map .scalar := by
  induction s generalizing text with
  | nil =>
    cases h
    rfl
  | cons c rest ih =>
    cases c with
    | surrogate index => cases h
    | scalar c =>
      rw [scalars, Option.map_eq_some_iff] at h
      obtain ⟨more, hmore, rfl⟩ := h
      rw [List.map_cons, ← ih hmore]

theorem scalars_ofText (text : List Char) : scalars (ofText text) = some text := by
  induction text with
  | nil => rfl
  | cons c rest ih =>
    show (scalars (ofText rest)).map (c :: ·) = _
    rw [ih]
    rfl

/-- The key of a dictionary that a name of a field stands for. -/
def keyOf (name : String) : Key := .text (lit name)

theorem keyOf_injective : Function.Injective keyOf := by
  intro a b h
  have hscalar : Function.Injective CodePoint.scalar := fun c d heq => CodePoint.scalar.inj heq
  exact String.toList_inj.mp (List.map_injective_iff.mpr hscalar (Key.text.inj h))

/-! ## Dictionaries -/

abbrev Fields := List (Key × Value)

/-- `fields.get(key)`, where absent is `none`. -/
def get (key : Key) (fields : Fields) : Option Value :=
  (fields.find? fun field => field.1 = key).map Prod.snd

/-- `fields.pop(key, None)`. -/
def pop (key : Key) (fields : Fields) : Fields := fields.filter fun field => field.1 ≠ key

/-- `fields[key] = value`. -/
def set (key : Key) (value : Value) (fields : Fields) : Fields :=
  if fields.any fun field => field.1 = key then
    fields.map fun field => if field.1 = key then (key, value) else field
  else fields ++ [(key, value)]

theorem get_cons (key : Key) (field : Key × Value) (rest : Fields) :
    get key (field :: rest) = if field.1 = key then some field.2 else get key rest := by
  unfold get
  rw [List.find?_cons]
  by_cases h : field.1 = key
  · rw [decide_eq_true h, if_pos h]
    rfl
  · rw [decide_eq_false h, if_neg h]

theorem get_append (key : Key) (fields more : Fields) :
    get key (fields ++ more) = (get key fields).or (get key more) := by
  unfold get
  rw [List.find?_append]
  cases fields.find? fun field => field.1 = key <;> rfl

theorem get_eq_none {key : Key} {fields : Fields} :
    get key fields = none ↔ ∀ field ∈ fields, field.1 ≠ key := by
  unfold get
  rw [Option.map_eq_none_iff, List.find?_eq_none]
  simp only [decide_eq_true_eq, ne_eq]

theorem mem_of_get {key : Key} {fields : Fields} {value : Value} (h : get key fields = some value) :
    (key, value) ∈ fields := by
  obtain ⟨field, hfield, rfl⟩ := Option.map_eq_some_iff.mp h
  have hfound := List.find?_some hfield
  have hkey : field.1 = key := of_decide_eq_true hfound
  rw [← hkey]
  exact List.mem_of_find?_eq_some hfield

theorem get_pop_self (key : Key) (fields : Fields) : get key (pop key fields) = none := by
  rw [get_eq_none]
  intro field hfield
  exact of_decide_eq_true (List.mem_filter.mp hfield).2

theorem get_pop_of_ne {key other : Key} (h : other ≠ key) (fields : Fields) :
    get other (pop key fields) = get other fields := by
  induction fields with
  | nil => rfl
  | cons field rest ih =>
    unfold pop at ih ⊢
    rw [List.filter_cons, get_cons]
    by_cases hkey : field.1 = key
    · have hne : field.1 ≠ other := fun heq => h (heq.symm.trans hkey)
      rw [if_neg hne, if_neg (by simpa using hkey), ih]
    · rw [if_pos (by simpa using hkey), get_cons, ih]

theorem get_set_self (key : Key) (value : Value) (fields : Fields) :
    get key (set key value fields) = some value := by
  unfold set
  split
  · rename_i hany
    induction fields with
    | nil => cases hany
    | cons field rest ih =>
      rw [List.map_cons, get_cons]
      by_cases hkey : field.1 = key
      · rw [if_pos hkey, if_pos rfl]
      · rw [if_neg hkey, if_neg hkey]
        apply ih
        rw [List.any_cons, decide_eq_false hkey, Bool.false_or] at hany
        exact hany
  · rename_i hany
    have hnone : get key fields = none := by
      rw [get_eq_none]
      intro field hfield hkey
      exact hany (List.any_eq_true.mpr ⟨field, hfield, decide_eq_true hkey⟩)
    rw [get_append, hnone, get_cons, if_pos rfl]
    rfl

/-- Writing a field leaves the others. -/
theorem get_set_of_ne {key other : Key} (h : other ≠ key) (value : Value) (fields : Fields) :
    get other (set key value fields) = get other fields := by
  have hmap : get other (fields.map fun field => if field.1 = key then (key, value) else field) =
      get other fields := by
    induction fields with
    | nil => rfl
    | cons field rest ih =>
      rw [List.map_cons, get_cons, get_cons, ih]
      by_cases hkey : field.1 = key
      · have hne : field.1 ≠ other := fun heq => h (heq.symm.trans hkey)
        rw [if_pos hkey, if_neg (fun heq => h heq.symm), if_neg hne]
      · rw [if_neg hkey]
  unfold set
  split
  · exact hmap
  · rw [get_append, get_cons, if_neg (fun heq => h heq.symm)]
    cases get other fields <;> rfl

/-- A field that is written where there was none, and taken away again. -/
theorem pop_set_of_absent {key : Key} {fields : Fields} (h : get key fields = none)
    (value : Value) : pop key (set key value fields) = fields := by
  have hne := get_eq_none.mp h
  have hall : (fields.any fun field => field.1 = key) = false := by
    rw [List.any_eq_false]
    intro field hfield
    simpa using hne field hfield
  have hsame : pop key fields = fields := by
    apply List.filter_eq_self.mpr
    intro field hfield
    exact decide_eq_true (hne field hfield)
  unfold set
  rw [hall, if_neg Bool.false_ne_true]
  unfold pop at hsame ⊢
  rw [List.filter_append, hsame, List.filter_cons_of_neg (by simp), List.filter_nil,
    List.append_nil]

end Py
