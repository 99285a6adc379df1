import Mathlib.Data.List.Basic

/-!
# Payload — JSON objects of requests and responses

An object is the list of its fields, the first of a name being the one that counts.
-/

set_option autoImplicit false

namespace KiwiCatalog

/-- A JSON value; `other` is an object, an array or a float, by its `str`. -/
inductive Value
  | null
  | bool (b : Bool)
  | int (i : Int)
  | text (s : String)
  | other (str : String)
  deriving DecidableEq, Repr

abbrev Dict := List (String × Value)

/-- `str(value)`. -/
def Value.str : Value → String
  | .null => "None"
  | .bool b => if b then "True" else "False"
  | .int i => toString i
  | .text s => s
  | .other str => str

/-- `repr(value)`, of texts without quotes or escapes. -/
def Value.repr : Value → String
  | .text s => "'" ++ s ++ "'"
  | v => v.str

/-- `dict.get(key)`. -/
def Dict.get? (key : String) : Dict → Option Value
  | [] => none
  | (k, v) :: rest => if k = key then some v else Dict.get? key rest

/-- `str(dict.get(key, ""))`. -/
def Dict.str (d : Dict) (key : String) : String :=
  match d.get? key with
  | none => ""
  | some v => v.str

/-- The value under `key` when it is a string other than `""`. -/
def Dict.nonempty? (d : Dict) (key : String) : Option String :=
  match d.get? key with
  | some (.text s) => if s = "" then none else some s
  | _ => none

/-- `dict[key] = value`: in place, or at the end. -/
def Dict.set (key : String) (v : Value) : Dict → Dict
  | [] => [(key, v)]
  | (k, w) :: rest => if k = key then (k, v) :: rest else (k, w) :: Dict.set key v rest

theorem Dict.get?_set (key : String) (v : Value) (d : Dict) (k : String) :
    (d.set key v).get? k = if key = k then some v else d.get? k := by
  induction d with
  | nil => rfl
  | cons field rest ih =>
    by_cases hkey : field.1 = key
    · simp only [Dict.set, Dict.get?, hkey, if_true]
      by_cases hk : key = k
      · simp only [if_pos hk]
      · simp only [if_neg hk]
    · simp only [Dict.set, Dict.get?, if_neg hkey, ih]
      by_cases hk : field.1 = k
      · have hne : ¬ key = k := fun h => hkey (hk.trans h.symm)
        simp only [if_pos hk, if_neg hne]
      · simp only [if_neg hk]

end KiwiCatalog
