import Mathlib.Data.Rat.Defs
import SubagentsLab.Machinery.Dict

/-!
# Machinery/Json — decoded values

A decoded value as a program holds it: whole and fractional numbers are of different types, and an object
is a dictionary, whose members keep the order they were written in.
-/

namespace Machinery

/-- A decoded value. -/
inductive Json
  | null
  | bool (b : Bool)
  | int (n : ℤ)
  | float (x : ℚ)
  | str (s : String)
  | arr (items : List Json)
  | obj (members : List (String × Json))

namespace Json

/-- `d.get(k)` of a dictionary, and nothing of any other value. -/
def get? : Json → String → Option Json
  | obj members, k => Dict.find k members
  | _, _ => none

/-- `d[k] = v` of a dictionary; any other value stays as it is. -/
def set : Json → String → Json → Json
  | obj members, k, v => obj (Dict.write k v members)
  | v, _, _ => v

/-- `d.get(k) is None`. -/
def lacks (v : Json) (k : String) : Bool :=
  match v.get? k with
  | none | some null => true
  | _ => false

/-- Whether the value is this string. -/
def isStr (v : Json) (s : String) : Bool :=
  match v with
  | str t => t = s
  | _ => false

/-- The string the value is. -/
def asStr : Json → Option String
  | str s => some s
  | _ => none

/-- Whether the value is a dictionary. -/
def isObj : Json → Bool
  | obj _ => true
  | _ => false

@[simp] theorem isObj_set (v w : Json) (k : String) : (v.set k w).isObj = v.isObj := by
  cases v <;> rfl

theorem get?_set {v : Json} (hv : v.isObj = true) (k k' : String) (w : Json) :
    (v.set k w).get? k' = if k' = k then some w else v.get? k' := by
  cases v with
  | obj members => exact Dict.find_write k k' w members
  | _ => cases hv

end Json

end Machinery
