import SubagentsLab.Machinery.Json
import SubagentsLab.Machinery.Text

/-!
# Machinery/Script — decoded values as a script reads them

What a JavaScript program sees of a decoded value: what is true of it, which names it has, when two
values are the same.  A member that is not there reads as `undefined`, which is `none`.  The white space
`trim` knows is not the white space of `str.strip` (`isTrimmed_iff`).
-/

namespace Machinery

namespace Json

theorem get?_obj (members : List (String × Json)) (k : String) : (obj members).get? k = Dict.find k members := rfl

/-- `!!value`. -/
def truthy : Json → Bool
  | null => false
  | bool b => b
  | int n => n ≠ 0
  | float x => x ≠ 0
  | str s => s ≠ ""
  | arr _ => true
  | obj _ => true

/-- `typeof value === "object"`. -/
def isObject : Json → Bool
  | null => true
  | arr _ => true
  | obj _ => true
  | _ => false

/-- `Array.isArray(value)`. -/
def isArray : Json → Bool
  | arr _ => true
  | _ => false

/-- The characters of a string, as a script counts them. -/
def utf16Length (s : String) : ℕ := (s.toList.map fun c => if c.toNat < 0x10000 then 1 else 2).sum

/-- `Object.keys(value)`. -/
def ownKeys : Json → List String
  | arr items => (List.range items.length).map toString
  | str s => (List.range (utf16Length s)).map toString
  | obj members => members.map Prod.fst
  | _ => []

/-- `Object.hasOwn(value, key)`, for a name that is no index. -/
def hasOwn (v : Json) (key : String) : Bool := (v.get? key).isSome

/-- The whole number the value is, if `Number.isInteger` says so. -/
def integer? : Json → Option ℤ
  | int n => some n
  | float x => if x.den = 1 then some x.num else none
  | _ => none

/-- `Number.isInteger(value) && value >= 0`. -/
def isCount (v : Option Json) : Bool := (v.bind integer?).any (0 ≤ ·)

/-- `typeof value === "string"`. -/
def isString (v : Option Json) : Bool := (v.bind asStr).isSome

/-- `typeof value === "string" && value.length > 0`. -/
def isName (v : Option Json) : Bool := (v.bind asStr).any (· ≠ "")

/-- `value === null`. -/
def isNull : Option Json → Bool
  | some null => true
  | _ => false

/-- `value === null || typeof value === "string"`. -/
def isOptionalString (v : Option Json) : Bool := isNull v || isString v

/-- Whether the value is one of these strings. -/
def isOneOf (v : Option Json) (options : List String) : Bool := (v.bind asStr).any (· ∈ options)

/-- The members of an array. -/
def items : Option Json → List Json
  | some (arr vs) => vs
  | _ => []

/-- `Array.isArray(value) && value.every(p)`. -/
def isListOf (p : Json → Bool) (v : Option Json) : Bool := v.any isArray && (items v).all p

/-- `value === other`, of values decoded separately: two objects are never the same. -/
def identical : Option Json → Option Json → Bool
  | none, none => true
  | some null, some null => true
  | some (bool b), some (bool b') => b = b'
  | some (str s), some (str s') => s = s'
  | some (int n), some (int n') => n = n'
  | some (int n), some (float x) => (n : ℚ) = x
  | some (float x), some (int n) => x = (n : ℚ)
  | some (float x), some (float x') => x = x'
  | _, _ => false

end Json

namespace Text

/-- The white space of `trim`. -/
def isTrimmed (c : Char) : Bool :=
  c.toNat ∈ [0x09, 0x0A, 0x0B, 0x0C, 0x0D, 0x20, 0xA0, 0x1680, 0x2000, 0x2001, 0x2002, 0x2003, 0x2004, 0x2005,
    0x2006, 0x2007, 0x2008, 0x2009, 0x200A, 0x2028, 0x2029, 0x202F, 0x205F, 0x3000, 0xFEFF]

/-- `s.trim()`. -/
def trim (s : String) : String := .ofList ((s.toList.dropWhile isTrimmed).rdropWhile isTrimmed)

/-- The white space of `strip` that `trim` leaves alone. -/
def isSeparator (c : Char) : Bool := c.toNat ∈ [0x1C, 0x1D, 0x1E, 0x1F, 0x85]

/-- **Where the two languages differ**: `trim` also takes the byte order mark, and leaves five control
characters. -/
theorem isTrimmed_iff (c : Char) :
    isTrimmed c = true ↔ c.toNat = 0xFEFF ∨ isSpace c = true ∧ isSeparator c = false := by
  simp only [isTrimmed, isSpace, isSeparator, List.mem_cons, List.not_mem_nil, or_false, decide_eq_true_eq,
    decide_eq_false_iff_not]
  omega

end Text

end Machinery
