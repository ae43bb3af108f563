import SubagentsLab.Machinery.Integers
import SubagentsLab.Machinery.Update

/-!
# Config/Values — the values of settings

`config.toml` gives a setting a value of one of the types of TOML; the env file and the environment give
strings.  What `bool`, `str`, `int` and `float` make of a value, and what they raise: `str` raises for a whole
number that is too long, and for an array or a table that contains one.
-/

namespace SubagentsLab

open Machinery

namespace ServerConfig

/-- What `load_config` can raise; a `UnicodeDecodeError` is a `ValueError`. -/
inductive Failure
  | configError (message : PyStr)
  | valueError
  | typeError
  | overflowError
  | attributeError
  | keyError
  | osError
  | recursionError
  deriving DecidableEq, Repr

/-- What a date can raise. -/
inductive DateFailure
  | valueError
  | overflowError
  deriving DecidableEq, Repr

/-- What is raised of a date. -/
def DateFailure.failure : DateFailure → Failure
  | valueError => .valueError
  | overflowError => .overflowError

/-- `ConfigError(message)`. -/
def refused (message : String) : Failure := .configError (.ofString message)

/-- The value, or what is raised where there is none. -/
def orRaise {α : Type} (failure : Failure) : Option α → Except Failure α
  | some a => .ok a
  | none => .error failure

@[simp] theorem orRaise_eq_ok_iff {α : Type} {failure : Failure} {x : Option α} {a : α} :
    orRaise failure x = .ok a ↔ x = some a := by
  cases x <;> simp [orRaise]

@[simp] theorem orRaise_eq_error_iff {α : Type} {failure failure' : Failure} {x : Option α} :
    orRaise failure x = .error failure' ↔ x = none ∧ failure = failure' := by
  cases x <;> simp [orRaise]

/-- What the standard library, the operating system and the installed packages decide. -/
structure Runtime where
  /-- `repr(x)`. -/
  floatText : PyFloat → PyStr
  /-- `float(s)`, if it does not raise `ValueError`. -/
  readFloat : PyStr → Option PyFloat
  /-- `repr(s)`. -/
  quote : PyStr → PyStr
  /-- `os.path.expanduser(s)`, if it does not raise `ValueError`. -/
  expanduser : PyStr → Option PyStr
  /-- `ip_address(s).is_loopback`; what is no address is not. -/
  isLoopback : PyStr → Bool
  /-- The network locations that `urlparse` does not raise `ValueError` for. -/
  acceptsNetloc : PyStr → Bool
  /-- `s.isidentifier()`. -/
  isIdentifier : PyStr → Bool
  /-- `s.isupper()`. -/
  isUpper : PyStr → Bool
  /-- What `datetime.fromisoformat(s).astimezone(UTC)` raises, if it raises. -/
  isoformatRaises : PyStr → Option DateFailure
  /-- The reasoning efforts of the installed OpenAI SDK. -/
  validReasoningEfforts : List PyStr
  /-- The version of the installed package. -/
  defaultReleaseVersion : PyStr
  /-- A float is written with a point, an exponent or letters. -/
  floatText_spec : ∀ x, (floatText x).isBlank = false ∧ (floatText x).readInteger = none

/-- An array, a table, a date or a time, with its truth value and what `str` makes of it, if it does not raise. -/
structure Compound where
  truthy : Bool
  text : Option PyStr
  text_spec : ∀ t ∈ text, t.isBlank = false ∧ t.readInteger = none
  deriving DecidableEq

/-- The value of a setting. -/
inductive Value
  | str (s : PyStr)
  | int (n : ℤ)
  | bool (b : Bool)
  | float (x : PyFloat)
  | compound (c : Compound)
  deriving DecidableEq

namespace Value

/-- `bool(value)`. -/
def truthy : Value → Bool
  | str s => s ≠ []
  | int n => n ≠ 0
  | bool b => b
  | float x => x.truthy
  | compound c => c.truthy

/-- `int(value)`. -/
def toInt : Value → Except Failure ℤ
  | str s => orRaise .valueError s.readInteger
  | int n => .ok n
  | bool b => .ok b.toNat
  | float .nan => .error .valueError
  | float x => orRaise .overflowError x.truncate
  | compound _ => .error .typeError

/-- The value where it is a string: its methods are called. -/
def asStr : Value → Except Failure PyStr
  | str s => .ok s
  | _ => .error .attributeError

variable (rt : Runtime)

/-- `str(value)`. -/
def text : Value → Except Failure PyStr
  | str s => .ok s
  | int n => orRaise .valueError ((Numeral.intText n).map (List.map CodePoint.ofChar))
  | bool b => .ok (.ofString (if b then "True" else "False"))
  | float x => .ok (rt.floatText x)
  | compound c => orRaise .valueError c.text

/-- `float(value)`. -/
def toFloat : Value → Except Failure PyFloat
  | str s => orRaise .valueError (rt.readFloat s)
  | int n => orRaise .overflowError (PyFloat.ofInt n)
  | bool b => .ok (.finite b.toNat)
  | float x => .ok x
  | compound _ => .error .typeError

/-- Only `str` of a value of `config.toml` raises, and what it raises is a `ValueError`. -/
theorem text_eq_error {v : Value} {failure : Failure} (h : v.text rt = .error failure) :
    failure = .valueError ∧ ∀ s, v ≠ .str s := by
  cases v with
  | str s => cases h
  | int n => exact ⟨(orRaise_eq_error_iff.mp h).2.symm, nofun⟩
  | bool b => cases h
  | float x => cases h
  | compound c => exact ⟨(orRaise_eq_error_iff.mp h).2.symm, nofun⟩

end Value

/-- A mapping from the names of settings to their values. -/
abbrev Mapping := Dict PyStr Value

/-- `except (TypeError, ValueError) as exc: raise ConfigError(message) from exc`. -/
def wrap {α : Type} (message : String) : Except Failure α → Except Failure α
  | .error .valueError | .error .typeError => .error (refused message)
  | x => x

/-- `except ValueError as exc: raise ConfigError(message) from exc`. -/
def wrapValueError {α : Type} (message : String) : Except Failure α → Except Failure α
  | .error .valueError => .error (refused message)
  | x => x

theorem wrap_eq_ok_iff {α : Type} {message : String} {x : Except Failure α} {a : α} :
    wrap message x = .ok a ↔ x = .ok a := by
  unfold wrap
  split <;> simp

theorem wrapValueError_eq_ok_iff {α : Type} {message : String} {x : Except Failure α} {a : α} :
    wrapValueError message x = .ok a ↔ x = .ok a := by
  unfold wrapValueError
  split <;> simp

end ServerConfig

end SubagentsLab
