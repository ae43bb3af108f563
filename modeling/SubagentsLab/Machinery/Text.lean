import Mathlib.Data.List.Basic
import Mathlib.Data.List.DropRight
import Mathlib.Tactic.IntervalCases
import Mathlib.Tactic.Ring

/-!
# Machinery/Text — white space and words

What a string method takes for white space, and the methods that depend on it: `strip` takes it from
both ends, `split` cuts at it.  Numbers of a fixed width are written (`pad`) and read back (`readDigits`).
-/

namespace Machinery

namespace Text

/-- `str.isspace`, of one character. -/
def isSpace (c : Char) : Bool :=
  c.toNat ∈ [0x09, 0x0A, 0x0B, 0x0C, 0x0D, 0x1C, 0x1D, 0x1E, 0x1F, 0x20, 0x85, 0xA0, 0x1680, 0x2000, 0x2001,
    0x2002, 0x2003, 0x2004, 0x2005, 0x2006, 0x2007, 0x2008, 0x2009, 0x200A, 0x2028, 0x2029, 0x202F, 0x205F,
    0x3000]

/-- `s.strip()`. -/
def strip (s : String) : String := .ofList ((s.toList.dropWhile isSpace).rdropWhile isSpace)

/-- A text from which nothing is left has only characters that are taken. -/
theorem dropWhile_rdropWhile_eq_nil_iff (p : Char → Bool) (l : List Char) :
    (l.dropWhile p).rdropWhile p = [] ↔ ∀ c ∈ l, p c = true := by
  rw [List.rdropWhile_eq_nil_iff]
  refine ⟨fun h => ?_, fun h c hc => h c ((List.dropWhile_sublist _).subset hc)⟩
  rw [← List.dropWhile_eq_nil_iff]
  by_contra hne
  have hhead := List.head_dropWhile_not p hne
  rw [h _ (List.head_mem hne)] at hhead
  cases hhead

/-- What strips to nothing is white space. -/
theorem strip_eq_empty_iff (s : String) : strip s = "" ↔ ∀ c ∈ s.toList, isSpace c = true := by
  rw [← dropWhile_rdropWhile_eq_nil_iff, ← String.toList_inj, strip, String.toList_ofList, String.toList_empty]

/-- `s.split()`. -/
def split (s : String) : List String :=
  ((s.toList.splitOnP isSpace).filter (· ≠ [])).map .ofList

/-- `s[:n]`. -/
def take (s : String) (n : ℕ) : String := .ofList (s.toList.take n)

/-! ## Numbers of a fixed width -/

/-- The last `n` decimal digits of a number. -/
def pad : ℕ → ℕ → List Char
  | 0, _ => []
  | n + 1, k => Nat.digitChar (k / 10 ^ n % 10) :: pad n k

/-- `\d{n}`: read so many digits, on top of the number read before. -/
def readDigits : ℕ → ℕ → List Char → Option (ℕ × List Char)
  | 0, acc, cs => some (acc, cs)
  | _ + 1, _, [] => none
  | n + 1, acc, c :: cs => if c.isDigit then readDigits n (acc * 10 + (c.toNat - '0'.toNat)) cs else none

theorem isDigit_digitChar {d : ℕ} (hd : d < 10) :
    (Nat.digitChar d).isDigit = true ∧ (Nat.digitChar d).toNat - '0'.toNat = d := by
  interval_cases d <;> decide

/-- **What is padded is read back.** -/
theorem readDigits_pad (n acc k : ℕ) (rest : List Char) :
    readDigits n acc (pad n k ++ rest) = some (acc * 10 ^ n + k % 10 ^ n, rest) := by
  induction n generalizing acc with
  | zero => simp [readDigits, pad, Nat.mod_one]
  | succ n ih =>
    obtain ⟨hdigit, hvalue⟩ := isDigit_digitChar (Nat.mod_lt (k / 10 ^ n) (by decide))
    rw [pad, List.cons_append, readDigits, if_pos hdigit, hvalue, ih, Nat.mod_pow_succ]
    congr 2
    ring

theorem pad_all_isDigit (n k : ℕ) : ∀ c ∈ pad n k, c.isDigit = true := by
  induction n with
  | zero => exact fun c hc => absurd hc List.not_mem_nil
  | succ n ih =>
    intro c hc
    rcases List.mem_cons.mp hc with rfl | hc
    · exact (isDigit_digitChar (Nat.mod_lt _ (by decide))).1
    · exact ih c hc

end Text

end Machinery
