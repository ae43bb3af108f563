import Mathlib.Data.Rat.Defs
import Mathlib.Tactic.IntervalCases

/-!
# Machinery/Numerals — numbers and their decimal texts

Whole numbers are written in decimal and read back (`readInt_intText`); a number of more than
`maxStrDigits` digits is not written at all.  A float is a fraction, a negative zero, an infinity or no
number; `f"{x:.1f}"` rounds it to tenths, to the even one of two that are equally near, and the tenths are
read back (`readTenths_tenthsText`).
-/

namespace Machinery

/-! ## Floats -/

/-- A float, by its value. -/
inductive PyFloat
  | finite (x : ℚ)
  | negZero
  | inf (negative : Bool)
  | nan
  deriving DecidableEq

/-- `m / n` to the nearest whole number, and to the even one of two. -/
def roundDiv (m n : ℕ) : ℕ :=
  if 2 * (m % n) < n ∨ 2 * (m % n) = n ∧ m / n % 2 = 0 then m / n else m / n + 1

namespace PyFloat

/-- `math.isfinite(x)`. -/
def isFinite : PyFloat → Bool
  | finite _ | negZero => true
  | inf _ | nan => false

/-- `x < 0`. -/
def isNegative : PyFloat → Bool
  | finite x => x < 0
  | inf negative => negative
  | negZero | nan => false

/-- `float(n)` of a whole number: the nearest one of 53 bits; none where it is too large. -/
@[irreducible] def ofInt (n : ℤ) : Option PyFloat :=
  let unit := 2 ^ (Nat.log2 n.natAbs - 52)
  let rounded := roundDiv n.natAbs unit * unit
  if rounded < 2 ^ 1024 then some (.finite (if n < 0 then -rounded else rounded)) else none

/-- The tenths `f"{x:.1f}"` shows of a float that is no less than zero. -/
def tenths : PyFloat → ℕ
  | finite x => roundDiv (10 * x.num.natAbs) x.den
  | negZero | inf _ | nan => 0

end PyFloat

/-! ## Texts -/

namespace Numeral

/-- The longest number that is converted to a text or from one. -/
def maxStrDigits : ℕ := 4300

/-- `str(n)` of a number no less than zero. -/
def natText (n : ℕ) : List Char := Nat.toDigits 10 n

/-- `str(n)`, where it is not too long. -/
def intText (n : ℤ) : Option (List Char) :=
  if maxStrDigits < (natText n.natAbs).length then none
  else if n < 0 then some ('-' :: natText n.natAbs)
  else some (natText n.natAbs)

/-- Tenths in decimal. -/
def tenthsText (negative : Bool) (t : ℕ) : List Char :=
  (if negative then ['-'] else []) ++ (natText (t / 10) ++ ['.', Nat.digitChar (t % 10)])

/-- The number of some decimal digits. -/
def readNat (cs : List Char) : Option ℕ :=
  if cs ≠ [] ∧ cs.all Char.isDigit then some (Nat.ofDigitChars 10 cs 0) else none

/-- The number of some decimal digits, with a sign where it is less than zero. -/
def readInt : List Char → Option ℤ
  | '-' :: cs => (readNat cs).map fun n : ℕ => -(n : ℤ)
  | cs => (readNat cs).map fun n : ℕ => (n : ℤ)

/-- The tenths of a decimal fraction with one place, and whether it has a sign. -/
def readTenths (cs : List Char) : Option (Bool × ℕ) :=
  let negative := cs.head? = some '-'
  let digits := if negative then cs.tail else cs
  if digits.dropLast.getLast? = some '.' then do
    let whole ← readNat digits.dropLast.dropLast
    let tenth ← readNat digits.getLast?.toList
    pure (negative, 10 * whole + tenth)
  else none

theorem isDigit_of_mem_natText {n : ℕ} {c : Char} (h : c ∈ natText n) : c.isDigit = true :=
  Nat.isDigit_of_mem_toDigits (by omega) (by omega) h

@[simp] theorem readNat_natText (n : ℕ) : readNat (natText n) = some n := by
  have hdigits : natText n ≠ [] ∧ (natText n).all Char.isDigit = true :=
    ⟨Nat.toDigits_ne_nil, List.all_eq_true.mpr fun _ => isDigit_of_mem_natText⟩
  rw [readNat, if_pos hdigits, natText, Nat.ofDigitChars_ten_toDigits]

/-- Two numbers are written differently. -/
theorem toString_injective : Function.Injective (toString : ℕ → String) := by
  intro m n h
  have htext : natText m = natText n := by simpa [natText] using congrArg String.toList h
  have hread := readNat_natText m
  rw [htext, readNat_natText] at hread
  exact (Option.some.inj hread).symm

@[simp] theorem readNat_digitChar {d : ℕ} (hd : d < 10) : readNat [Nat.digitChar d] = some d := by
  interval_cases d <;> decide

/-- A digit is no other character. -/
theorem natText_ne {n : ℕ} {a : Char} (ha : a.isDigit = false) : ∀ c ∈ natText n, c ≠ a := by
  rintro c hc rfl
  rw [isDigit_of_mem_natText hc] at ha
  cases ha

theorem head?_natText_ne {n : ℕ} {a : Char} (ha : a.isDigit = false) (cs : List Char) :
    (natText n ++ cs).head? ≠ some a := by
  obtain ⟨c, rest, hc⟩ := List.exists_cons_of_ne_nil (l := natText n) Nat.toDigits_ne_nil
  rw [hc, List.cons_append, List.head?_cons]
  rintro ⟨rfl⟩
  exact natText_ne ha a (hc ▸ List.mem_cons_self) rfl

/-- **A number that is written is read back.** -/
theorem readInt_intText {n : ℤ} {cs : List Char} (h : intText n = some cs) : readInt cs = some n := by
  rw [intText] at h
  split_ifs at h with hlong hneg
  · cases h
    rw [readInt, readNat_natText, Option.map_some]
    congr 1
    omega
  · cases h
    have hhead := head?_natText_ne (n := n.natAbs) (a := '-') rfl []
    rw [List.append_nil] at hhead
    rw [readInt.eq_2 _ (fun rest hrest => hhead (by rw [hrest]; rfl)), readNat_natText, Option.map_some]
    congr 1
    omega

/-- **Tenths that are written are read back.** -/
theorem readTenths_tenthsText (negative : Bool) (t : ℕ) : readTenths (tenthsText negative t) = some (negative, t) := by
  have hhead := head?_natText_ne (n := t / 10) (a := '-') rfl ['.', Nat.digitChar (t % 10)]
  have hsign : ((tenthsText negative t).head? = some '-') = (negative = true) := by
    cases negative
    · simpa [tenthsText] using hhead
    · simp [tenthsText]
  have htail : (if negative then (tenthsText negative t).tail else tenthsText negative t)
      = natText (t / 10) ++ ['.'] ++ [Nat.digitChar (t % 10)] := by
    cases negative <;> simp [tenthsText]
  have hvalue : 10 * (t / 10) + t % 10 = t := Nat.div_add_mod t 10
  simp only [readTenths, hsign, htail, List.dropLast_concat, List.getLast?_concat, if_true, readNat_natText,
    Option.toList_some, readNat_digitChar (Nat.mod_lt t (by omega)), Option.bind_eq_bind, Option.bind_some,
    Option.pure_def, hvalue, Bool.decide_eq_true]

/-- Numbers are written in digits, a sign and a point. -/
theorem mem_tenthsText {negative : Bool} {t : ℕ} {c : Char} (h : c ∈ tenthsText negative t) :
    c.isDigit = true ∨ c = '-' ∨ c = '.' := by
  have hdigit : (Nat.digitChar (t % 10)).isDigit = true := by
    rw [Nat.isDigit_digitChar, decide_eq_true_eq]
    omega
  cases negative
  · simp only [tenthsText, Bool.false_eq_true, if_false, List.nil_append, List.mem_append, List.mem_cons,
      List.not_mem_nil, or_false] at h
    rcases h with h | rfl | rfl
    · exact .inl (isDigit_of_mem_natText h)
    · exact .inr (.inr rfl)
    · exact .inl hdigit
  · simp only [tenthsText, if_true, List.mem_append, List.mem_cons, List.not_mem_nil, or_false] at h
    rcases h with rfl | h | rfl | rfl
    · exact .inr (.inl rfl)
    · exact .inl (isDigit_of_mem_natText h)
    · exact .inr (.inr rfl)
    · exact .inl hdigit

theorem mem_intText {n : ℤ} {cs : List Char} (h : intText n = some cs) {c : Char} (hc : c ∈ cs) :
    c.isDigit = true ∨ c = '-' := by
  rw [intText] at h
  split_ifs at h
  · cases h
    exact (List.mem_cons.mp hc).symm.imp isDigit_of_mem_natText id
  · cases h
    exact .inl (isDigit_of_mem_natText hc)

end Numeral

end Machinery
