import Mathlib.Data.List.Infix
import Mathlib.Data.Rat.Floor
import SubagentsLab.Machinery.CodePoints
import SubagentsLab.Machinery.Numerals

/-!
# Machinery/Integers — what `int` makes of a text and of a float

`int` of a text takes white space off both ends, then a sign and decimal digits of any script with single
underscores between them; a number of more than `maxStrDigits` digits is refused.  A whole number that is
written as a text is read back (`readInteger_intText`).  `int` of a float drops what is after the point.
-/

namespace Machinery

namespace CodePoint

/-- The zeros of the scripts; the other nine digits of each follow its zero. -/
def decimalZeros : List ℕ :=
  [0x30, 0x660, 0x6F0, 0x7C0, 0x966, 0x9E6, 0xA66, 0xAE6, 0xB66, 0xBE6, 0xC66, 0xCE6, 0xD66, 0xDE6, 0xE50, 0xED0,
    0xF20, 0x1040, 0x1090, 0x17E0, 0x1810, 0x1946, 0x19D0, 0x1A80, 0x1A90, 0x1B50, 0x1BB0, 0x1C40, 0x1C50, 0xA620,
    0xA8D0, 0xA900, 0xA9D0, 0xA9F0, 0xAA50, 0xABF0, 0xFF10, 0x104A0, 0x10D30, 0x11066, 0x110F0, 0x11136, 0x111D0,
    0x112F0, 0x11450, 0x114D0, 0x11650, 0x116C0, 0x11730, 0x118E0, 0x11950, 0x11C50, 0x11D50, 0x11DA0, 0x11F50,
    0x16A60, 0x16AC0, 0x16B50, 0x1D7CE, 0x1D7D8, 0x1D7E2, 0x1D7EC, 0x1D7F6, 0x1E140, 0x1E2F0, 0x1E4F0, 0x1E950,
    0x1FBF0]

/-- `unicodedata.decimal`. -/
def decimal? (c : CodePoint) : Option ℕ :=
  (decimalZeros.find? fun z => decide (z ≤ c.val ∧ c.val < z + 10)).map (c.val - ·)

/-- The white space around a number: in ASCII less than `isSpace` has. -/
def isNumberSpace (c : CodePoint) : Bool :=
  if c.isAscii then decide (c.val = 0x20 ∨ 0x09 ≤ c.val ∧ c.val ≤ 0x0D) else c.isSpace

end CodePoint

namespace PyStr

/-- Decimal digits with single underscores between them. -/
def digits? : PyStr → Option (List ℕ)
  | [] => none
  | [c] => c.decimal?.map ([·])
  | c :: sep :: rest =>
    c.decimal?.bind fun d =>
      if sep = CodePoint.ofChar '_' then (digits? rest).map (d :: ·) else (digits? (sep :: rest)).map (d :: ·)

/-- The number of some digits, where they are not too many. -/
def readDigits (s : PyStr) : Option ℕ :=
  (digits? s).bind fun ds =>
    if Numeral.maxStrDigits < ds.length then none else some (ds.foldl (fun n d => 10 * n + d) 0)

/-- `int(s)`; none is a `ValueError`. -/
def readInteger (s : PyStr) : Option ℤ :=
  match (s.dropWhile CodePoint.isNumberSpace).rdropWhile CodePoint.isNumberSpace with
  | [] => none
  | c :: rest =>
    if c = CodePoint.ofChar '-' then (readDigits rest).map fun n : ℕ => -(n : ℤ)
    else if c = CodePoint.ofChar '+' then (readDigits rest).map fun n : ℕ => (n : ℤ)
    else (readDigits (c :: rest)).map fun n : ℕ => (n : ℤ)

end PyStr

/-! ## Numbers that are read back -/

namespace CodePoint

theorem isDigit_cases {c : Char} (h : c.isDigit = true) :
    c ∈ ['0', '1', '2', '3', '4', '5', '6', '7', '8', '9'] := by
  obtain ⟨hlow, hhigh⟩ : 48 ≤ c.toNat ∧ c.toNat ≤ 57 := by
    simpa [Char.isDigit, UInt32.le_iff_toNat_le] using h
  have hof : c = Char.ofNat c.toNat := (Char.ofNat_toNat c).symm
  rw [hof]
  interval_cases c.toNat <;> decide

/-- An ASCII digit is a decimal digit, and no white space. -/
theorem decimal?_ofChar {c : Char} (h : c.isDigit = true) :
    (ofChar c).decimal? = some (c.toNat - '0'.toNat) ∧ (ofChar c).isNumberSpace = false ∧ c ≠ '_' ∧ c ≠ '-' ∧
      c ≠ '+' := by
  have hc := isDigit_cases h
  simp only [List.mem_cons, List.not_mem_nil, or_false] at hc
  rcases hc with rfl | rfl | rfl | rfl | rfl | rfl | rfl | rfl | rfl | rfl <;> decide +kernel

end CodePoint

namespace PyStr

theorem digits?_ofChar {cs : List Char} (hne : cs ≠ []) (h : ∀ c ∈ cs, c.isDigit = true) :
    digits? (cs.map CodePoint.ofChar) = some (cs.map fun c => c.toNat - '0'.toNat) := by
  induction cs with
  | nil => exact absurd rfl hne
  | cons c cs ih =>
    have hc := (CodePoint.decimal?_ofChar (h c List.mem_cons_self)).1
    cases cs with
    | nil => rw [List.map_singleton, digits?, hc, Option.map_some, List.map_singleton]
    | cons sep rest =>
      have hsep := (CodePoint.decimal?_ofChar (h sep (List.mem_cons_of_mem _ List.mem_cons_self))).2.2.1
      rw [List.map_cons, List.map_cons, digits?, hc, Option.bind_some,
        if_neg (CodePoint.ofChar_injective.ne hsep), ← List.map_cons,
        ih (List.cons_ne_nil _ _) fun c' hc' => h c' (List.mem_cons_of_mem _ hc'), Option.map_some]
      rfl

theorem foldl_digits (cs : List Char) (n : ℕ) :
    (cs.map fun c => c.toNat - '0'.toNat).foldl (fun n d => 10 * n + d) n = Nat.ofDigitChars 10 cs n := by
  induction cs generalizing n with
  | nil => rfl
  | cons c cs ih => rw [List.map_cons, List.foldl_cons, ih, Nat.ofDigitChars_cons]

theorem readDigits_natText {n : ℕ} (h : (Numeral.natText n).length ≤ Numeral.maxStrDigits) :
    readDigits ((Numeral.natText n).map CodePoint.ofChar) = some n := by
  have hne : Numeral.natText n ≠ [] := Nat.toDigits_ne_nil
  rw [readDigits, digits?_ofChar hne fun c => Numeral.isDigit_of_mem_natText, Option.bind_some, List.length_map,
    if_neg (not_lt.mpr h), foldl_digits, Numeral.natText, Nat.ofDigitChars_ten_toDigits]

/-- What has no white space at its ends stays as it is. -/
theorem trim_eq_self {s : PyStr} (h : ∀ c ∈ s, c.isNumberSpace = false) :
    (s.dropWhile CodePoint.isNumberSpace).rdropWhile CodePoint.isNumberSpace = s := by
  have hdrop : s.dropWhile CodePoint.isNumberSpace = s := by
    rw [List.dropWhile_eq_self_iff]
    exact fun hlen => by simpa using h _ (List.getElem_mem hlen)
  rw [hdrop, List.rdropWhile_eq_self_iff]
  exact fun hne => by simpa using h _ (List.getLast_mem hne)

/-- **A whole number that is written is read back.** -/
theorem readInteger_intText {n : ℤ} {cs : List Char} (h : Numeral.intText n = some cs) :
    readInteger (cs.map CodePoint.ofChar) = some n := by
  have hspace : ∀ c ∈ cs.map CodePoint.ofChar, c.isNumberSpace = false := by
    intro c hc
    obtain ⟨a, ha, rfl⟩ := List.mem_map.mp hc
    rcases Numeral.mem_intText h ha with hdigit | rfl
    · exact (CodePoint.decimal?_ofChar hdigit).2.1
    · decide +kernel
  rw [Numeral.intText] at h
  split_ifs at h with hlong hneg
  · cases h
    rw [readInteger, trim_eq_self hspace, List.map_cons]
    dsimp only
    rw [if_pos rfl, readDigits_natText (not_lt.mp hlong), Option.map_some]
    congr 1
    omega
  · cases h
    obtain ⟨c, rest, hc⟩ := List.exists_cons_of_ne_nil (l := Numeral.natText n.natAbs) Nat.toDigits_ne_nil
    obtain ⟨-, -, -, hminus, hplus⟩ := CodePoint.decimal?_ofChar (Numeral.isDigit_of_mem_natText (hc ▸ List.mem_cons_self))
    have hread := readDigits_natText (not_lt.mp hlong)
    rw [readInteger, trim_eq_self hspace]
    rw [hc, List.map_cons] at hread ⊢
    dsimp only
    rw [if_neg (CodePoint.ofChar_injective.ne hminus), if_neg (CodePoint.ofChar_injective.ne hplus), hread,
      Option.map_some]
    congr 1
    omega

end PyStr

/-! ## Floats -/

namespace PyFloat

/-- `bool(x)`. -/
def truthy : PyFloat → Bool
  | finite x => x ≠ 0
  | negZero => false
  | inf _ | nan => true

/-- `int(x)` of a finite float. -/
def truncate : PyFloat → Option ℤ
  | finite x => some (x.num.tdiv x.den)
  | negZero => some 0
  | inf _ | nan => none

/-- The whole number a float is equal to. -/
def whole? : PyFloat → Option ℤ
  | finite x => if x.den = 1 then some x.num else none
  | negZero => some 0
  | inf _ | nan => none

/-- `x < y`. -/
def lt : PyFloat → PyFloat → Bool
  | nan, _ | _, nan => false
  | inf negative, inf negative' => negative && !negative'
  | inf negative, _ => negative
  | _, inf negative => !negative
  | finite x, finite y => x < y
  | finite x, negZero => x < 0
  | negZero, finite y => 0 < y
  | negZero, negZero => false

/-- `x <= y`. -/
def le (x y : PyFloat) : Bool := x ≠ nan && y ≠ nan && !y.lt x

/-- A float that is a whole number is truncated to it. -/
theorem truncate_of_whole? {x : PyFloat} {n : ℤ} (h : x.whole? = some n) : x.truncate = some n := by
  cases x with
  | finite x =>
    rw [whole?] at h
    split_ifs at h with hden
    rw [truncate, hden, ← h, Nat.cast_one, Int.tdiv_one]
  | negZero => exact h
  | inf negative => cases h
  | nan => cases h

/-- **Truncation to a number between positive bounds.** -/
theorem truncate_between_iff (x : ℚ) {low : ℤ} (hlow : 0 < low) (high : ℤ) :
    (∃ n, (finite x).truncate = some n ∧ low ≤ n ∧ n ≤ high) ↔ (low : ℚ) ≤ x ∧ x < high + 1 := by
  have hpos : 0 ≤ x → (finite x).truncate = some ⌊x⌋ := by
    intro hx
    rw [truncate, Int.tdiv_eq_ediv_of_nonneg (Rat.num_nonneg.mpr hx), Rat.floor_def']
  constructor
  · rintro ⟨n, htruncate, hle, hhigh⟩
    have hx : 0 ≤ x := by
      by_contra hneg
      have hnum : 0 ≤ -x.num := by
        have := Rat.num_neg.mpr (not_le.mp hneg)
        omega
      have hdiv := Int.tdiv_nonneg hnum (Int.natCast_nonneg x.den)
      rw [Int.neg_tdiv] at hdiv
      have hn : x.num.tdiv x.den = n := Option.some.inj htruncate
      omega
    rw [hpos hx, Option.some.injEq] at htruncate
    rw [← htruncate] at hle hhigh
    have hlt : ⌊x⌋ < high + 1 := by omega
    exact ⟨Int.le_floor.mp hle, by exact_mod_cast Int.floor_lt.mp hlt⟩
  · rintro ⟨hle, hlt⟩
    have hx : 0 ≤ x := (by exact_mod_cast hlow.le : (0 : ℚ) ≤ low).trans hle
    refine ⟨⌊x⌋, hpos hx, Int.le_floor.mpr hle, ?_⟩
    have hfloor : ⌊x⌋ < high + 1 := Int.floor_lt.mpr (by push_cast; exact hlt)
    omega

end PyFloat

end Machinery
