import Mathlib.Data.List.Infix
import Mathlib.Data.List.Lex
import Mathlib.Order.Fin.Basic
import SubagentsLab.Machinery.Text

/-!
# Machinery/CodePoints — strings as lists of code points

A Python string is any list of code points, surrogates included, where a `String` has none: `text?` says
which Python strings are text, and `ofString` takes a text back.  White space is the white space of
`Text.isSpace`, and no surrogate is white space.
-/

namespace Machinery

/-- A code point. -/
abbrev CodePoint := Fin 0x110000

namespace CodePoint

/-- There are code points. -/
instance neZero : NeZero 0x110000 := ⟨by decide⟩

/-- Code points are compared by `==` as by `=`. -/
instance lawfulBEq : LawfulBEq CodePoint := inferInstance

/-- A character is no surrogate. -/
theorem toNat_valid (c : Char) : c.toNat < 0xD800 ∨ 0xDFFF < c.toNat ∧ c.toNat < 0x110000 := c.valid

/-- The code point of a character. -/
def ofChar (c : Char) : CodePoint := ⟨c.toNat, by have h := toNat_valid c; omega⟩

/-- Surrogates are no characters. -/
def isSurrogate (c : CodePoint) : Bool := 0xD800 ≤ c.val ∧ c.val < 0xE000

/-- The character of a code point. -/
def char? (c : CodePoint) : Option Char := if c.isSurrogate then none else some (Char.ofNat c.val)

/-- `str.isspace`, of one code point. -/
def isSpace (c : CodePoint) : Bool := c.char?.any Text.isSpace

/-- `str.isascii`, of one code point. -/
def isAscii (c : CodePoint) : Bool := c.val < 0x80

/-- An ASCII letter. -/
def isAsciiLetter (c : CodePoint) : Bool := 0x41 ≤ c.val ∧ c.val ≤ 0x5A ∨ 0x61 ≤ c.val ∧ c.val ≤ 0x7A

/-- An ASCII letter in lower case; any other code point stays as it is. -/
def asciiLower (c : CodePoint) : CodePoint := if 0x41 ≤ c.val ∧ c.val ≤ 0x5A then c + 0x20 else c

end CodePoint

/-- A Python string. -/
abbrev PyStr := List CodePoint

namespace PyStr

/-- Python strings are compared by `==` as by `=`. -/
instance lawfulBEq : LawfulBEq PyStr := inferInstance

/-- The Python string of a text. -/
def ofString (s : String) : PyStr := s.toList.map CodePoint.ofChar

/-- The text of a Python string, if it has no surrogate. -/
def text? (s : PyStr) : Option String := (s.mapM CodePoint.char?).map String.ofList

/-- `s.strip()`. -/
def strip (s : PyStr) : PyStr := (s.dropWhile CodePoint.isSpace).rdropWhile CodePoint.isSpace

/-- `s.strip() == ""`. -/
def isBlank (s : PyStr) : Bool := s.all CodePoint.isSpace

/-- `needle in s`. -/
def contains (s needle : PyStr) : Bool := decide (needle <:+: s)

/-- `s.partition(sep)`, for one code point: what comes before it, whether it is there, what comes after. -/
def partition (sep : CodePoint) (s : PyStr) : PyStr × Bool × PyStr :=
  match s.dropWhile (· ≠ sep) with
  | [] => (s, false, [])
  | _ :: after => (s.takeWhile (· ≠ sep), true, after)

/-- The third of `s.rpartition(sep)`, for one code point. -/
def afterLast (sep : CodePoint) (s : PyStr) : PyStr := (s.reverse.takeWhile (· ≠ sep)).reverse

end PyStr

/-! ## Text -/

namespace CodePoint

@[simp] theorem val_ofChar (c : Char) : (ofChar c).val = c.toNat := rfl

@[simp] theorem isSurrogate_ofChar (c : Char) : (ofChar c).isSurrogate = false := by
  have h := toNat_valid c
  rw [isSurrogate, decide_eq_false_iff_not, val_ofChar]
  omega

@[simp] theorem char?_ofChar (c : Char) : (ofChar c).char? = some c := by
  simp [char?]

theorem ofChar_of_char? {c : CodePoint} {a : Char} (h : c.char? = some a) : ofChar a = c := by
  rw [char?] at h
  split_ifs at h with hsur
  cases h
  refine Fin.ext ?_
  have hvalid : c.val.isValidChar := by
    have hlt := c.isLt
    simp only [isSurrogate, decide_eq_true_eq] at hsur
    simp only [Nat.isValidChar]
    omega
  rw [val_ofChar, Char.ofNat, dif_pos hvalid]
  rfl

theorem ofChar_injective : Function.Injective ofChar := fun a b h => by
  have hchar := congrArg char? h
  rwa [char?_ofChar, char?_ofChar, Option.some.injEq] at hchar

@[simp] theorem isSpace_ofChar (c : Char) : (ofChar c).isSpace = Text.isSpace c := by
  rw [isSpace, char?_ofChar, Option.any_some]

theorem char?_eq_none_iff {c : CodePoint} : c.char? = none ↔ c.isSurrogate = true := by
  simp [char?]

end CodePoint

namespace PyStr

@[simp] theorem text?_ofString (s : String) : (ofString s).text? = some s := by
  have hmap : ∀ l : List Char, (l.map CodePoint.ofChar).mapM CodePoint.char? = some l := by
    intro l
    induction l with
    | nil => rfl
    | cons c l ih => simp [ih]
  rw [text?, ofString, hmap, Option.map_some, String.ofList_toList]

theorem ofString_of_text? {s : PyStr} {t : String} (h : s.text? = some t) : ofString t = s := by
  have hmap : ∀ (s : PyStr) (l : List Char), s.mapM CodePoint.char? = some l → l.map CodePoint.ofChar = s := by
    intro s
    induction s with
    | nil => intro l hl; cases hl; rfl
    | cons c s ih =>
      intro l hl
      simp only [List.mapM_cons, Option.pure_def, Option.bind_eq_bind, Option.bind_eq_some_iff] at hl
      obtain ⟨a, ha, l', hl', heq⟩ := hl
      cases heq
      rw [List.map_cons, CodePoint.ofChar_of_char? ha, ih l' hl']
  obtain ⟨l, hl, rfl⟩ := Option.map_eq_some_iff.mp h
  rw [ofString, String.toList_ofList, hmap s l hl]

theorem ofString_injective : Function.Injective ofString := fun a b h => by
  have htext := congrArg text? h
  rwa [text?_ofString, text?_ofString, Option.some.injEq] at htext

/-- Prefixes of texts are prefixes of their code points. -/
theorem ofString_prefix_iff {a b : String} : ofString a <+: ofString b ↔ a.toList <+: b.toList := by
  refine ⟨fun h => ?_, fun h => h.map CodePoint.ofChar⟩
  obtain ⟨l, hl, heq⟩ := List.prefix_map_iff.mp h
  rwa [List.map_injective_iff.mpr CodePoint.ofChar_injective heq]

theorem text?_isSome_iff {s : PyStr} : s.text?.isSome = true ↔ ∀ c ∈ s, c.isSurrogate = false := by
  rw [text?, Option.isSome_map]
  induction s with
  | nil => simp
  | cons c s ih =>
    rw [List.forall_mem_cons, ← ih, List.mapM_cons]
    rcases hc : c.char? with _ | a
    · simp [CodePoint.char?_eq_none_iff.mp hc]
    · have hsur : c.isSurrogate = false := by
        rw [← CodePoint.ofChar_of_char? hc, CodePoint.isSurrogate_ofChar]
      rcases List.mapM CodePoint.char? s with _ | l <;> simp [hsur]

end PyStr

end Machinery
