import Mathlib.Data.List.Chain
import Mathlib.Tactic.IntervalCases
import SubagentsLab.Machinery.CodePoints

/-!
# Machinery/JsonText — JSON strings in ASCII

`json.dumps` of a string writes every code point in printable ASCII: a code point beyond the basic plane
goes out as a pair of surrogate escapes.  A reader joins such a pair again, so what it gets back is the
string with its surrogate pairs joined (`readString_dumps`); a string that has no surrogate pair of its own
comes back as it was (`joinSurrogates_eq_self`).

A text of words between spaces, in which a word may hold such strings, is cut at the spaces outside the
strings (`splitQuoted`); words that each leave the scan outside a string are recovered (`splitQuoted_join`).
-/

namespace Machinery

/-! ## Surrogates -/

namespace CodePoint

/-- The first of a surrogate pair. -/
def isHigh (c : CodePoint) : Bool := 0xD800 ≤ c.val ∧ c.val < 0xDC00

/-- The second of a surrogate pair. -/
def isLow (c : CodePoint) : Bool := 0xDC00 ≤ c.val ∧ c.val < 0xE000

/-- The code point a surrogate pair stands for. -/
def pair (high low : CodePoint) : CodePoint := Fin.ofNat 0x110000 (0x10000 + (high.val - 0xD800) * 0x400 + (low.val - 0xDC00))

/-- The first surrogate of a code point beyond the basic plane. -/
def highOf (c : CodePoint) : CodePoint := Fin.ofNat 0x110000 (0xD800 + (c.val - 0x10000) / 0x400)

/-- The second surrogate of a code point beyond the basic plane. -/
def lowOf (c : CodePoint) : CodePoint := Fin.ofNat 0x110000 (0xDC00 + (c.val - 0x10000) % 0x400)

/-- A code point in UTF-16. -/
def units (c : CodePoint) : List CodePoint := if c.val < 0x10000 then [c] else [c.highOf, c.lowOf]

theorem val_highOf {c : CodePoint} (hc : ¬c.val < 0x10000) : c.highOf.val = 0xD800 + (c.val - 0x10000) / 0x400 := by
  have hlt := c.isLt
  rw [highOf, Fin.val_ofNat, Nat.mod_eq_of_lt (by omega)]

theorem val_lowOf {c : CodePoint} : c.lowOf.val = 0xDC00 + (c.val - 0x10000) % 0x400 := by
  rw [lowOf, Fin.val_ofNat, Nat.mod_eq_of_lt (by omega)]

end CodePoint

namespace PyStr

/-- Every surrogate pair as the code point it stands for. -/
def joinSurrogates : PyStr → PyStr
  | [] => []
  | [c] => [c]
  | c :: d :: s => if c.isHigh && d.isLow then c.pair d :: joinSurrogates s else c :: joinSurrogates (d :: s)

/-- No high surrogate stands before a low one. -/
def Unpaired (s : PyStr) : Prop := s.IsChain fun c d => (c.isHigh && d.isLow) = false

end PyStr

/-! ## Writing -/

namespace JsonText

/-- The last four hexadecimal digits of a number. -/
def hex4 (n : ℕ) : List Char :=
  [Nat.digitChar (n / 0x1000 % 16), Nat.digitChar (n / 0x100 % 16), Nat.digitChar (n / 0x10 % 16), Nat.digitChar (n % 16)]

/-- `\uXXXX`. -/
def unicodeEscape (n : ℕ) : List Char := '\\' :: 'u' :: hex4 n

/-- The characters that are escaped by a letter. -/
def escapeLetter (c : CodePoint) : Option Char :=
  match c.val with
  | 0x22 => some '"'
  | 0x5C => some '\\'
  | 0x0A => some 'n'
  | 0x0D => some 'r'
  | 0x09 => some 't'
  | 0x0C => some 'f'
  | 0x08 => some 'b'
  | _ => none

/-- A code point in a JSON string. -/
def escape (c : CodePoint) : List Char :=
  match escapeLetter c with
  | some letter => ['\\', letter]
  | none =>
    if 0x20 ≤ c.val ∧ c.val ≤ 0x7E then [Char.ofNat c.val]
    else if c.val < 0x10000 then unicodeEscape c.val
    else unicodeEscape c.highOf.val ++ unicodeEscape c.lowOf.val

/-- `json.dumps(s)`. -/
def dumps (s : PyStr) : List Char := '"' :: (s.flatMap escape ++ ['"'])

/-! ## Reading -/

/-- The value of a hexadecimal digit, as it is written here. -/
def hexDigit? (c : Char) : Option ℕ :=
  if '0' ≤ c ∧ c ≤ '9' then some (c.toNat - '0'.toNat)
  else if 'a' ≤ c ∧ c ≤ 'f' then some (c.toNat - 'a'.toNat + 10)
  else none

/-- The code unit of four hexadecimal digits. -/
def hexValue (a b c d : Char) : Option CodePoint := do
  let a ← hexDigit? a
  let b ← hexDigit? b
  let c ← hexDigit? c
  let d ← hexDigit? d
  pure (Fin.ofNat 0x110000 (((a * 16 + b) * 16 + c) * 16 + d))

/-- The character a letter escapes. -/
def letterValue (c : Char) : Option CodePoint :=
  match c with
  | '"' => some 0x22
  | '\\' => some 0x5C
  | '/' => some 0x2F
  | 'n' => some 0x0A
  | 'r' => some 0x0D
  | 't' => some 0x09
  | 'f' => some 0x0C
  | 'b' => some 0x08
  | _ => none

/-- The code units of what stands between the quotes. -/
def readUnits : List Char → Option PyStr
  | [] => some []
  | '\\' :: 'u' :: a :: b :: c :: d :: cs => do
    let unit ← hexValue a b c d
    let rest ← readUnits cs
    pure (unit :: rest)
  | '\\' :: letter :: cs => do
    let unit ← letterValue letter
    let rest ← readUnits cs
    pure (unit :: rest)
  | c :: cs => do
    let rest ← readUnits cs
    if c = '\\' ∨ c = '"' ∨ c.toNat < 0x20 then none else pure (CodePoint.ofChar c :: rest)

/-- `json.loads` of a string. -/
def readString : List Char → Option PyStr
  | '"' :: cs => if cs.getLast? = some '"' then (readUnits cs.dropLast).map PyStr.joinSurrogates else none
  | _ => none

/-! ## What is written is read -/

theorem hexDigit?_digitChar {d : ℕ} (hd : d < 16) : hexDigit? (Nat.digitChar d) = some d := by
  interval_cases d <;> decide

theorem hexValue_hex4 {n : ℕ} (hn : n < 0x10000) :
    hexValue (Nat.digitChar (n / 0x1000 % 16)) (Nat.digitChar (n / 0x100 % 16)) (Nat.digitChar (n / 0x10 % 16))
      (Nat.digitChar (n % 16)) = some (Fin.ofNat 0x110000 n) := by
  have hdigits : ((n / 0x1000 % 16 * 16 + n / 0x100 % 16) * 16 + n / 0x10 % 16) * 16 + n % 16 = n := by omega
  have hdigit : ∀ k, hexDigit? (Nat.digitChar (k % 16)) = some (k % 16) := fun k =>
    hexDigit?_digitChar (Nat.mod_lt k (by omega))
  simp only [hexValue, hdigit, Option.bind_eq_bind, Option.bind_some, Option.pure_def, hdigits]

/-- A `\uXXXX` escape is one code unit. -/
theorem readUnits_unicodeEscape {n : ℕ} (hn : n < 0x10000) (cs : List Char) :
    readUnits (unicodeEscape n ++ cs) = (readUnits cs).map (Fin.ofNat 0x110000 n :: ·) := by
  rw [unicodeEscape, hex4, List.cons_append, List.cons_append, List.cons_append, List.cons_append, List.cons_append,
    List.cons_append, List.nil_append, readUnits, hexValue_hex4 hn]
  rcases readUnits cs with _ | rest <;> rfl

theorem escapeLetter_eq_some {c : CodePoint} {letter : Char} (h : escapeLetter c = some letter) :
    letter ≠ 'u' ∧ letterValue letter = some c := by
  rw [escapeLetter] at h
  split at h <;> cases h <;> rename_i hval <;> refine ⟨by decide, ?_⟩ <;> rw [letterValue] <;>
    exact congrArg some (Fin.ext hval.symm)

/-- An escape by a letter is one code unit. -/
theorem readUnits_escapeLetter {c : CodePoint} {letter : Char} (h : escapeLetter c = some letter) (cs : List Char) :
    readUnits ('\\' :: letter :: cs) = (readUnits cs).map (c :: ·) := by
  obtain ⟨hletter, hvalue⟩ := escapeLetter_eq_some h
  rw [readUnits.eq_3 _ _ (fun _ _ _ _ _ hu _ => hletter hu), hvalue]
  rcases readUnits cs with _ | rest <;> rfl

theorem escapeLetter_eq_none {c : CodePoint} (h : escapeLetter c = none) : c.val ≠ 0x22 ∧ c.val ≠ 0x5C := by
  constructor <;> intro hval <;> rw [escapeLetter, hval] at h <;> cases h

/-- A printable character. -/
theorem printable_ofNat {n : ℕ} (hn : 0x20 ≤ n ∧ n ≤ 0x7E) : (Char.ofNat n).toNat = n := by
  rw [Char.ofNat, dif_pos (Or.inl (by omega))]
  rfl

/-- A printable character that is no quote and no backslash is read as it stands. -/
theorem readUnits_printable {c : CodePoint} (hnone : escapeLetter c = none) (hc : 0x20 ≤ c.val ∧ c.val ≤ 0x7E)
    (cs : List Char) : readUnits (Char.ofNat c.val :: cs) = (readUnits cs).map (c :: ·) := by
  obtain ⟨hquote, hslash⟩ := escapeLetter_eq_none hnone
  have hval := printable_ofNat hc
  have hne : ∀ a : Char, c.val ≠ a.toNat → Char.ofNat c.val ≠ a := fun a ha hca => ha (by rw [← hca, hval])
  have hplain : ¬(Char.ofNat c.val = '\\' ∨ Char.ofNat c.val = '"' ∨ (Char.ofNat c.val).toNat < 0x20) := by
    rw [hval]
    rintro (h | h | h)
    · exact hne '\\' hslash h
    · exact hne '"' hquote h
    · omega
  have hchar : CodePoint.ofChar (Char.ofNat c.val) = c := Fin.ext hval
  rw [readUnits.eq_4 _ _ (fun _ _ _ _ _ hu _ => hne '\\' hslash hu) (fun _ _ hu _ => hne '\\' hslash hu), hchar]
  simp only [if_neg hplain]
  rcases readUnits cs with _ | rest <;> rfl

/-- **What a code point is escaped as is its UTF-16.** -/
theorem readUnits_escape (c : CodePoint) (cs : List Char) :
    readUnits (escape c ++ cs) = (readUnits cs).map (c.units ++ ·) := by
  rw [escape]
  rcases hletter : escapeLetter c with _ | letter
  · have hlt := c.isLt
    dsimp only
    split_ifs with hprint hbmp
    · rw [CodePoint.units, if_pos (by omega)]
      exact readUnits_printable hletter hprint cs
    · rw [CodePoint.units, if_pos hbmp, readUnits_unicodeEscape hbmp, Fin.ofNat_val_eq_self]
      rfl
    · have hhigh : c.highOf.val < 0x10000 := by rw [CodePoint.val_highOf hbmp]; omega
      have hlow : c.lowOf.val < 0x10000 := by rw [CodePoint.val_lowOf]; omega
      rw [CodePoint.units, if_neg hbmp, List.append_assoc, readUnits_unicodeEscape hhigh,
        readUnits_unicodeEscape hlow, Option.map_map, Fin.ofNat_val_eq_self, Fin.ofNat_val_eq_self]
      rfl
  · have hbmp : c.val < 0x10000 := by
      by_contra hge
      rw [escapeLetter] at hletter
      split at hletter <;> first | omega | cases hletter
    have hunits : c.units = [c] := if_pos hbmp
    rw [hunits]
    exact readUnits_escapeLetter hletter cs

theorem readUnits_escapes (s : PyStr) : readUnits (s.flatMap escape) = some (s.flatMap CodePoint.units) := by
  induction s with
  | nil => rfl
  | cons c s ih => rw [List.flatMap_cons, List.flatMap_cons, readUnits_escape, ih, Option.map_some]

end JsonText

namespace PyStr

open CodePoint

theorem joinSurrogates_cons {c : CodePoint} {s : PyStr} (h : ∀ d ∈ s.head?, (c.isHigh && d.isLow) = false) :
    joinSurrogates (c :: s) = c :: joinSurrogates s := by
  cases s with
  | nil => rfl
  | cons d s => rw [joinSurrogates, h d rfl, if_neg Bool.false_ne_true]

theorem joinSurrogates_eq_self {s : PyStr} (h : s.Unpaired) : joinSurrogates s = s := by
  induction s with
  | nil => rfl
  | cons c s ih =>
    rw [Unpaired, List.isChain_cons] at h
    rw [joinSurrogates_cons h.1, ih h.2]

/-- The surrogates of a code point beyond the basic plane are a pair, and stand for it. -/
theorem pair_units {c : CodePoint} (hc : ¬c.val < 0x10000) :
    c.highOf.isHigh = true ∧ c.lowOf.isLow = true ∧ c.highOf.pair c.lowOf = c := by
  have hhigh := val_highOf hc
  have hlow := val_lowOf (c := c)
  refine ⟨decide_eq_true (by omega), decide_eq_true (by omega), Fin.ext ?_⟩
  rw [pair, Fin.val_ofNat, hhigh, hlow]
  omega

/-- The first unit of a code point is low only if the code point is. -/
theorem eq_of_isLow_head {c d : CodePoint} {s : PyStr} (hd : d ∈ (c.units ++ s).head?) (hlow : d.isLow = true) :
    c = d := by
  rw [units] at hd
  split_ifs at hd with hc
  · exact Option.some.inj hd
  · have hhigh := val_highOf hc
    rw [← Option.some.inj hd] at hlow
    have hval := of_decide_eq_true hlow
    omega

/-- A code point goes out alone where it starts no pair. -/
theorem joinSurrogates_units_append {c : CodePoint} {s : PyStr} (h : ∀ d ∈ s.head?, (c.isHigh && d.isLow) = false) :
    joinSurrogates (c.units ++ s) = c :: joinSurrogates s := by
  rw [units]
  split_ifs with hc
  · exact joinSurrogates_cons h
  · obtain ⟨hhigh, hlow, hpair⟩ := pair_units hc
    rw [List.cons_append, List.cons_append, List.nil_append, joinSurrogates, hhigh, hlow, Bool.and_self, if_pos rfl,
      hpair]

theorem units_of_isHigh {c : CodePoint} (h : c.isHigh = true) : c.units = [c] :=
  if_pos (by have hval := of_decide_eq_true h; omega)

theorem units_of_isLow {c : CodePoint} (h : c.isLow = true) : c.units = [c] :=
  if_pos (by have hval := of_decide_eq_true h; omega)

/-- **Cutting a string into UTF-16 joins its own surrogate pairs, and no others.** -/
theorem joinSurrogates_units (s : PyStr) : joinSurrogates (s.flatMap units) = joinSurrogates s := by
  induction s using joinSurrogates.induct with
  | case1 => rfl
  | case2 c =>
    rw [List.flatMap_singleton, ← List.append_nil c.units]
    exact joinSurrogates_units_append (by simp)
  | case3 c d s h ih =>
    obtain ⟨hhigh, hlow⟩ := Bool.and_eq_true_iff.mp h
    rw [List.flatMap_cons, List.flatMap_cons, units_of_isHigh hhigh, units_of_isLow hlow, List.singleton_append,
      List.singleton_append, joinSurrogates, joinSurrogates, if_pos h, if_pos h, ih]
  | case4 c d s h ih =>
    have hc : ∀ e ∈ ((d :: s).flatMap units).head?, (c.isHigh && e.isLow) = false := by
      intro e he
      by_contra hpair
      rw [Bool.not_eq_false] at hpair
      have hde := eq_of_isLow_head (List.flatMap_cons .. ▸ he) (Bool.and_eq_true_iff.mp hpair).2
      exact h (hde ▸ hpair)
    rw [List.flatMap_cons, joinSurrogates_units_append hc, ih, joinSurrogates, if_neg h]

end PyStr

namespace JsonText

/-- **What is written is read back**, its surrogate pairs joined. -/
theorem readString_dumps (s : PyStr) : readString (dumps s) = some s.joinSurrogates := by
  rw [dumps, readString, if_pos (by rw [List.getLast?_concat]), List.dropLast_concat, readUnits_escapes,
    Option.map_some, PyStr.joinSurrogates_units]

/-! ## Printable characters -/

/-- `' ' <= c <= '~'`. -/
def Printable (c : Char) : Prop := 0x20 ≤ c.toNat ∧ c.toNat ≤ 0x7E

instance : DecidablePred Printable := fun _ => inferInstanceAs (Decidable (_ ∧ _))

theorem digitChar_printable {d : ℕ} (hd : d < 16) :
    Printable (Nat.digitChar d) ∧ Nat.digitChar d ≠ '"' ∧ Nat.digitChar d ≠ '\\' ∧ Nat.digitChar d ≠ ' ' := by
  interval_cases d <;> decide

theorem unicodeEscape_printable (n : ℕ) : ∀ c ∈ unicodeEscape n, Printable c := by
  have hdigit : ∀ k, Printable (Nat.digitChar (k % 16)) := fun k => (digitChar_printable (Nat.mod_lt k (by omega))).1
  simp only [unicodeEscape, hex4, List.forall_mem_cons, List.not_mem_nil, false_imp_iff, implies_true, and_true]
  exact ⟨by decide, by decide, hdigit _, hdigit _, hdigit _, hdigit _⟩

theorem escape_printable (c : CodePoint) : ∀ a ∈ escape c, Printable a := by
  rw [escape]
  rcases hletter : escapeLetter c with _ | letter
  · dsimp only
    split_ifs with hprint hbmp
    · exact List.forall_mem_singleton.mpr (by rwa [Printable, printable_ofNat hprint])
    · exact unicodeEscape_printable _
    · exact List.forall_mem_append.mpr ⟨unicodeEscape_printable _, unicodeEscape_printable _⟩
  · have hprint : Printable letter := by
      rw [escapeLetter] at hletter
      split at hletter <;> cases hletter <;> decide
    exact List.forall_mem_cons.mpr ⟨by decide, List.forall_mem_singleton.mpr hprint⟩

/-- A JSON string is printable ASCII. -/
theorem dumps_printable (s : PyStr) : ∀ a ∈ dumps s, Printable a := by
  rw [dumps, List.forall_mem_cons, List.forall_mem_append, List.forall_mem_singleton]
  refine ⟨by decide, fun a ha => ?_, by decide⟩
  obtain ⟨c, -, hac⟩ := List.mem_flatMap.mp ha
  exact escape_printable c a hac

/-! ## Words between spaces -/

/-- Where a scan of the text stands. -/
inductive Scan
  | outside
  | inside
  | escaped
  deriving DecidableEq

/-- One character further. -/
def Scan.next : Scan → Char → Scan
  | outside, c => if c = '"' then inside else outside
  | inside, c => if c = '"' then outside else if c = '\\' then escaped else inside
  | escaped, _ => inside

/-- The words between the spaces that stand outside the strings. -/
def splitQuotedFrom : Scan → List Char → List (List Char)
  | _, [] => [[]]
  | m, c :: cs =>
    if m = .outside ∧ c = ' ' then [] :: splitQuotedFrom .outside cs
    else (splitQuotedFrom (m.next c) cs).modifyHead (c :: ·)

/-- The words of a text. -/
def splitQuoted (cs : List Char) : List (List Char) := splitQuotedFrom .outside cs

/-- The rest of a word: it ends outside the strings, and has no space there. -/
def WordFrom : Scan → List Char → Prop
  | m, [] => m = .outside
  | m, c :: cs => ¬(m = .outside ∧ c = ' ') ∧ WordFrom (m.next c) cs

/-- A word. -/
def Word (cs : List Char) : Prop := WordFrom .outside cs

theorem WordFrom.append {m : Scan} {cs ds : List Char} (hc : WordFrom m cs) (hd : Word ds) : WordFrom m (cs ++ ds) := by
  induction cs generalizing m with
  | nil => exact hc ▸ hd
  | cons c cs ih => exact ⟨hc.1, ih hc.2⟩

/-- A text without spaces and quotes is a word. -/
theorem word_of_plain {cs : List Char} (h : ∀ c ∈ cs, c ≠ ' ' ∧ c ≠ '"') : Word cs := by
  induction cs with
  | nil => rfl
  | cons c cs ih =>
    obtain ⟨hc, hcs⟩ := List.forall_mem_cons.mp h
    refine ⟨fun hspace => hc.1 hspace.2, ?_⟩
    rw [Scan.next, if_neg hc.2]
    exact ih hcs

/-- A character of a string that neither ends it nor escapes the next. -/
theorem wordFrom_inside {c : Char} {cs : List Char} (hquote : c ≠ '"') (hslash : c ≠ '\\')
    (h : WordFrom .inside cs) : WordFrom .inside (c :: cs) :=
  ⟨by simp, by rwa [Scan.next, if_neg hquote, if_neg hslash]⟩

theorem wordFrom_unicodeEscape (n : ℕ) {cs : List Char} (h : WordFrom .inside cs) :
    WordFrom .inside (unicodeEscape n ++ cs) := by
  have hdigit : ∀ (k : ℕ) {ds : List Char}, WordFrom .inside ds → WordFrom .inside (Nat.digitChar (k % 16) :: ds) :=
    fun k _ hd => by
      obtain ⟨-, hquote, hslash, -⟩ := digitChar_printable (Nat.mod_lt k (by omega))
      exact wordFrom_inside hquote hslash hd
  exact ⟨by simp, by simp [Scan.next], hdigit _ (hdigit _ (hdigit _ (hdigit _ h)))⟩

theorem wordFrom_escape (c : CodePoint) {cs : List Char} (h : WordFrom .inside cs) :
    WordFrom .inside (escape c ++ cs) := by
  rw [escape]
  rcases hletter : escapeLetter c with _ | letter
  · obtain ⟨hquote, hslash⟩ := escapeLetter_eq_none hletter
    dsimp only
    split_ifs with hprint hbmp
    · have hval := printable_ofNat hprint
      exact wordFrom_inside (fun hc => hquote (by rw [← hval, hc]; rfl)) (fun hc => hslash (by rw [← hval, hc]; rfl)) h
    · exact wordFrom_unicodeEscape _ h
    · rw [List.append_assoc]
      exact wordFrom_unicodeEscape _ (wordFrom_unicodeEscape _ h)
  · exact ⟨by simp, by simp [Scan.next], h⟩

/-- **A JSON string is one word**, whatever it holds. -/
theorem word_dumps (s : PyStr) : Word (dumps s) := by
  refine ⟨by decide, ?_⟩
  rw [Scan.next, if_pos rfl]
  induction s with
  | nil => exact ⟨by decide, rfl⟩
  | cons c s ih =>
    rw [List.flatMap_cons, List.append_assoc]
    exact wordFrom_escape c ih

/-- The first word of a text is cut off whole. -/
theorem splitQuotedFrom_append {m : Scan} {w : List Char} (h : WordFrom m w) (cs : List Char) :
    splitQuotedFrom m (w ++ cs) = (splitQuoted cs).modifyHead (w ++ ·) := by
  induction w generalizing m with
  | nil =>
    rw [show m = .outside from h, List.nil_append]
    exact (congrFun List.modifyHead_id _).symm
  | cons c w ih =>
    rw [List.cons_append, splitQuotedFrom, if_neg h.1, ih h.2, List.modifyHead_modifyHead]
    rfl

/-- **Words joined by spaces are recovered.** -/
theorem splitQuoted_join {w : List Char} {ws : List (List Char)} (h : ∀ v ∈ w :: ws, Word v) :
    splitQuoted (w ++ ws.flatMap (' ' :: ·)) = w :: ws := by
  induction ws generalizing w with
  | nil =>
    rw [List.flatMap_nil, splitQuoted, splitQuotedFrom_append (h w (List.mem_singleton_self w)), splitQuoted,
      splitQuotedFrom, List.modifyHead_cons, List.append_nil]
  | cons v ws ih =>
    obtain ⟨hw, hws⟩ := List.forall_mem_cons.mp h
    rw [List.flatMap_cons, splitQuoted, splitQuotedFrom_append hw, List.cons_append, splitQuoted, splitQuotedFrom,
      if_pos ⟨rfl, rfl⟩, ← splitQuoted, ih hws, List.modifyHead_cons, List.append_nil]

end JsonText

end Machinery
