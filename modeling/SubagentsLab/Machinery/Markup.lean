import Mathlib.Data.List.Basic

/-!
# Machinery/Markup — text with elements in it

`Html` is text and elements, their attributes in double quotes.  `Html.html` writes it out, and everything in it
that is data goes through `escape`; `read` reads a text back, its characters into tokens (`tokenize`) and the tokens
into a tree (`build`), and refuses what is not properly nested.

* `read_html`: what is read from what is written is what was written, each stretch of text in one piece.
-/

namespace Machinery

namespace Markup

/-! ## Character references -/

/-- The name a character is referred to by. -/
def reference : Char → Option (List Char)
  | '&' => some ['a', 'm', 'p']
  | '<' => some ['l', 't']
  | '>' => some ['g', 't']
  | '"' => some ['q', 'u', 'o', 't']
  | '\'' => some ['#', '3', '9']
  | _ => none

/-- The characters that are referred to by name. -/
def referred : List Char := ['&', '<', '>', '"', '\'']

/-- The character of a name. -/
def named (name : List Char) : Option Char := referred.find? (reference · = some name)

theorem reference_eq_none {c : Char} (h : c ∉ referred) : reference c = none := by
  simp only [referred, List.mem_cons, List.not_mem_nil, or_false, not_or] at h
  obtain ⟨hamp, hlt, hgt, hquot, hapos⟩ := h
  unfold reference
  split <;> first | rfl | contradiction

/-- A character in the text of a document. -/
def escapeChar (c : Char) : List Char :=
  match reference c with
  | none => [c]
  | some name => '&' :: (name ++ [';'])

/-- Data in the text of a document. -/
def escape (cs : List Char) : List Char := cs.flatMap escapeChar

@[simp] theorem escape_nil : escape [] = [] := rfl

@[simp] theorem escape_cons (c : Char) (cs : List Char) : escape (c :: cs) = escapeChar c ++ escape cs := rfl

@[simp] theorem escape_append (cs ds : List Char) : escape (cs ++ ds) = escape cs ++ escape ds := List.flatMap_append

/-- A text without special characters stands for itself. -/
theorem escape_eq_self {cs : List Char} (h : ∀ c ∈ cs, c ∉ referred) : escape cs = cs := by
  induction cs with
  | nil => rfl
  | cons c cs ih =>
    rw [escape_cons, ih fun d hd => h d (List.mem_cons_of_mem _ hd), escapeChar,
      reference_eq_none (h c List.mem_cons_self), List.singleton_append]

/-- What ends a text or a quoted value stands in no escaped data. -/
theorem special_notMem_escape {c : Char} (hc : c = '<' ∨ c = '"') (cs : List Char) : c ∉ escape cs := by
  rw [escape, List.mem_flatMap]
  rintro ⟨d, -, hmem⟩
  by_cases hd : d ∈ referred
  · simp only [referred, List.mem_cons, List.not_mem_nil, or_false] at hd
    rcases hc with rfl | rfl <;> rcases hd with rfl | rfl | rfl | rfl | rfl <;> revert hmem <;> decide
  · rw [escapeChar, reference_eq_none hd, List.mem_singleton] at hmem
    subst hmem
    exact hd (by rcases hc with rfl | rfl <;> decide)

/-- What a reader makes of references; `pending` is the name of one it is inside of. -/
def expand : Option (List Char) → List Char → List Char
  | none, [] => []
  | none, c :: cs => if c = '&' then expand (some []) cs else c :: expand none cs
  | some name, [] => '&' :: name
  | some name, c :: cs =>
    if c = ';' then ((named name).elim ('&' :: (name ++ [';'])) fun d => [d]) ++ expand none cs
    else expand (some (name ++ [c])) cs

/-- The data of a text. -/
def unescape (cs : List Char) : List Char := expand none cs

theorem expand_name {name : List Char} (h : ';' ∉ name) (before cs : List Char) :
    expand (some before) (name ++ ';' :: cs) = expand (some (before ++ name)) (';' :: cs) := by
  induction name generalizing before with
  | nil => rw [List.append_nil, List.nil_append]
  | cons c name ih =>
    obtain ⟨hc, hname⟩ := List.ne_and_not_mem_of_not_mem_cons h
    rw [List.cons_append, expand, if_neg hc.symm, ih hname, List.append_assoc, List.singleton_append]

/-- What `reference` names is what the name stands for. -/
theorem reference_spec {c : Char} {name : List Char} (h : reference c = some name) :
    ';' ∉ name ∧ named name = some c := by
  have hc : c ∈ referred := by
    by_contra hc
    rw [reference_eq_none hc] at h
    cases h
  simp only [referred, List.mem_cons, List.not_mem_nil, or_false] at hc
  rcases hc with rfl | rfl | rfl | rfl | rfl <;> obtain rfl := Option.some.inj h <;> decide

theorem expand_escapeChar (c : Char) (cs : List Char) : expand none (escapeChar c ++ cs) = c :: expand none cs := by
  rcases hc : reference c with _ | name
  · have hne : c ≠ '&' := by
      rintro rfl
      cases hc
    rw [escapeChar, hc, List.singleton_append, expand, if_neg hne]
  · obtain ⟨hname, hnamed⟩ := reference_spec hc
    rw [escapeChar, hc]
    simp only [List.cons_append, List.append_assoc, expand, if_pos]
    rw [expand_name hname, expand, if_pos rfl, List.nil_append, hnamed]
    rfl

/-- **Escaping loses nothing.** -/
@[simp] theorem unescape_escape (cs : List Char) : unescape (escape cs) = cs := by
  induction cs with
  | nil => rfl
  | cons c cs ih => rw [escape_cons, unescape, expand_escapeChar, ← unescape, ih]

/-! ## Tokens -/

/-- What the characters of a document are read as. -/
inductive Token
  | startTag (tag : String) (attributes : List (String × String))
  | endTag (tag : String)
  | text (s : String)
  deriving DecidableEq, Repr

/-- A character of a name. -/
def nameChar (c : Char) : Bool := c.isLower || c.isDigit || c = '-'

/-- A name of an element or of an attribute. -/
def IsName (s : String) : Prop := s.toList ≠ [] ∧ (s.toList.head?.any Char.isLower) ∧ s.toList.all nameChar

instance (s : String) : Decidable (IsName s) := inferInstanceAs (Decidable (_ ∧ _))

/-- Where a reader is. -/
inductive Mode
  | text (raw : List Char)
  | tagOpen
  | tagName (tag : List Char)
  | endTagName (tag : List Char)
  | attributes (tag : List Char) (attributes : List (String × String))
  | attributeName (tag : List Char) (attributes : List (String × String)) (name : List Char)
  | beforeValue (tag : List Char) (attributes : List (String × String)) (name : List Char)
  | value (tag : List Char) (attributes : List (String × String)) (name raw : List Char)

/-- The stretch of text read so far. -/
def flush (s : List Char) : List Token := if s = [] then [] else [.text (.ofList s)]

/-- What a reader makes of the next character: where it is after it, and what it has found. -/
def Mode.next : Mode → Char → Option (Mode × List Token)
  | text raw, c => some (if c = '<' then (tagOpen, flush (unescape raw)) else (text (raw ++ [c]), []))
  | tagOpen, c =>
    if c = '/' then some (endTagName [], [])
    else if c.isLower then some (tagName [c], [])
    else none
  | tagName tag, c =>
    if c = '>' then some (text [], [.startTag (.ofList tag) []])
    else if c = ' ' then some (attributes tag [], [])
    else if nameChar c then some (tagName (tag ++ [c]), [])
    else none
  | endTagName tag, c =>
    if c = '>' then some (text [], [.endTag (.ofList tag)])
    else if nameChar c then some (endTagName (tag ++ [c]), [])
    else none
  | attributes tag found, c =>
    if c = '>' then some (text [], [.startTag (.ofList tag) found])
    else if c = ' ' then some (attributes tag found, [])
    else if nameChar c then some (attributeName tag found [c], [])
    else none
  | attributeName tag found name, c =>
    if c = '=' then some (beforeValue tag found name, [])
    else if nameChar c then some (attributeName tag found (name ++ [c]), [])
    else none
  | beforeValue tag found name, c => if c = '"' then some (value tag found name [], []) else none
  | value tag found name raw, c =>
    some (if c = '"' then (attributes tag (found ++ [(.ofList name, .ofList (unescape raw))]), [])
      else (value tag found name (raw ++ [c]), []))

/-- The tokens a reader finds in the rest of a document, if it can be read. -/
def scan : Mode → List Char → Option (List Token)
  | .text raw, [] => some (flush (unescape raw))
  | _, [] => none
  | m, c :: cs => (m.next c).bind fun r => (scan r.1 cs).map (r.2 ++ ·)

/-- The tokens of a document. -/
def tokenize (s : String) : Option (List Token) := scan (.text []) s.toList

theorem scan_cons {m m' : Mode} {c : Char} {found : List Token} (h : m.next c = some (m', found)) (cs : List Char) :
    scan m (c :: cs) = (scan m' cs).map (found ++ ·) := by
  rw [scan, h, Option.bind_some]

theorem scan_silent {m : Mode} {c : Char} (m' : Mode) (h : m.next c = some (m', [])) (cs : List Char) :
    scan m (c :: cs) = scan m' cs := by
  rw [scan_cons h]
  exact Option.map_id'

/-- A reader that takes the characters of a word one by one, and finds nothing, takes the word. -/
theorem scan_word (pos : List Char → Mode) {word : List Char}
    (h : ∀ c ∈ word, ∀ before, (pos before).next c = some (pos (before ++ [c]), [])) (before cs : List Char) :
    scan (pos before) (word ++ cs) = scan (pos (before ++ word)) cs := by
  induction word generalizing before with
  | nil => rw [List.append_nil, List.nil_append]
  | cons c word ih =>
    rw [List.cons_append, scan_silent _ (h c List.mem_cons_self before),
      ih (fun d hd => h d (List.mem_cons_of_mem _ hd)), List.append_assoc, List.singleton_append]

theorem scan_text (data before cs : List Char) :
    scan (.text before) (escape data ++ cs) = scan (.text (before ++ escape data)) cs := by
  refine scan_word .text (fun c hc before => ?_) before cs
  have hne : c ≠ '<' := by
    rintro rfl
    exact special_notMem_escape (Or.inl rfl) data hc
  rw [Mode.next, if_neg hne]

theorem scan_value (tag : List Char) (found : List (String × String)) (name data cs : List Char) :
    scan (.value tag found name []) (escape data ++ '"' :: cs)
      = scan (.attributes tag (found ++ [(.ofList name, .ofList data)])) cs := by
  have hstep : ∀ c ∈ escape data, ∀ before,
      (Mode.value tag found name before).next c = some (.value tag found name (before ++ [c]), []) := by
    intro c hc before
    have hne : c ≠ '"' := by
      rintro rfl
      exact special_notMem_escape (Or.inr rfl) data hc
    rw [Mode.next, if_neg hne]
  rw [scan_word _ hstep, List.nil_append, scan_silent _ (by rw [Mode.next, if_pos rfl]), unescape_escape]

theorem IsName.nameChar {s : String} (h : IsName s) {c : Char} (hc : c ∈ s.toList) : nameChar c = true :=
  List.all_eq_true.mp h.2.2 c hc

/-- No name has in it what can come after one. -/
theorem IsName.ne {s : String} (h : IsName s) {c d : Char} (hc : c ∈ s.toList) (hd : Markup.nameChar d = false) :
    c ≠ d := by
  rintro rfl
  rw [h.nameChar hc] at hd
  cases hd

theorem IsName.cons {s : String} (h : IsName s) :
    ∃ c cs, s.toList = c :: cs ∧ c.isLower = true ∧ ∀ d ∈ c :: cs, Markup.nameChar d = true := by
  obtain ⟨c, cs, hs⟩ := List.exists_cons_of_ne_nil h.1
  refine ⟨c, cs, hs, ?_, ?_⟩
  · simpa [hs] using h.2.1
  · rw [← hs]
    exact fun d => h.nameChar

/-! ## Documents -/

/-- The content of an element: text, and elements with content of their own. -/
inductive Html
  | nil
  | text (s : String) (rest : Html)
  | element (tag : String) (attributes : List (String × String)) (body rest : Html)
  deriving DecidableEq, Repr

namespace Html

/-- One content after another. -/
def append : Html → Html → Html
  | nil, m => m
  | text s rest, m => text s (rest.append m)
  | element tag attributes body rest, m => element tag attributes body (rest.append m)

instance : Append Html := ⟨append⟩

@[simp] theorem nil_append (m : Html) : nil ++ m = m := rfl

@[simp] theorem text_append (s : String) (rest m : Html) : text s rest ++ m = text s (rest ++ m) := rfl

@[simp] theorem element_append (tag : String) (attributes : List (String × String)) (body rest m : Html) :
    element tag attributes body rest ++ m = element tag attributes body (rest ++ m) := rfl

@[simp] theorem append_nil (m : Html) : m ++ nil = m := by
  induction m with
  | nil => rfl
  | text s rest ih => rw [text_append, ih]
  | element tag attributes body rest _ ih => rw [element_append, ih]

theorem append_assoc (m n k : Html) : m ++ n ++ k = m ++ (n ++ k) := by
  induction m with
  | nil => rfl
  | text s rest ih => rw [text_append, text_append, text_append, ih]
  | element tag attributes body rest _ ih => rw [element_append, element_append, element_append, ih]

/-- Some text. -/
def str (s : String) : Html := text s nil

/-- One element. -/
def el (tag : String) (attributes : List (String × String)) (body : Html) : Html := element tag attributes body nil

/-- The contents of a list, one after another. -/
def concat (ms : List Html) : Html := ms.foldr (· ++ ·) nil

/-- An attribute, as it is written. -/
def assignment (a : String × String) : String := " " ++ a.1 ++ "=\"" ++ .ofList (escape a.2.toList) ++ "\""

theorem assignment_append (a : String × String) (cs : List Char) :
    (assignment a).toList ++ cs = ' ' :: (a.1.toList ++ '=' :: '"' :: (escape a.2.toList ++ '"' :: cs)) := by
  simp [assignment]

/-- The document. -/
def html : Html → String
  | nil => ""
  | text s rest => .ofList (escape s.toList) ++ rest.html
  | element tag attributes body rest =>
    "<" ++ tag ++ String.join (attributes.map assignment) ++ ">" ++ body.html ++ "</" ++ tag ++ ">" ++ rest.html

theorem html_element_append (tag : String) (attributes : List (String × String)) (body rest : Html) (cs : List Char) :
    (element tag attributes body rest).html.toList ++ cs
      = '<' :: (tag.toList ++ ((String.join (attributes.map assignment)).toList ++
          '>' :: (body.html.toList ++ '<' :: '/' :: (tag.toList ++ '>' :: (rest.html.toList ++ cs))))) := by
  simp [html]

/-- The elements, the outer ones first. -/
def elements : Html → List (String × List (String × String))
  | nil => []
  | text _ rest => rest.elements
  | element tag attributes body rest => (tag, attributes) :: (body.elements ++ rest.elements)

/-- Elements and attributes have names. -/
def Named (m : Html) : Prop := ∀ e ∈ m.elements, IsName e.1 ∧ ∀ a ∈ e.2, IsName a.1

/-- The tokens. -/
def tokens : Html → List Token
  | nil => []
  | text s rest => .text s :: rest.tokens
  | element tag attributes body rest => .startTag tag attributes :: (body.tokens ++ .endTag tag :: rest.tokens)

/-- A stretch of text. -/
def ofText (s : String) : Html := if s = "" then nil else text s nil

/-- Each stretch of text in one piece; `before` is the one that goes on. -/
def normalFrom : String → Html → Html
  | before, nil => ofText before
  | before, text s rest => normalFrom (before ++ s) rest
  | before, element tag attributes body rest =>
    ofText before ++ element tag attributes (normalFrom "" body) (normalFrom "" rest)

/-- The content as it is read back: each stretch of text in one piece. -/
def normal (m : Html) : Html := normalFrom "" m

@[simp] theorem html_append (m n : Html) : (m ++ n).html = m.html ++ n.html := by
  induction m with
  | nil => rw [nil_append, html, String.empty_append]
  | text s rest ih => rw [text_append, html, html, ih, String.append_assoc]
  | element tag attributes body rest _ ih =>
    rw [element_append, html, html, ih]
    simp only [String.append_assoc]

theorem html_str (s : String) : (str s).html = .ofList (escape s.toList) := String.append_empty

@[simp] theorem html_el (tag : String) (attributes : List (String × String)) (body : Html) :
    (el tag attributes body).html
      = "<" ++ tag ++ String.join (attributes.map assignment) ++ ">" ++ body.html ++ "</" ++ tag ++ ">" :=
  String.append_empty

@[simp] theorem elements_nil : nil.elements = [] := rfl

@[simp] theorem elements_str (s : String) : (str s).elements = [] := rfl

@[simp] theorem elements_el (tag : String) (attributes : List (String × String)) (body : Html) :
    (el tag attributes body).elements = (tag, attributes) :: body.elements :=
  congrArg _ (List.append_nil _)

@[simp] theorem elements_append (m n : Html) : (m ++ n).elements = m.elements ++ n.elements := by
  induction m with
  | nil => rfl
  | text s rest ih => rw [text_append, elements, elements, ih]
  | element tag attributes body rest _ ih =>
    rw [element_append, elements, elements, ih, List.cons_append, List.append_assoc]

@[simp] theorem elements_ofText (s : String) : (ofText s).elements = [] := by
  unfold ofText
  split_ifs <;> rfl

theorem elements_normalFrom (m : Html) (before : String) : (normalFrom before m).elements = m.elements := by
  induction m generalizing before with
  | nil => exact elements_ofText before
  | text s rest ih => rw [normalFrom, ih, elements]
  | element tag attributes body rest ihbody ihrest =>
    rw [normalFrom, elements_append, elements_ofText, elements, elements, ihbody, ihrest, List.nil_append]

/-- Text in one piece or in several, the elements are the same. -/
@[simp] theorem elements_normal (m : Html) : m.normal.elements = m.elements := elements_normalFrom m ""

theorem html_concat (ms : List Html) : (concat ms).html = String.join (ms.map html) := by
  induction ms with
  | nil => rfl
  | cons m ms ih => rw [concat, List.foldr_cons, html_append, ← concat, ih, List.map_cons, String.join_cons]

theorem mem_elements_concat {ms : List Html} {e : String × List (String × String)} :
    e ∈ (concat ms).elements ↔ ∃ m ∈ ms, e ∈ m.elements := by
  induction ms with
  | nil => simp [concat]
  | cons m ms ih =>
    rw [concat, List.foldr_cons, elements_append, ← concat, List.mem_append, ih]
    simp only [List.mem_cons, exists_eq_or_imp]

/-! ## Reading back -/

theorem Named.rest_of_text {s : String} {rest : Html} (h : (text s rest).Named) : rest.Named := h

theorem Named.element {tag : String} {attributes : List (String × String)} {body rest : Html}
    (h : (Html.element tag attributes body rest).Named) :
    (IsName tag ∧ ∀ a ∈ attributes, IsName a.1) ∧ body.Named ∧ rest.Named :=
  ⟨h _ List.mem_cons_self, fun e he => h e (List.mem_cons_of_mem _ (List.mem_append_left _ he)),
    fun e he => h e (List.mem_cons_of_mem _ (List.mem_append_right _ he))⟩

end Html

theorem scan_assignments (tag : List Char) {attributes : List (String × String)} (h : ∀ a ∈ attributes, IsName a.1)
    (found : List (String × String)) (cs : List Char) :
    scan (.attributes tag found) ((String.join (attributes.map Html.assignment)).toList ++ cs)
      = scan (.attributes tag (found ++ attributes)) cs := by
  induction attributes generalizing found with
  | nil => rw [List.append_nil, List.map_nil, String.join_nil, String.toList_empty, List.nil_append]
  | cons a attributes ih =>
    have hname := h a List.mem_cons_self
    obtain ⟨c, name, hcs, -, hall⟩ := hname.cons
    have hne : c ≠ '>' ∧ c ≠ ' ' := by
      have hc : c ∈ a.1.toList := by rw [hcs]; exact List.mem_cons_self
      exact ⟨hname.ne hc rfl, hname.ne hc rfl⟩
    have hword := scan_word (Mode.attributeName tag found) (fun d hd before => by
      have hd' : d ∈ a.1.toList := by rw [hcs]; exact List.mem_cons_of_mem _ hd
      rw [Mode.next, if_neg (hname.ne hd' rfl), if_pos (hname.nameChar hd')]) [c]
    rw [List.map_cons, String.join_cons, String.toList_append, List.append_assoc, Html.assignment_append, hcs,
      List.cons_append,
      scan_silent (.attributes tag found) (by rw [Mode.next, if_neg (by decide), if_pos rfl]),
      scan_silent (.attributeName tag found [c])
        (by rw [Mode.next, if_neg hne.1, if_neg hne.2, if_pos (hall c List.mem_cons_self)]),
      hword, List.singleton_append, ← hcs,
      scan_silent (.beforeValue tag found a.1.toList) (by rw [Mode.next, if_pos rfl]),
      scan_silent (.value tag found a.1.toList []) (by rw [Mode.next, if_pos rfl]), scan_value,
      String.ofList_toList, String.ofList_toList, ih fun b hb => h b (List.mem_cons_of_mem _ hb), List.append_assoc,
      List.singleton_append]

theorem scan_attributes (tag : List Char) {attributes : List (String × String)} (h : ∀ a ∈ attributes, IsName a.1)
    (cs : List Char) :
    scan (.tagName tag) ((String.join (attributes.map Html.assignment)).toList ++ '>' :: cs)
      = (scan (.text []) cs).map (.startTag (.ofList tag) attributes :: ·) := by
  cases attributes with
  | nil =>
    have hclose : (Mode.tagName tag).next '>' = some (.text [], [.startTag (.ofList tag) []]) := by
      rw [Mode.next, if_pos rfl]
    rw [List.map_nil, String.join_nil, String.toList_empty, List.nil_append]
    exact scan_cons hclose cs
  | cons a attributes =>
    -- the first space ends the name of the tag, the others stand between attributes
    have hspace (cs : List Char) : scan (.tagName tag) (' ' :: cs) = scan (.attributes tag []) (' ' :: cs) := by
      rw [scan_silent (.attributes tag []) (by rw [Mode.next, if_neg (by decide), if_pos rfl]),
        scan_silent (.attributes tag []) (by rw [Mode.next, if_neg (by decide), if_pos rfl])]
    have hall := scan_assignments tag h [] ('>' :: cs)
    rw [List.map_cons, String.join_cons, String.toList_append, List.append_assoc, Html.assignment_append] at hall ⊢
    have hclose : (Mode.attributes tag (a :: attributes)).next '>'
        = some (.text [], [.startTag (.ofList tag) (a :: attributes)]) := by
      rw [Mode.next, if_pos rfl]
    rw [hspace, hall, List.nil_append]
    exact scan_cons hclose cs

/-- A start tag, as it is written. -/
theorem scan_startTag {tag : String} (htag : IsName tag) {attributes : List (String × String)}
    (h : ∀ a ∈ attributes, IsName a.1) (before : String) (cs : List Char) :
    scan (.text (escape before.toList))
        ('<' :: (tag.toList ++ ((String.join (attributes.map Html.assignment)).toList ++ '>' :: cs)))
      = (scan (.text []) cs).map (flush before.toList ++ .startTag tag attributes :: ·) := by
  obtain ⟨c, name, hcs, hlower, -⟩ := htag.cons
  have hne : c ≠ '/' := by
    rintro rfl
    cases hlower
  have hstep : ∀ d ∈ name, ∀ before, (Mode.tagName before).next d = some (.tagName (before ++ [d]), []) := by
    intro d hd before
    have hd' : d ∈ tag.toList := by
      rw [hcs]
      exact List.mem_cons_of_mem _ hd
    rw [Mode.next, if_neg (htag.ne hd' rfl), if_neg (htag.ne hd' rfl), if_pos (htag.nameChar hd')]
  have hopen : (Mode.text (escape before.toList)).next '<' = some (.tagOpen, flush before.toList) := by
    rw [Mode.next, if_pos rfl, unescape_escape]
  rw [scan_cons hopen, hcs, List.cons_append,
    scan_silent (.tagName [c]) (by rw [Mode.next, if_neg hne, if_pos hlower]), scan_word _ hstep,
    List.singleton_append, ← hcs, scan_attributes _ h, Option.map_map, String.ofList_toList]
  rfl

/-- An end tag, as it is written. -/
theorem scan_endTag {tag : String} (htag : IsName tag) (before : String) (cs : List Char) :
    scan (.text (escape before.toList)) ('<' :: '/' :: (tag.toList ++ '>' :: cs))
      = (scan (.text []) cs).map (flush before.toList ++ .endTag tag :: ·) := by
  have hstep : ∀ d ∈ tag.toList, ∀ before,
      (Mode.endTagName before).next d = some (.endTagName (before ++ [d]), []) := by
    intro d hd before
    rw [Mode.next, if_neg (htag.ne hd rfl), if_pos (htag.nameChar hd)]
  have hopen : (Mode.text (escape before.toList)).next '<' = some (.tagOpen, flush before.toList) := by
    rw [Mode.next, if_pos rfl, unescape_escape]
  have hclose : (Mode.endTagName tag.toList).next '>' = some (.text [], [.endTag tag]) := by
    rw [Mode.next, if_pos rfl, String.ofList_toList]
  rw [scan_cons hopen, scan_silent (.endTagName []) (by rw [Mode.next, if_pos rfl]), scan_word _ hstep,
    List.nil_append, scan_cons hclose, Option.map_map]
  rfl

namespace Html

/-- The text at the end of a content; `before` is the text that goes on. -/
def trailing : String → Html → String
  | before, nil => before
  | before, text s rest => trailing (before ++ s) rest
  | _, element _ _ _ rest => trailing "" rest

/-- The tokens of a content, each stretch of text in one piece, but for the text at its end. -/
def leading : String → Html → List Token
  | _, nil => []
  | before, text s rest => leading (before ++ s) rest
  | before, element tag attributes body rest =>
    flush before.toList ++ .startTag tag attributes ::
      (leading "" body ++ (flush (trailing "" body).toList ++ .endTag tag :: leading "" rest))

/-- **What is written is read token by token**, and the text at its end goes on. -/
theorem scan_html {m : Html} (h : m.Named) (before : String) (cs : List Char) :
    scan (.text (escape before.toList)) (m.html.toList ++ cs)
      = (scan (.text (escape (trailing before m).toList)) cs).map (leading before m ++ ·) := by
  induction m generalizing before cs with
  | nil => exact Option.map_id'.symm
  | text s rest ih =>
    rw [html, String.toList_append, String.toList_ofList, List.append_assoc, scan_text, ← escape_append,
      ← String.toList_append, ih h.rest_of_text]
    rfl
  | element tag attributes body rest ihbody ihrest =>
    obtain ⟨⟨htag, hattributes⟩, hbody, hrest⟩ := h.element
    have hstart := scan_startTag htag hattributes before
    have hend := scan_endTag htag (trailing "" body)
    have hinner := ihbody hbody ""
    have hafter := ihrest hrest "" cs
    rw [String.toList_empty, escape_nil] at hinner hafter
    rw [html_element_append, hstart, hinner, hend, hafter]
    simp only [Option.map_map, leading, trailing, List.append_assoc, List.cons_append]
    rfl

@[simp] theorem tokens_append (m n : Html) : (m ++ n).tokens = m.tokens ++ n.tokens := by
  induction m with
  | nil => rfl
  | text s rest ih => rw [text_append, tokens, tokens, ih, List.cons_append]
  | element tag attributes body rest _ ih =>
    rw [element_append, tokens, tokens, ih, List.cons_append, List.append_assoc, List.cons_append]

theorem tokens_ofText (s : String) : (ofText s).tokens = flush s.toList := by
  unfold ofText flush
  rcases eq_or_ne s "" with rfl | hs
  · rfl
  · rw [if_neg hs, if_neg (mt String.toList_eq_nil_iff.mp hs), String.ofList_toList]
    rfl

theorem tokens_normalFrom (m : Html) (before : String) :
    (normalFrom before m).tokens = leading before m ++ flush (trailing before m).toList := by
  induction m generalizing before with
  | nil => exact tokens_ofText before
  | text s rest ih => exact ih (before ++ s)
  | element tag attributes body rest ihbody ihrest =>
    rw [normalFrom, tokens_append, tokens_ofText, tokens, ihbody, ihrest, leading, trailing]
    simp only [List.append_assoc, List.cons_append]

/-- **The tokens of a document** are those of its content. -/
theorem tokenize_html {m : Html} (h : m.Named) : tokenize m.html = some m.normal.tokens := by
  have hscan := scan_html h "" []
  rw [List.append_nil, String.toList_empty, escape_nil] at hscan
  rw [tokenize, hscan, normal, tokens_normalFrom, scan, unescape_escape, Option.map_some]

end Html

/-! ## The tree -/

/-- An element whose end tag has not come yet: its name, its attributes and what stands before it. -/
structure Unclosed where
  tag : String
  attributes : List (String × String)
  before : Html

/-- The tree of a list of tokens, if they nest: `here` is the content read so far, of the innermost of the elements
that are not closed. -/
def build : List Unclosed → Html → List Token → Option Html
  | [], here, [] => some here
  | _ :: _, _, [] => none
  | outer, here, .text s :: ts => build outer (here ++ .text s .nil) ts
  | outer, here, .startTag tag attributes :: ts => build (⟨tag, attributes, here⟩ :: outer) .nil ts
  | [], _, .endTag _ :: _ => none
  | e :: outer, here, .endTag tag :: ts =>
    if e.tag = tag then build outer (e.before ++ .element tag e.attributes here .nil) ts else none

/-- What is read from a document, if it is text and elements that nest. -/
def read (s : String) : Option Html := (tokenize s).bind (build [] .nil)

/-- The tokens of a content are read as that content. -/
theorem build_tokens (m : Html) (outer : List Unclosed) (here : Html) (ts : List Token) :
    build outer here (m.tokens ++ ts) = build outer (here ++ m) ts := by
  induction m generalizing outer here ts with
  | nil => rw [Html.append_nil, Html.tokens, List.nil_append]
  | text s rest ih =>
    rw [Html.tokens, List.cons_append, build, ih, Html.append_assoc, Html.text_append, Html.nil_append]
  | element tag attributes body rest ihbody ihrest =>
    rw [Html.tokens, List.cons_append, List.append_assoc, build, ihbody, Html.nil_append, List.cons_append, build,
      if_pos rfl, ihrest, Html.append_assoc, Html.element_append, Html.nil_append]

/-- **What is written is read back**, each stretch of text in one piece. -/
theorem read_html {m : Html} (h : m.Named) : read m.html = some m.normal := by
  have hbuild := build_tokens m.normal [] .nil []
  rw [List.append_nil, Html.nil_append] at hbuild
  rw [read, Html.tokenize_html h, Option.bind_some, hbuild, build]

end Markup

end Machinery
