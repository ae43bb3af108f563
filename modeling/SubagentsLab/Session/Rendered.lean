import SubagentsLab.Session.Render

/-!
# Session/Rendered — what the browser reads

The text of `renderRuntime` is read as the page it is meant to be: every word said in the call is text on it, and the
elements are those of the templates (`templates`), with links to web pages only.

* `rendered_safe`: for every state of the page, whatever the server, the model and the people in the call have said.
-/

namespace SubagentsLab

open Machinery Markup

namespace Session

section Elements

variable (parseUrl : String → Option Url)

/-- The elements of the templates: their names, and the names of their attributes. -/
def templates : List (String × List String) :=
  [("main", ["class"]), ("section", ["class"]), ("div", ["class"]), ("article", ["class"]), ("h2", []),
    ("p", ["class"]), ("strong", []), ("span", ["class"]), ("ul", ["class"]), ("li", []),
    ("li", ["class", "data-work-status-key"]), ("a", ["href", "target", "rel"]), ("time", ["datetime", "title"]),
    ("details", []), ("details", ["class"]), ("summary", [])]

/-- An element of the templates; a link leads to a web page. -/
def Permitted (e : String × List (String × String)) : Prop :=
  (e.1, e.2.map Prod.fst) ∈ templates ∧
    ∀ a ∈ e.2, a.1 = "href" → ∃ value url, parseUrl value = some url ∧ url.Web ∧ a.2 = url.href

/-- Elements of the templates, and text. -/
def SafeMarkup (m : Html) : Prop := ∀ e ∈ m.elements, Permitted parseUrl e

variable {parseUrl}

@[simp] theorem safe_nil : SafeMarkup parseUrl .nil := fun _ he => absurd he List.not_mem_nil

@[simp] theorem safe_str (s : String) : SafeMarkup parseUrl (.str s) := fun _ he => absurd he List.not_mem_nil

@[simp] theorem safe_append {m n : Html} : SafeMarkup parseUrl (m ++ n) ↔ SafeMarkup parseUrl m ∧ SafeMarkup parseUrl n := by
  simp only [SafeMarkup, Html.elements_append, List.mem_append, or_imp, forall_and]

@[simp] theorem safe_el {tag : String} {attributes : List (String × String)} {body : Html} :
    SafeMarkup parseUrl (.el tag attributes body) ↔ Permitted parseUrl (tag, attributes) ∧ SafeMarkup parseUrl body := by
  simp only [SafeMarkup, Html.elements_el, List.mem_cons, forall_eq_or_imp]

theorem safe_concat {α : Type} {f : α → Html} (h : ∀ a, SafeMarkup parseUrl (f a)) (as : List α) :
    SafeMarkup parseUrl (.concat (as.map f)) := by
  intro e he
  obtain ⟨m, hm, he⟩ := Html.mem_elements_concat.mp he
  obtain ⟨a, -, rfl⟩ := List.mem_map.mp hm
  exact h a e he

theorem safe_elim {α : Type} {f : α → Html} (h : ∀ a, SafeMarkup parseUrl (f a)) (o : Option α) :
    SafeMarkup parseUrl (o.elim .nil f) := by
  cases o with
  | none => exact safe_nil
  | some a => exact h a

theorem safe_orMuted {α : Type} {f : α → Html} (h : ∀ a, SafeMarkup parseUrl (f a)) (as : List α) (word : String) :
    SafeMarkup parseUrl (Page.orMuted (as.map f) word) := by
  unfold Page.orMuted
  split_ifs
  · simp [Permitted, templates]
  · exact safe_concat h as

/-- **A link leads to a web page.** -/
theorem safe_links (citations : List Citation) : SafeMarkup parseUrl (Page.links parseUrl citations) := by
  refine safe_concat (fun citation => ?_) citations
  rcases hurl : (normalizeUrl parseUrl citation.url).filter (· ≠ "") with _ | url
  · exact safe_nil
  · obtain ⟨parsed, hparsed, hweb⟩ := Option.bind_eq_some_iff.mp (Option.filter_eq_some_iff.mp hurl).1
    split_ifs at hweb with hscheme
    have hhref : ∃ value found, parseUrl value = some found ∧ found.Web ∧ url = found.href :=
      ⟨citation.url, parsed, hparsed, hscheme, (Option.some.inj hweb).symm⟩
    simp [Permitted, templates, hhref]

variable (parseUrl) (formatDate : String → Option String) (state : PageState)

theorem safe_resultBody (result : NormalizedResult) (styleAnswerForDelivery : Bool) :
    SafeMarkup parseUrl (Page.resultBody parseUrl state result styleAnswerForDelivery) := by
  simp [Page.resultBody, Permitted, templates, safe_links]

theorem safe_projectionLabel (result : NormalizedResult) : SafeMarkup parseUrl (Page.projectionLabel state result) := by
  simp [Page.projectionLabel, Permitted, templates]

theorem safe_transcriptTurn (item : TranscriptEntry) :
    SafeMarkup parseUrl (Page.transcriptTurn parseUrl formatDate state item) := by
  have hlabel := safe_elim (safe_projectionLabel parseUrl state) (matchingResult state item)
  unfold Page.transcriptTurn
  dsimp only
  simp only [safe_el, safe_append, safe_str, hlabel, and_true]
  refine ⟨?_, ?_, safe_elim (fun result => ?_) _⟩
  all_goals simp [Permitted, templates, safe_resultBody]

theorem safe_workStatusLog : SafeMarkup parseUrl (Page.workStatusLog state) := by
  have hreason (reason : TerminalReason) : SafeMarkup parseUrl (.str " (" ++ .str reason.name ++ .str ")") := by simp
  have hitem (entry : String × StampedStatus) : SafeMarkup parseUrl (Page.workStatusItem entry) := by
    simp [Page.workStatusItem, Permitted, templates, safe_elim hreason]
  unfold Page.workStatusLog
  dsimp only
  split_ifs
  · exact safe_nil
  · simp [Permitted, templates, safe_concat hitem]

theorem safe_workerCard (worker : WorkerState) : SafeMarkup parseUrl (Page.workerCard state worker) := by
  unfold Page.workerCard
  dsimp only
  split_ifs <;> simp [Permitted, templates]

theorem safe_resultEntry (result : NormalizedResult) : SafeMarkup parseUrl (Page.resultEntry parseUrl state result) := by
  simp [Page.resultEntry, Page.resultCard, Permitted, templates, safe_resultBody]

theorem safe_runtime : SafeMarkup parseUrl (Page.runtime parseUrl formatDate state) := by
  have htranscript := safe_orMuted (safe_transcriptTurn parseUrl formatDate state)
  have hworkers := safe_orMuted (safe_workerCard parseUrl state)
  have hresults := safe_orMuted (safe_resultEntry parseUrl state)
  simp [Page.runtime, Permitted, templates, htranscript, hworkers, hresults, safe_workStatusLog]

theorem templates_named : ∀ t ∈ templates, IsName t.1 ∧ ∀ name ∈ t.2, IsName name := by decide

variable {parseUrl}

theorem SafeMarkup.named {m : Html} (h : SafeMarkup parseUrl m) : m.Named := by
  intro e he
  obtain ⟨hname, hattributes⟩ := templates_named _ (h e he).1
  exact ⟨hname, fun a ha => hattributes a.1 (List.mem_map_of_mem ha)⟩

end Elements

/-- **Nothing that is said becomes markup.**  Whatever the state of the page, the text that goes into `innerHTML` is read
as the page: what is data in it is text and attribute values again, as it was, and the elements are those of the
templates, with links to `http:` and `https:` addresses only.  (As it was, up to what a browser does to any text it
parses: a carriage return becomes a newline, and a NUL is dropped or replaced.) -/
theorem rendered_safe (parseUrl : String → Option Url) (formatDate : String → Option String) (state : PageState) :
    Markup.read (renderRuntime parseUrl formatDate state) = some (Page.runtime parseUrl formatDate state).normal ∧
      ∀ e ∈ (Page.runtime parseUrl formatDate state).normal.elements, Permitted parseUrl e := by
  have hsafe := safe_runtime parseUrl formatDate state
  rw [renderRuntime_eq, Html.elements_normal]
  exact ⟨read_html hsafe.named, hsafe⟩

end Session

end SubagentsLab
