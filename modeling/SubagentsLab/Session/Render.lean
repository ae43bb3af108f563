import SubagentsLab.Machinery.Markup
import SubagentsLab.Session.App
import SubagentsLab.Session.Wire

/-!
# Session/Render — the page, as text and as it is read

`renderRuntime` of `web/src/render.js` writes the page out as text, which the browser reads: what the server, the
model and the people in the call have said stands in it between the tags of the templates.  `Page` is the page
itself, elements and text; the two agree (`renderRuntime_eq`).
-/

namespace SubagentsLab

open Machinery Markup

namespace Session

/-! ## The templates -/

/-- `escape`. -/
def escape (value : String) : String := .ofList (Markup.escape value.toList)

/-- What `new URL` makes of a text. -/
structure Url where
  protocol : String
  href : String
  deriving DecidableEq, Repr

/-- The schemes a link may have. -/
def Url.Web (url : Url) : Prop := url.protocol = "http:" ∨ url.protocol = "https:"

instance (url : Url) : Decidable url.Web := inferInstanceAs (Decidable (_ ∨ _))

/-- `normalizeUrl`. -/
def normalizeUrl (parseUrl : String → Option Url) (value : String) : Option String :=
  (parseUrl value).bind fun url => if url.Web then some url.href else none

/-- `a || b`, of texts. -/
def orText (a b : String) : String := if a = "" then b else a

/-- The number of a key JavaScript takes for an array index. -/
def arrayIndex (key : String) : Option ℕ :=
  let n := key.toList.foldl (fun n c => 10 * n + (c.toNat - '0'.toNat)) 0
  if toString n = key ∧ n < 2 ^ 32 - 1 then some n else none

/-- `Object.entries`: array indices come first, by their number. -/
def objectEntries {α : Type} (d : Dict String α) : List (String × α) :=
  let indexed := d.entries.filter fun entry => (arrayIndex entry.1).isSome
  indexed.mergeSort (fun a b => (arrayIndex a.1).getD 0 ≤ (arrayIndex b.1).getD 0) ++
    d.entries.filter fun entry => (arrayIndex entry.1).isNone

section Templates

variable (parseUrl : String → Option Url) (formatDate : String → Option String) (state : PageState)

/-- The view that is rendered. -/
def PageState.view : View := state.browser.view

/-- `links`. -/
def links (citations : List Citation) : String :=
  String.join (citations.map fun citation =>
    match (normalizeUrl parseUrl citation.url).filter (· ≠ "") with
    | none => ""
    | some url =>
      s!"<li><a href=\"{escape url}\" target=\"_blank\" rel=\"noopener noreferrer\">" ++
        s!"{escape (orText citation.title url)}</a></li>")

/-- `formatTimestamp`. -/
def formatTimestamp (value : String) : String := (formatDate value).getD "time unknown"

/-- `deliveryFor`. -/
def deliveryFor (result : NormalizedResult) : DeliveryState :=
  (((objectEntries state.view.speech).map Prod.snd).find? (·.resultId = result.resultId)).elim .displayed (·.state)

/-- `incomplete`, of what `deliveryFor` returns. -/
def incomplete (deliveryState : DeliveryState) : Bool := deliveryState ≠ .deliveryCompleted

/-- The text of a result, on the page. -/
def NormalizedResult.shown (result : NormalizedResult) : String := orText result.uiText result.text

/-- `resultBody`. -/
def resultBody (result : NormalizedResult) (styleAnswerForDelivery : Bool) : String :=
  let deliveryState := deliveryFor state result
  let incomplete := incomplete deliveryState
  let answerIncomplete := styleAnswerForDelivery && incomplete
  let answerClass := if answerIncomplete then "answer unspoken" else "answer"
  let deliveryClass := if incomplete then "unspoken incomplete" else ""
  let delivery :=
    if incomplete then " — speech delivery incomplete or unconfirmed"
    else " — server transport completed; not proof of browser audibility"
  s!"<p class=\"{answerClass}\">{escape result.shown}</p>" ++
    s!"<p class=\"delivery {deliveryClass}\">{escape deliveryState.name}{delivery}</p>" ++
    s!"<ul class=\"sources\">{links parseUrl result.citations}</ul>"

/-- `resultCard`. -/
def resultCard (result : NormalizedResult) : String :=
  let about := s!"result from {escape result.workerId} · turn {escape result.turnId}"
  s!"<article class=\"result-card\"><div class=\"result-meta\">{about}</div>" ++
    s!"{resultBody parseUrl state result true}</article>"

/-- `matchingResult`: the last result of the turn that says what the item says. -/
def matchingResult (item : TranscriptEntry) : Option NormalizedResult :=
  if item.role ≠ .assistant ∨ item.text = "" then none
  else state.view.results.reverse.find? fun result => result.turnId = item.turnId ∧ result.shown = item.text

/-- `projectionLabel`. -/
def projectionLabel (result : NormalizedResult) : String :=
  let displayOnly := deliveryFor state result = .displayed
  let label := if displayOnly then "background result" else "TTS"
  let className := if displayOnly then "projection-label background" else "projection-label"
  s!" <span class=\"{className}\">{label}</span>"

/-- `hasStructuredDetails`. -/
def NormalizedResult.structured (result : NormalizedResult) : Bool :=
  result.workerId ≠ "main" || result.spokenText ≠ result.shown || result.citations ≠ []

/-- `transcriptTurn`. -/
def transcriptTurn (item : TranscriptEntry) : String :=
  let result := matchingResult state item
  let unspoken := result.any fun result => incomplete (deliveryFor state result)
  let text := orText (result.elim "" (·.spokenText)) item.text
  let projection := result.elim "" (projectionLabel state)
  let details := (result.filter (·.structured)).elim "" fun result =>
    s!"<details class=\"turn-details\"><summary>Subagent output · {escape result.workerId} · {escape result.turnId}" ++
      s!"</summary><div class=\"turn-details-content\">{resultBody parseUrl state result false}</div></details>"
  let spokenClass := if unspoken then "spoken-text unspoken" else "spoken-text"
  s!"<div class=\"turn {escape item.role.name}\"><div class=\"turn-header\"><strong>{escape item.role.name}{projection}" ++
    s!"</strong><time datetime=\"{escape item.timestamp}\" title=\"{escape item.timestamp}\">" ++
    s!"{escape (formatTimestamp formatDate item.timestamp)}</time></div>" ++
    s!"<p class=\"{spokenClass}\">{escape text}</p>{details}</div>"

/-- A work-status record, in `workStatusLog`. -/
def workStatusItem (entry : String × StampedStatus) : String :=
  let item := entry.2.status
  let epoch := item.originEpoch.elim "unknown" toString
  let reason := item.terminalReason.elim "" fun reason => s!" ({escape reason.name})"
  s!"<li class=\"work-status {escape item.state.name}\" data-work-status-key=\"{escape entry.1}\">" ++
    s!"{escape item.turnId} · epoch {escape epoch} · {escape item.state.name}{reason}</li>"

/-- `workStatusLog`. -/
def workStatusLog : String :=
  let entries := objectEntries state.view.board.workStatus
  if entries = [] then ""
  else
    let items := String.join (entries.map workStatusItem)
    s!"<h2>Work status</h2><ul class=\"work-status-log\">{items}</ul>"

/-- A worker, in `renderRuntime`. -/
def workerCard (worker : WorkerState) : String :=
  let count := (state.view.results.filter (·.workerId = worker.workerId)).length
  let plural := if count = 1 then "" else "s"
  let finalized := if count = 0 then "" else s!"<div class=\"muted\">{count} finalized result{plural}</div>"
  s!"<article class=\"worker\"><strong>{escape worker.workerId}</strong>" ++
    s!"<div class=\"worker-meta\">{escape worker.topic} · {escape worker.modelPolicy} · {escape worker.status}</div>" ++
    s!"{finalized}</article>"

/-- `text.split("\n")[0]`. -/
def firstLine (text : String) : String := .ofList (text.toList.takeWhile (· ≠ '\n'))

/-- The sources a result has links to. -/
def NormalizedResult.sources (result : NormalizedResult) : ℕ :=
  (result.citations.filter fun citation => ((normalizeUrl parseUrl citation.url).any (· ≠ ""))).length

/-- A result, in the log of `renderRuntime`. -/
def resultEntry (result : NormalizedResult) : String :=
  let timestamp := orText result.timestamp "time unknown"
  s!"<details><summary>{escape timestamp} · {escape result.workerId} · {escape result.turnId} · " ++
    s!"{result.sources parseUrl} sources · {escape (firstLine result.shown)}</summary>" ++
    s!"{resultCard parseUrl state result}</details>"

/-- The routing decision, in `renderRuntime`. -/
def routeText (routing : Option RoutingState) : String :=
  routing.elim "No active routing decision." fun routing =>
    let worker := (routing.workerId.filter (· ≠ "")).elim "" fun workerId => s!" → {workerId}"
    s!"{routing.action.name}{worker}"

/-- `renderRuntime`. -/
def renderRuntime : String :=
  let v := state.view
  let transcript := String.join (v.transcript.map (transcriptTurn parseUrl formatDate state))
  let workers := String.join (v.workers.map (workerCard state))
  let results := String.join (v.results.map (resultEntry parseUrl state))
  let diagnostics := orText state.message "runtime state below is server-authored"
  let listening :=
    if state.connected then "Listening for server state…"
    else "Press Connect to start. Microphone permission is requested when you connect."
  let transcript := orText transcript s!"<p class=\"muted\">{listening}</p>"
  let workers := orText workers "<p class=\"muted\">No server workers yet.</p>"
  let results := orText results "<p class=\"muted\">Finalized worker results appear here.</p>"
  s!"<main class=\"app-shell\"><div class=\"local-diagnostics\"><strong>LOCAL</strong> {escape diagnostics}</div>" ++
    s!"<div class=\"live-grid\"><section class=\"panel\"><h2>Transcript</h2>{transcript}</section>" ++
    s!"<section class=\"inspector\"><h2>Router / runtime</h2><p class=\"route\">{escape (routeText v.routing)}</p>" ++
    s!"<h2>Workers (persistent)</h2>{workers}{workStatusLog state}</section></div>" ++
    s!"<section class=\"result-log\"><h2>Result Log</h2>{results}</section></main>"

/-! ## The page -/

namespace Page

/-- The links to the sources of a result. -/
def links (citations : List Citation) : Html :=
  .concat (citations.map fun citation =>
    match (normalizeUrl parseUrl citation.url).filter (· ≠ "") with
    | none => .nil
    | some url =>
      .el "li" [] (.el "a" [("href", url), ("target", "_blank"), ("rel", "noopener noreferrer")]
        (.str (orText citation.title url))))

/-- What is shown of a result: the answer, what became of its delivery, the sources. -/
def resultBody (result : NormalizedResult) (styleAnswerForDelivery : Bool) : Html :=
  let incomplete := incomplete (deliveryFor state result)
  .el "p" [("class", if styleAnswerForDelivery && incomplete then "answer unspoken" else "answer")]
      (.str result.shown) ++
    .el "p" [("class", "delivery " ++ if incomplete then "unspoken incomplete" else "")]
      (.str (deliveryFor state result).name ++
        .str (if incomplete then " — speech delivery incomplete or unconfirmed"
          else " — server transport completed; not proof of browser audibility")) ++
    .el "ul" [("class", "sources")] (links parseUrl result.citations)

/-- A result, under where it is from. -/
def resultCard (result : NormalizedResult) : Html :=
  .el "article" [("class", "result-card")]
    (.el "div" [("class", "result-meta")]
        (.str "result from " ++ .str result.workerId ++ .str " · turn " ++ .str result.turnId) ++
      resultBody parseUrl state result true)

/-- Whether a turn was spoken or is on display only. -/
def projectionLabel (result : NormalizedResult) : Html :=
  let displayOnly := deliveryFor state result = .displayed
  .str " " ++ .el "span" [("class", if displayOnly then "projection-label background" else "projection-label")]
    (.str (if displayOnly then "background result" else "TTS"))

/-- A turn of the transcript. -/
def transcriptTurn (item : TranscriptEntry) : Html :=
  let result := matchingResult state item
  let unspoken := result.any fun result => incomplete (deliveryFor state result)
  .el "div" [("class", "turn " ++ item.role.name)]
    (.el "div" [("class", "turn-header")]
        (.el "strong" [] (.str item.role.name ++ result.elim .nil (projectionLabel state)) ++
          .el "time" [("datetime", item.timestamp), ("title", item.timestamp)]
            (.str (formatTimestamp formatDate item.timestamp))) ++
      .el "p" [("class", if unspoken then "spoken-text unspoken" else "spoken-text")]
        (.str (orText (result.elim "" (·.spokenText)) item.text)) ++
      (result.filter (·.structured)).elim .nil fun result =>
        .el "details" [("class", "turn-details")]
          (.el "summary" []
              (.str "Subagent output · " ++ .str result.workerId ++ .str " · " ++ .str result.turnId) ++
            .el "div" [("class", "turn-details-content")] (resultBody parseUrl state result false)))

/-- A work-status record. -/
def workStatusItem (entry : String × StampedStatus) : Html :=
  let item := entry.2.status
  .el "li" [("class", "work-status " ++ item.state.name), ("data-work-status-key", entry.1)]
    (.str item.turnId ++ .str " · epoch " ++ .str (item.originEpoch.elim "unknown" toString) ++ .str " · " ++
      .str item.state.name ++
      item.terminalReason.elim .nil fun reason => .str " (" ++ .str reason.name ++ .str ")")

/-- The work-status records. -/
def workStatusLog : Html :=
  let entries := objectEntries state.view.board.workStatus
  if entries = [] then .nil
  else .el "h2" [] (.str "Work status") ++ .el "ul" [("class", "work-status-log")] (.concat (entries.map workStatusItem))

/-- A worker, and how many results it has. -/
def workerCard (worker : WorkerState) : Html :=
  let count := (state.view.results.filter (·.workerId = worker.workerId)).length
  .el "article" [("class", "worker")]
    (.el "strong" [] (.str worker.workerId) ++
      .el "div" [("class", "worker-meta")]
        (.str worker.topic ++ .str " · " ++ .str worker.modelPolicy ++ .str " · " ++ .str worker.status) ++
      if count = 0 then .nil
      else .el "div" [("class", "muted")]
        (.str (toString count) ++ .str " finalized result" ++ .str (if count = 1 then "" else "s")))

/-- A result in the log. -/
def resultEntry (result : NormalizedResult) : Html :=
  .el "details" []
    (.el "summary" []
        (.str (orText result.timestamp "time unknown") ++ .str " · " ++ .str result.workerId ++ .str " · " ++
          .str result.turnId ++ .str " · " ++ .str (toString (result.sources parseUrl)) ++ .str " sources · " ++
          .str (firstLine result.shown)) ++
      resultCard parseUrl state result)

/-- The items of a list, or else a word about it. -/
def orMuted (items : List Html) (word : String) : Html :=
  if items = [] then .el "p" [("class", "muted")] (.str word) else .concat items

/-- The page. -/
def runtime : Html :=
  let v := state.view
  .el "main" [("class", "app-shell")]
    (.el "div" [("class", "local-diagnostics")]
        (.el "strong" [] (.str "LOCAL") ++ .str " " ++
          .str (orText state.message "runtime state below is server-authored")) ++
      .el "div" [("class", "live-grid")]
        (.el "section" [("class", "panel")]
            (.el "h2" [] (.str "Transcript") ++
              orMuted (v.transcript.map (transcriptTurn parseUrl formatDate state))
                (if state.connected then "Listening for server state…"
                  else "Press Connect to start. Microphone permission is requested when you connect.")) ++
          .el "section" [("class", "inspector")]
            (.el "h2" [] (.str "Router / runtime") ++ .el "p" [("class", "route")] (.str (routeText v.routing)) ++
              .el "h2" [] (.str "Workers (persistent)") ++
              orMuted (v.workers.map (workerCard state)) "No server workers yet." ++ workStatusLog state)) ++
      .el "section" [("class", "result-log")]
        (.el "h2" [] (.str "Result Log") ++
          orMuted (v.results.map (resultEntry parseUrl state)) "Finalized worker results appear here."))

end Page

theorem escape_append (a b : String) : escape (a ++ b) = escape a ++ escape b := by
  simp [escape]

/-- A text without special characters is left as it is. -/
theorem escape_plain (s : String) (h : (s.toList.all fun c => c ∉ referred) = true) : escape s = s := by
  rw [escape, escape_eq_self fun c hc => by simpa using List.all_eq_true.mp h c hc, String.ofList_toList]

@[simp] theorem html_str (s : String) : (Html.str s).html = escape s := Html.html_str s

@[simp] theorem assignment_eq (name value : String) :
    Html.assignment (name, value) = " " ++ name ++ "=\"" ++ escape value ++ "\"" :=
  rfl

theorem elim_html {α : Type} {f : α → String} {g : α → Html} (h : ∀ a, f a = (g a).html) (o : Option α) :
    o.elim "" f = (o.elim .nil g).html := by
  cases o with
  | none => rfl
  | some a => exact h a

/-- An element between its tags. -/
theorem html_tags (tag : String) (attributes : List (String × String)) (body : Html) :
    (Html.el tag attributes body).html
      = ("<" ++ tag ++ String.join (attributes.map Html.assignment) ++ ">") ++ (body.html ++ ("</" ++ tag ++ ">")) := by
  simp only [Html.html_el, String.append_assoc]

set_option maxRecDepth 4000

theorem links_eq (citations : List Citation) : links parseUrl citations = (Page.links parseUrl citations).html := by
  rw [links, Page.links, Html.html_concat, List.map_map]
  refine congrArg String.join (List.map_congr_left fun citation _ => ?_)
  rw [Function.comp_apply]
  rcases (normalizeUrl parseUrl citation.url).filter (· ≠ "") with _ | url
  · rfl
  · simp (disch := decide) only [Html.html_el, html_str, assignment_eq, List.map_cons, List.map_nil,
      String.join_cons, String.join_nil, escape_plain, toString]
    simp [← String.toList_inj]

theorem resultBody_eq (result : NormalizedResult) (styleAnswerForDelivery : Bool) :
    resultBody parseUrl state result styleAnswerForDelivery
      = (Page.resultBody parseUrl state result styleAnswerForDelivery).html := by
  unfold resultBody Page.resultBody
  rw [links_eq]
  dsimp only
  simp (disch := decide) only [Html.html_append, Html.html_el, html_str, assignment_eq, List.map_cons, List.map_nil,
    String.join_cons, String.join_nil, escape_append, apply_ite escape, escape_plain, toString]
  simp [← String.toList_inj]

theorem resultCard_eq (result : NormalizedResult) :
    resultCard parseUrl state result = (Page.resultCard parseUrl state result).html := by
  unfold resultCard Page.resultCard
  rw [resultBody_eq]
  dsimp only
  simp (disch := decide) only [Html.html_append, Html.html_el, html_str, assignment_eq, List.map_cons, List.map_nil,
    String.join_cons, String.join_nil, escape_plain, toString]
  simp [← String.toList_inj]

theorem projectionLabel_eq (result : NormalizedResult) :
    projectionLabel state result = (Page.projectionLabel state result).html := by
  unfold projectionLabel Page.projectionLabel
  dsimp only
  simp (disch := decide) only [Html.html_append, Html.html_el, html_str, assignment_eq, List.map_cons, List.map_nil,
    String.join_cons, String.join_nil, apply_ite escape, escape_plain, toString]
  simp [← String.toList_inj]

theorem transcriptTurn_eq (item : TranscriptEntry) :
    transcriptTurn parseUrl formatDate state item = (Page.transcriptTurn parseUrl formatDate state item).html := by
  have hdetails (result : NormalizedResult) :
      s!"<details class=\"turn-details\"><summary>Subagent output · {escape result.workerId} · {escape result.turnId}" ++
          s!"</summary><div class=\"turn-details-content\">{resultBody parseUrl state result false}</div></details>"
        = (Html.el "details" [("class", "turn-details")]
            (.el "summary" []
                (.str "Subagent output · " ++ .str result.workerId ++ .str " · " ++ .str result.turnId) ++
              .el "div" [("class", "turn-details-content")] (Page.resultBody parseUrl state result false))).html := by
    rewrite [resultBody_eq]
    simp (disch := decide) only [Html.html_append, Html.html_el, html_str, assignment_eq, List.map_cons, List.map_nil,
      String.join_cons, String.join_nil, escape_plain, toString]
    simp [← String.toList_inj]
  unfold transcriptTurn Page.transcriptTurn
  dsimp only
  rewrite [elim_html (projectionLabel_eq state), elim_html hdetails]
  simp (disch := decide) only [Html.html_append, Html.html_el, html_str, assignment_eq, List.map_cons, List.map_nil,
    String.join_cons, String.join_nil, escape_append, apply_ite escape, escape_plain, toString]
  simp [← String.toList_inj]

/-- A number is written in digits. -/
theorem escape_natRepr (n : ℕ) : escape (toString n) = toString n := by
  have hplain : ∀ c ∈ (toString n).toList, c ∉ referred := by
    intro c hc hmem
    rw [Nat.toString_eq_repr, Nat.toList_repr] at hc
    have hdigit := Nat.isDigit_of_mem_toDigits (by decide) (by decide) hc
    simp only [referred, List.mem_cons, List.not_mem_nil, or_false] at hmem
    rcases hmem with rfl | rfl | rfl | rfl | rfl <;> cases hdigit
  rw [escape, escape_eq_self hplain, String.ofList_toList]

theorem workStatusItem_eq (entry : String × StampedStatus) :
    workStatusItem entry = (Page.workStatusItem entry).html := by
  have hreason (reason : TerminalReason) :
      s!" ({escape reason.name})" = (Html.str " (" ++ .str reason.name ++ .str ")").html := by
    simp (disch := decide) only [Html.html_append, html_str, escape_plain, toString]
  unfold workStatusItem Page.workStatusItem
  dsimp only
  rewrite [elim_html hreason]
  simp (disch := decide) only [Html.html_append, Html.html_el, html_str, assignment_eq, List.map_cons, List.map_nil,
    String.join_cons, String.join_nil, escape_append, escape_plain, toString]
  simp [← String.toList_inj]

theorem workStatusLog_eq : workStatusLog state = (Page.workStatusLog state).html := by
  unfold workStatusLog Page.workStatusLog
  dsimp only
  split_ifs with hempty
  · rfl
  · rewrite [List.map_congr_left fun entry _ => workStatusItem_eq entry]
    simp (disch := decide) only [Html.html_append, Html.html_el, html_str, assignment_eq, List.map_cons, List.map_nil,
      String.join_cons, String.join_nil, escape_plain, toString, Html.html_concat, List.map_map, Function.comp_def]
    simp [← String.toList_inj]

theorem workerCard_eq (worker : WorkerState) : workerCard state worker = (Page.workerCard state worker).html := by
  unfold workerCard Page.workerCard
  dsimp only
  generalize (state.view.results.filter (·.workerId = worker.workerId)).length = count
  by_cases hnone : count = 0
  · rewrite [if_pos hnone, if_pos hnone, Html.append_nil]
    simp (disch := decide) only [Html.html_append, Html.html_el, html_str, assignment_eq, List.map_cons, List.map_nil,
      String.join_cons, String.join_nil, escape_plain, toString]
    simp [← String.toList_inj]
  · rewrite [if_neg hnone, if_neg hnone]
    simp (disch := decide) only [Html.html_append, Html.html_el, html_str, assignment_eq, List.map_cons, List.map_nil,
      String.join_cons, String.join_nil, escape_natRepr, apply_ite escape, escape_plain]
    simp [← String.toList_inj, toString]

theorem resultEntry_eq (result : NormalizedResult) :
    resultEntry parseUrl state result = (Page.resultEntry parseUrl state result).html := by
  unfold resultEntry Page.resultEntry
  rewrite [resultCard_eq]
  dsimp only
  simp (disch := decide) only [Html.html_append, Html.html_el, html_str, List.map_nil, String.join_nil, escape_natRepr,
    escape_plain]
  simp [← String.toList_inj, toString]

theorem html_el_ne (tag : String) (attributes : List (String × String)) (body : Html) :
    (Html.el tag attributes body).html ≠ "" := by
  intro hempty
  have hchars := congrArg String.toList hempty
  simp at hchars

/-- A list, or else a word about it. -/
theorem orMuted_eq {α : Type} {f : α → String} {g : α → Html} (h : ∀ a, f a = (g a).html) (hne : ∀ a, (g a).html ≠ "")
    (as : List α) (word : String) :
    orText (String.join (as.map f)) s!"<p class=\"muted\">{escape word}</p>" = (Page.orMuted (as.map g) word).html := by
  unfold orText Page.orMuted
  cases as with
  | nil =>
    rewrite [if_pos (by rfl), if_pos (by rfl)]
    simp (disch := decide) only [Html.html_el, html_str, assignment_eq, List.map_cons, List.map_nil,
      String.join_cons, String.join_nil, escape_plain, toString]
    simp [← String.toList_inj]
  | cons a as =>
    have hjoin : String.join ((a :: as).map f) = (Html.concat ((a :: as).map g)).html := by
      rw [Html.html_concat, List.map_map]
      exact congrArg String.join (List.map_congr_left fun b _ => h b)
    have hfull : String.join ((a :: as).map f) ≠ "" := by
      rw [List.map_cons, String.join_cons]
      intro hempty
      exact hne a ((h a).symm.trans (String.append_eq_empty_iff.mp hempty).1)
    have hitems : (a :: as).map g ≠ [] := List.cons_ne_nil _ _
    rw [if_neg hfull, if_neg hitems, hjoin]

/-- **The text is the page, written out.** -/
theorem renderRuntime_eq :
    renderRuntime parseUrl formatDate state = (Page.runtime parseUrl formatDate state).html := by
  have htranscript := orMuted_eq (transcriptTurn_eq parseUrl formatDate state) (fun _ => html_el_ne _ _ _)
    state.view.transcript (if state.connected then "Listening for server state…"
      else "Press Connect to start. Microphone permission is requested when you connect.")
  have hworkers := orMuted_eq (workerCard_eq state) (fun _ => html_el_ne _ _ _) state.view.workers
    "No server workers yet."
  have hresults := orMuted_eq (resultEntry_eq parseUrl state) (fun _ => html_el_ne _ _ _) state.view.results
    "Finalized worker results appear here."
  simp (disch := decide) only [apply_ite escape, escape_plain, toString, String.reduceAppend]
    at htranscript hworkers hresults
  -- the literals of the template, cut at their tags
  have hmain : "<main class=\"app-shell\"><div class=\"local-diagnostics\"><strong>LOCAL</strong> "
      = "<main class=\"app-shell\">" ++ ("<div class=\"local-diagnostics\">" ++ "<strong>LOCAL</strong> ") := rfl
  have hgrid : "<div class=\"live-grid\"><section class=\"panel\"><h2>Transcript</h2>"
      = "<div class=\"live-grid\">" ++ ("<section class=\"panel\">" ++ "<h2>Transcript</h2>") := rfl
  have hinspector : "<section class=\"inspector\"><h2>Router / runtime</h2><p class=\"route\">"
      = "<section class=\"inspector\">" ++ ("<h2>Router / runtime</h2>" ++ "<p class=\"route\">") := rfl
  have hgridEnd : "</section></div>" = "</section>" ++ "</div>" := rfl
  have hlog : "<section class=\"result-log\"><h2>Result Log</h2>"
      = "<section class=\"result-log\">" ++ "<h2>Result Log</h2>" := rfl
  have hmainEnd : "</section></main>" = "</section>" ++ "</main>" := rfl
  unfold renderRuntime Page.runtime
  dsimp only
  simp (disch := decide) only [Html.html_append, html_tags, html_str, assignment_eq, List.map_cons, List.map_nil,
    String.join_cons, String.join_nil, escape_plain, toString, String.reduceAppend]
  rewrite [htranscript, hworkers, hresults, workStatusLog_eq]
  simp only [hmain, hgrid, hinspector, hgridEnd, hlog, hmainEnd, String.append_assoc]

end Templates

end Session

end SubagentsLab
