import SubagentsLab.Machinery.Url
import SubagentsLab.Session.Wire

/-!
# Results/Citations — the citations of a result

`normalize_citations` keeps the entries whose URL `urlparse` takes for an absolute http(s) URL, once each,
and makes a `Citation` of each.  `Citation` has a pattern of its own for the URL, and a pattern is matched
against text only: an entry that passes the first test and not the second makes the whole call raise.  The
title has no constraint, so it is any Python string; where it is text, the citation is one of the wire's.
-/

namespace SubagentsLab

open Machinery

/-- `Citation`: its pattern has read the URL as text, its title is any string. -/
structure Citation where
  title : PyStr
  url : String
  deriving DecidableEq, Repr

/-- The pattern of `Citation.url`. -/
def Citation.matches (c : Citation) : Bool := Session.Citation.matches ⟨"", c.url⟩

/-- The citation as an envelope carries it, if its title can be encoded. -/
def Citation.onWire? (c : Citation) : Option Session.Citation := c.title.text?.map fun title => ⟨title, c.url⟩

/-- What is on the wire passes the pattern there as well. -/
theorem Citation.matches_onWire {c : Citation} {w : Session.Citation} (h : c.onWire? = some w) : w.matches = c.matches := by
  obtain ⟨title, -, rfl⟩ := Option.map_eq_some_iff.mp h
  rfl

/-- The value of a key: a string, or any other object with its truth value and what `str` makes of it, if it
does not raise. -/
inductive EntryValue
  | str (s : PyStr)
  | other (truthy : Bool) (text : Option PyStr)
  deriving DecidableEq, Repr

/-- A mapping that is given to `normalize_citations`, as far as it is read. -/
structure CitationEntry where
  url : Option EntryValue
  title : Option EntryValue
  deriving DecidableEq, Repr

/-- What `normalize_citations` can raise. -/
inductive CitationFailure
  /-- `str` of a title raises. -/
  | titleRaises
  | validationError
  deriving DecidableEq, Repr

namespace CitationEntry

/-- `item.get("url")`, if it is a string. -/
def url? (item : CitationEntry) : Option PyStr :=
  match item.url with
  | some (.str url) => some url
  | _ => none

/-- `str(item.get("title") or "")`, if it does not raise. -/
def titleText (item : CitationEntry) : Option PyStr :=
  match item.title with
  | none => some []
  | some (.str title) => some title
  | some (.other truthy text) => if truthy then text else some []

/-- `citation.model_dump()`. -/
def ofCitation (c : Citation) : CitationEntry := ⟨some (.str (.ofString c.url)), some (.str c.title)⟩

end CitationEntry

/-- `Citation(title=title, url=url)`. -/
def Citation.validated (title url : PyStr) : Except CitationFailure Citation :=
  match url.text? with
  | some url => if Citation.matches ⟨title, url⟩ then .ok ⟨title, url⟩ else .error .validationError
  | none => .error .validationError

section

variable (acceptsNetloc : PyStr → Bool)

/-- An absolute http(s) URL with a host, as `urlparse` has it. -/
def isHttpUrl (url : PyStr) : Bool :=
  match ParsedUrl.urlparse acceptsNetloc url with
  | none => false
  | some parsed =>
    decide (parsed.scheme ∈ [PyStr.ofString "http", PyStr.ofString "https"]) && parsed.netloc ≠ [] &&
      parsed.hostname ≠ []

/-- The URL passes the test of `normalize_citations`. -/
def isCitable (url : PyStr) : Bool := isHttpUrl acceptsNetloc url && !url.any CodePoint.isSpace

/-- The loop of `normalize_citations`. -/
def normalizeFrom (seen : List PyStr) : List CitationEntry → Except CitationFailure (List Citation)
  | [] => .ok []
  | item :: items =>
    match item.url? with
    | none => normalizeFrom seen items
    | some url =>
      if !isCitable acceptsNetloc url then normalizeFrom seen items
      else if url ∈ seen then normalizeFrom seen items
      else
        match item.titleText with
        | none => .error .titleRaises
        | some title =>
          match Citation.validated title url with
          | .error failure => .error failure
          | .ok citation => (normalizeFrom (url :: seen) items).map (citation :: ·)

/-- `normalize_citations`. -/
def normalizeCitations (items : List CitationEntry) : Except CitationFailure (List Citation) :=
  normalizeFrom acceptsNetloc [] items

/-! ## What is asked of it -/

/-- Why an entry may be dropped, with what has been kept before it. -/
def MayDrop (earlier : List Citation) (item : CitationEntry) : Prop :=
  ∀ url, item.url? = some url →
    isHttpUrl acceptsNetloc url = false ∨ url.any CodePoint.isSpace = true ∨
      ∃ c ∈ earlier, PyStr.ofString c.url = url

/-- A selection in order: every entry gives its citation or may be dropped. -/
inductive Selection : List Citation → List CitationEntry → List Citation → Prop
  | nil (earlier : List Citation) : Selection earlier [] []
  | keep {earlier : List Citation} {item : CitationEntry} {items : List CitationEntry} {c : Citation}
      {out : List Citation} (hurl : item.url? = some (.ofString c.url))
      (htitle : item.titleText = some c.title) (hrest : Selection (c :: earlier) items out) :
      Selection earlier (item :: items) (c :: out)
  | drop {earlier : List Citation} {item : CitationEntry} {items : List CitationEntry} {out : List Citation}
      (hdrop : MayDrop acceptsNetloc earlier item) (hrest : Selection earlier items out) :
      Selection earlier (item :: items) out

/-- What normalization comes to: it returns a selection of the entries, of distinct URLs that `Citation`
accepts, and is idempotent. -/
def Lawful (items : List CitationEntry) : Prop :=
  ∃ out, normalizeCitations acceptsNetloc items = .ok out ∧ Selection acceptsNetloc [] items out ∧
    (out.map Citation.url).Nodup ∧ (∀ c ∈ out, c.matches = true) ∧
    normalizeCitations acceptsNetloc (out.map CitationEntry.ofCitation) = .ok out

/-- The URL is written with a lower-case scheme, at its very beginning. -/
def HasHttpPrefix (url : PyStr) : Prop :=
  PyStr.ofString "http://" <+: url ∨ PyStr.ofString "https://" <+: url

/-- A `Citation` can be made of the entry. -/
def Presentable (item : CitationEntry) (url : PyStr) : Prop :=
  HasHttpPrefix url ∧ url.text?.isSome = true ∧ item.titleText.isSome = true

/-- Every entry whose URL is citable, and that of no entry before it, is presentable. -/
def AllPresentable (items : List CitationEntry) : Prop :=
  ∀ earlier item later url, items = earlier ++ item :: later → item.url? = some url →
    isCitable acceptsNetloc url = true → (∀ e ∈ earlier, e.url? ≠ some url) → Presentable item url

end

variable {acceptsNetloc : PyStr → Bool}

/-! ## The two tests of a URL -/

theorem urlparse_http : ParsedUrl.urlparse acceptsNetloc (.ofString "http://")
    = if acceptsNetloc [] then some ⟨.ofString "http", []⟩ else none := rfl

theorem urlparse_https : ParsedUrl.urlparse acceptsNetloc (.ofString "https://")
    = if acceptsNetloc [] then some ⟨.ofString "https", []⟩ else none := rfl

/-- A scheme alone is no URL. -/
theorem isHttpUrl_bare {scheme : String} (h : scheme ∈ ["http://", "https://"]) :
    isHttpUrl acceptsNetloc (.ofString scheme) = false := by
  rcases List.mem_pair.mp h with rfl | rfl
  · rw [isHttpUrl, urlparse_http]
    cases acceptsNetloc [] <;> simp
  · rw [isHttpUrl, urlparse_https]
    cases acceptsNetloc [] <;> simp

theorem hasHttpPrefix_iff {url : String} :
    HasHttpPrefix (.ofString url) ↔ ∃ scheme ∈ ["http://", "https://"], scheme.toList <+: url.toList := by
  simp [HasHttpPrefix, PyStr.ofString_prefix_iff]

/-- **Where the two tests agree**: the pattern takes a citable URL if it begins with its scheme in lower
case. -/
theorem matches_iff_of_citable {c : Citation} (h : isCitable acceptsNetloc (.ofString c.url) = true) :
    c.matches = true ↔ HasHttpPrefix (.ofString c.url) := by
  rw [hasHttpPrefix_iff, Citation.matches, Session.Citation.matches, List.any_eq_true]
  refine exists_congr fun scheme => and_congr_right fun hscheme => ?_
  simp only [Bool.and_eq_true, List.isPrefixOf_iff_prefix, decide_eq_true_eq, List.all_eq_true,
    Bool.not_eq_true']
  refine ⟨fun h => h.1.1, fun hbegins => ⟨⟨hbegins, fun hlength => ?_⟩, fun char hchar => ?_⟩⟩
  · -- nothing but the scheme: then there is no host
    obtain ⟨rest, hrest⟩ := hbegins
    rw [← hrest, ← String.length_toList, List.drop_left, List.length_eq_zero_iff] at hlength
    rw [hlength, List.append_nil] at hrest
    have hurl : c.url = scheme := String.toList_inj.mp hrest.symm
    rw [isCitable, hurl, isHttpUrl_bare hscheme] at h
    cases h
  · have hspace : Text.isSpace char = false := by
      rw [isCitable, Bool.and_eq_true, Bool.not_eq_true', List.any_eq_false] at h
      have hcode := h.2 (CodePoint.ofChar char) (List.mem_map_of_mem (List.mem_of_mem_drop hchar))
      rwa [CodePoint.isSpace_ofChar, Bool.not_eq_true] at hcode
    rw [Session.isPatternSpace, hspace, Bool.false_and]

theorem validated_eq_ok {title url : PyStr} {c : Citation} :
    Citation.validated title url = .ok c ↔
      title = c.title ∧ url = .ofString c.url ∧ c.matches = true := by
  rw [Citation.validated]
  constructor
  · intro h
    split at h
    · rename_i u hurl
      split_ifs at h with hmatches
      cases h
      exact ⟨rfl, (PyStr.ofString_of_text? hurl).symm, hmatches⟩
    · cases h
  · rintro ⟨rfl, rfl, hmatches⟩
    simp [hmatches]

/-- A `Citation` can be made of a presentable entry, and of no other. -/
theorem presentable_iff {item : CitationEntry} {url : PyStr} (h : isCitable acceptsNetloc url = true) :
    Presentable item url ↔ ∃ title c, item.titleText = some title ∧ Citation.validated title url = .ok c := by
  constructor
  · rintro ⟨hbegins, hurl, htitle⟩
    obtain ⟨u, hu⟩ := Option.isSome_iff_exists.mp hurl
    obtain ⟨title, ht⟩ := Option.isSome_iff_exists.mp htitle
    obtain rfl := PyStr.ofString_of_text? hu
    exact ⟨title, ⟨title, u⟩, ht,
      validated_eq_ok.mpr ⟨rfl, rfl, (matches_iff_of_citable (c := ⟨title, u⟩) h).mpr hbegins⟩⟩
  · rintro ⟨title, c, htitle, hvalid⟩
    obtain ⟨rfl, rfl, hmatches⟩ := validated_eq_ok.mp hvalid
    exact ⟨(matches_iff_of_citable h).mp hmatches, by simp, Option.isSome_of_mem htitle⟩

/-! ## The loop -/

/-- `AllPresentable` for the entries that are left: `seen` are URLs before them. -/
def RestPresentable (acceptsNetloc : PyStr → Bool) (seen : List PyStr) (items : List CitationEntry) : Prop :=
  ∀ earlier item later url, items = earlier ++ item :: later → item.url? = some url →
    isCitable acceptsNetloc url = true → url ∉ seen → (∀ e ∈ earlier, e.url? ≠ some url) → Presentable item url

theorem restPresentable_nil : RestPresentable acceptsNetloc [] = AllPresentable acceptsNetloc := by
  ext items
  simp [RestPresentable, AllPresentable]

theorem restPresentable_cons {seen : List PyStr} {item : CitationEntry} {items : List CitationEntry} :
    RestPresentable acceptsNetloc seen (item :: items) ↔
      (∀ url, item.url? = some url → isCitable acceptsNetloc url = true → url ∉ seen → Presentable item url) ∧
        RestPresentable acceptsNetloc (item.url?.toList ++ seen) items := by
  constructor
  · refine fun h => ⟨fun url hurl hcit hnew => h [] item items url rfl hurl hcit hnew (by simp), ?_⟩
    rintro earlier other later url rfl hurl hcit hnew hfirst
    rw [List.mem_append, not_or, Option.mem_toList] at hnew
    exact h (item :: earlier) other later url rfl hurl hcit hnew.2 (List.forall_mem_cons.mpr ⟨hnew.1, hfirst⟩)
  · rintro ⟨hhead, hrest⟩ earlier other later url heq hurl hcit hnew hfirst
    rcases earlier with _ | ⟨e, earlier⟩
    · cases heq
      exact hhead url hurl hcit hnew
    · cases heq
      rw [List.forall_mem_cons] at hfirst
      refine hrest earlier other later url rfl hurl hcit ?_ hfirst.2
      rw [List.mem_append, not_or, Option.mem_toList]
      exact ⟨hfirst.1, hnew⟩

/-- The entry is passed over. -/
def Skipped (acceptsNetloc : PyStr → Bool) (seen : List PyStr) (item : CitationEntry) : Prop :=
  ∀ url, item.url? = some url → isCitable acceptsNetloc url = false ∨ url ∈ seen

/-- **A round of the loop**: the entry is passed over, or a citation is made of it. -/
theorem normalizeFrom_cons {seen : List PyStr} {item : CitationEntry} {items : List CitationEntry}
    {out : List Citation} :
    normalizeFrom acceptsNetloc seen (item :: items) = .ok out ↔
      Skipped acceptsNetloc seen item ∧ normalizeFrom acceptsNetloc seen items = .ok out ∨
        ∃ url title c rest, item.url? = some url ∧ isCitable acceptsNetloc url = true ∧ url ∉ seen ∧
          item.titleText = some title ∧ Citation.validated title url = .ok c ∧
          normalizeFrom acceptsNetloc (url :: seen) items = .ok rest ∧ out = c :: rest := by
  rw [normalizeFrom]
  rcases hurl : item.url? with _ | url
  · simp [Skipped, hurl]
  · by_cases hcit : isCitable acceptsNetloc url = true
    · by_cases hseen : url ∈ seen
      · simp [Skipped, hurl, hcit, hseen]
      · rcases htitle : item.titleText with _ | title
        · simp [Skipped, hurl, hcit, hseen]
        · rcases hvalid : Citation.validated title url with failure | c
          · simp [Skipped, hurl, hcit, hseen, hvalid]
          · rcases hrest : normalizeFrom acceptsNetloc (url :: seen) items with failure | rest
            · simp [Skipped, hurl, hcit, hseen, hvalid, hrest, Except.map]
            · have hout : Except.ok (ε := CitationFailure) (c :: rest) = .ok out ↔ out = c :: rest := by
                rw [Except.ok.injEq, eq_comm]
              simp [Skipped, hurl, hcit, hseen, hvalid, hrest, Except.map, hout]
    · simp [Skipped, hurl, hcit]

theorem restPresentable_congr {seen seen' : List PyStr}
    (h : ∀ url, isCitable acceptsNetloc url = true → (url ∈ seen ↔ url ∈ seen')) (items : List CitationEntry) :
    RestPresentable acceptsNetloc seen items ↔ RestPresentable acceptsNetloc seen' items :=
  ⟨fun hp earlier item later url heq hurl hcit hnew => hp earlier item later url heq hurl hcit (mt (h url hcit).mp hnew),
    fun hp earlier item later url heq hurl hcit hnew =>
      hp earlier item later url heq hurl hcit (mt (h url hcit).mpr hnew)⟩

/-- The URL of an entry that is passed over need not be remembered. -/
theorem restPresentable_skipped {seen : List PyStr} {item : CitationEntry} (hskip : Skipped acceptsNetloc seen item)
    (items : List CitationEntry) :
    RestPresentable acceptsNetloc (item.url?.toList ++ seen) items ↔ RestPresentable acceptsNetloc seen items := by
  refine restPresentable_congr (fun url hcit => ?_) items
  rw [List.mem_append, Option.mem_toList]
  refine ⟨fun h => h.elim (fun hurl => ?_) id, .inr⟩
  exact (hskip url hurl).resolve_left fun h => Bool.eq_false_iff.mp h hcit

/-- **The loop returns if and only if every new citable entry is presentable.** -/
theorem normalizeFrom_returns {seen : List PyStr} {items : List CitationEntry} :
    (∃ out, normalizeFrom acceptsNetloc seen items = .ok out) ↔ RestPresentable acceptsNetloc seen items := by
  induction items generalizing seen with
  | nil => exact ⟨fun _ earlier item later url heq => absurd heq (by simp), fun _ => ⟨[], rfl⟩⟩
  | cons item items ih =>
    simp only [normalizeFrom_cons, restPresentable_cons]
    constructor
    · rintro ⟨out, ⟨hskip, hout⟩ | ⟨url, title, c, rest, hurl, hcit, hnew, htitle, hvalid, hrest, rfl⟩⟩
      · refine ⟨fun url hurl hcit hnew => ?_, (restPresentable_skipped hskip items).mpr (ih.mp ⟨out, hout⟩)⟩
        rcases hskip url hurl with h | h
        · exact absurd hcit (Bool.eq_false_iff.mp h)
        · exact absurd h hnew
      · refine ⟨fun url' hurl' hcit' hnew' => ?_, ?_⟩
        · cases hurl.symm.trans hurl'
          exact (presentable_iff hcit).mpr ⟨title, c, htitle, hvalid⟩
        · rw [hurl]
          exact ih.mp ⟨rest, hrest⟩
    · rintro ⟨hhead, hrest⟩
      by_cases hskip : Skipped acceptsNetloc seen item
      · obtain ⟨out, hout⟩ := ih.mpr ((restPresentable_skipped hskip items).mp hrest)
        exact ⟨out, .inl ⟨hskip, hout⟩⟩
      · simp only [Skipped, not_forall, not_or, Bool.not_eq_false] at hskip
        obtain ⟨url, hurl, hcit, hnew⟩ := hskip
        obtain ⟨title, c, htitle, hvalid⟩ := (presentable_iff hcit).mp (hhead url hurl hcit hnew)
        rw [hurl] at hrest
        obtain ⟨out, hout⟩ := ih.mpr hrest
        exact ⟨c :: out, .inr ⟨url, title, c, out, hurl, hcit, hnew, htitle, hvalid, hout, rfl⟩⟩

/-- **What the loop returns** is a selection, of new and distinct citable URLs. -/
theorem normalizeFrom_selects {seen : List PyStr} {items : List CitationEntry} {out earlier : List Citation}
    (hseen : ∀ url, url ∈ seen ↔ ∃ c ∈ earlier, PyStr.ofString c.url = url)
    (h : normalizeFrom acceptsNetloc seen items = .ok out) :
    Selection acceptsNetloc earlier items out ∧ (out.map Citation.url).Nodup ∧
      ∀ c ∈ out, c.matches = true ∧ isCitable acceptsNetloc (.ofString c.url) = true ∧ .ofString c.url ∉ seen := by
  induction items generalizing seen out earlier with
  | nil =>
    cases h
    exact ⟨.nil earlier, List.nodup_nil, fun c hc => absurd hc List.not_mem_nil⟩
  | cons item items ih =>
    rcases normalizeFrom_cons.mp h with ⟨hskip, hout⟩ | ⟨url, title, c, rest, hurl, hcit, hnew, htitle, hvalid, hrest, rfl⟩
    · obtain ⟨hselect, hnodup, hfine⟩ := ih hseen hout
      refine ⟨.drop (fun url hurl => ?_) hselect, hnodup, hfine⟩
      rcases hskip url hurl with h | h
      · rw [isCitable, Bool.and_eq_false_iff, Bool.not_eq_false'] at h
        exact h.imp_right .inl
      · exact .inr (.inr ((hseen url).mp h))
    · obtain ⟨rfl, rfl, hmatches⟩ := validated_eq_ok.mp hvalid
      have hseen' : ∀ url, url ∈ PyStr.ofString c.url :: seen ↔ ∃ c' ∈ c :: earlier, PyStr.ofString c'.url = url := by
        intro url
        rw [List.mem_cons, hseen, eq_comm]
        simp
      obtain ⟨hselect, hnodup, hfine⟩ := ih hseen' hrest
      refine ⟨.keep hurl htitle hselect, ?_, List.forall_mem_cons.mpr ⟨⟨hmatches, hcit, hnew⟩, fun c' hc' => ?_⟩⟩
      · refine List.nodup_cons.mpr ⟨fun hmem => ?_, hnodup⟩
        obtain ⟨c', hc', heq⟩ := List.mem_map.mp hmem
        exact (hfine c' hc').2.2 (heq ▸ List.mem_cons_self)
      · obtain ⟨h1, h2, h3⟩ := hfine c' hc'
        exact ⟨h1, h2, fun hmem => h3 (List.mem_cons_of_mem _ hmem)⟩

/-- Citations of new and distinct citable URLs are returned as they are. -/
theorem normalizeFrom_ofCitation {seen : List PyStr} {out : List Citation} (hnodup : (out.map Citation.url).Nodup)
    (hfine : ∀ c ∈ out, c.matches = true ∧ isCitable acceptsNetloc (.ofString c.url) = true ∧ .ofString c.url ∉ seen) :
    normalizeFrom acceptsNetloc seen (out.map CitationEntry.ofCitation) = .ok out := by
  induction out generalizing seen with
  | nil => rfl
  | cons c out ih =>
    rw [List.map_cons, List.nodup_cons] at hnodup
    rw [List.forall_mem_cons] at hfine
    refine normalizeFrom_cons.mpr (.inr ⟨_, _, c, out, rfl, hfine.1.2.1, hfine.1.2.2, rfl,
      validated_eq_ok.mpr ⟨rfl, rfl, hfine.1.1⟩, ih hnodup.2 fun c' hc' => ?_, rfl⟩)
    obtain ⟨h1, h2, h3⟩ := hfine.2 c' hc'
    refine ⟨h1, h2, fun hmem => ?_⟩
    rcases List.mem_cons.mp hmem with heq | hmem
    · exact hnodup.1 (List.mem_map.mpr ⟨c', hc', PyStr.ofString_injective heq⟩)
    · exact h3 hmem

/-- **Citation normalization is lawful exactly where every new citable entry is presentable**: its URL
begins with `http://` or `https://` as written and is text, and `str` of its title does not raise. -/
theorem normalize_citations_lawful_iff (acceptsNetloc : PyStr → Bool) (items : List CitationEntry) :
    Lawful acceptsNetloc items ↔ AllPresentable acceptsNetloc items := by
  rw [← restPresentable_nil, ← normalizeFrom_returns]
  constructor
  · rintro ⟨out, hout, -⟩
    exact ⟨out, hout⟩
  · rintro ⟨out, hout⟩
    have hnone : ∀ url, url ∈ [] ↔ ∃ c ∈ ([] : List Citation), PyStr.ofString c.url = url := by simp
    obtain ⟨hselect, hnodup, hfine⟩ := normalizeFrom_selects hnone hout
    exact ⟨out, hout, hselect, hnodup, fun c hc => (hfine c hc).1, normalizeFrom_ofCitation hnodup hfine⟩

/-- A link whose scheme is written in upper case. -/
def shoutedLink : CitationEntry := ⟨some (.str (.ofString "HTTP://example.com")), some (.str (.ofString "Example"))⟩

/-- It passes the test of the URL and not the pattern, and the call raises. -/
theorem shouted_link_raises :
    normalizeCitations (fun _ => true) [shoutedLink] = .error .validationError ∧
      ¬Lawful (fun _ => true) [shoutedLink] := by
  have hraises : normalizeCitations (fun _ => true) [shoutedLink] = .error .validationError := by rfl
  refine ⟨hraises, ?_⟩
  rintro ⟨out, hout, -⟩
  rw [hraises] at hout
  cases hout

end SubagentsLab
