import SubagentsLab.Machinery.CodePoints

/-!
# Machinery/Url — URLs as `urlparse` takes them apart

The scheme, the network location and the host of a URL.  Leading control characters and spaces, and every
tab and line break, are left out; the scheme is written in lower case.  Which network locations are refused
for their brackets or for their Unicode normal form is a parameter (`acceptsNetloc`).
-/

namespace Machinery

/-- `ParseResult`, as far as the network location. -/
structure ParsedUrl where
  scheme : PyStr
  netloc : PyStr
  deriving DecidableEq, Repr

namespace ParsedUrl

/-- A code point of a scheme: `scheme_chars`. -/
def isSchemeChar (c : CodePoint) : Bool :=
  c.isAsciiLetter || decide (0x30 ≤ c.val ∧ c.val ≤ 0x39) || c ∈ PyStr.ofString "+-."

/-- The scheme in lower case, and what comes after it. -/
def splitScheme (url : PyStr) : PyStr × PyStr :=
  match url.partition 0x3A with
  | (c :: cs, true, after) =>
    if c.isAsciiLetter && (c :: cs).all isSchemeChar then ((c :: cs).map CodePoint.asciiLower, after) else ([], url)
  | _ => ([], url)

/-- What is parsed of a URL. -/
def clean (url : PyStr) : PyStr :=
  (url.dropWhile fun c => c.val ≤ 0x20).filter fun c => c ∉ PyStr.ofString "\t\r\n"

/-- `urlparse(url)`; it raises `ValueError` for a network location that is not accepted. -/
def urlparse (acceptsNetloc : PyStr → Bool) (url : PyStr) : Option ParsedUrl :=
  let (scheme, rest) := splitScheme (clean url)
  if rest.take 2 = PyStr.ofString "//" then
    let netloc := (rest.drop 2).takeWhile (· ∉ PyStr.ofString "/?#")
    if acceptsNetloc netloc then some ⟨scheme, netloc⟩ else none
  else some ⟨scheme, []⟩

/-- `hostname`, up to its case; none is the empty one. -/
def hostname (p : ParsedUrl) : PyStr :=
  let hostinfo := p.netloc.afterLast 0x40
  match hostinfo.partition 0x5B with
  | (_, true, bracketed) => (bracketed.partition 0x5D).1
  | (_, false, _) => (hostinfo.partition 0x3A).1

theorem hostname_of_netloc {p : ParsedUrl} (h : p.netloc = []) : p.hostname = [] := by
  obtain ⟨scheme, netloc⟩ := p
  cases h
  rfl

end ParsedUrl

end Machinery
