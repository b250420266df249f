import Manyforge.Coding.Findings
import Manyforge.Lib.Occurrence

/-!
# Redaction

`redactSecrets` and `redactDoc`. A regular expression is modelled by the length of the
match it finds at the beginning of a text; the four expressions end in a greedy run of
one class, so that the leftmost-first match is the longest.
-/
namespace Manyforge.Coding

open Occurrence

def redactedMarker : String := "[REDACTED]"

/-! ### The patterns -/

def isAlnum (c : Char) : Bool := c.isAlpha || c.isDigit

/-- A literal followed by at least `least` and at most `most` characters of a class. -/
def literalRun (literal : List Char) (cls : Char → Bool) (least : Nat) (most : Option Nat)
    (s : List Char) : Nat :=
  if literal <+: s then
    let run := ((s.drop literal.length).takeWhile cls).length
    let taken := (most.map (min run)).getD run
    if least ≤ taken then literal.length + taken else 0
  else 0

/-- `sk-[A-Za-z0-9_\-]{20,}`. -/
def skPattern : List Char → Nat :=
  literalRun "sk-".toList (fun c => isAlnum c || c == '_' || c == '-') 20 none

/-- `ghp_[A-Za-z0-9]{36}`. -/
def ghpPattern : List Char → Nat := literalRun "ghp_".toList isAlnum 36 (some 36)

/-- `github_pat_[A-Za-z0-9_]{50,}`. -/
def githubPatPattern : List Char → Nat :=
  literalRun "github_pat_".toList (fun c => isAlnum c || c == '_') 50 none

/-- The class `\s`. -/
def isRegexSpace (c : Char) : Bool :=
  c == '\t' || c == '\n' || c.toNat == 12 || c == '\r' || c == ' '

variable (s : List Char)

/-- `(?i)bearer\s+[A-Za-z0-9._\-]{16,}`. Folding adds the long s and the Kelvin sign to the
class. -/
def bearerPattern : Nat :=
  if (s.take 6).map Char.toLower = "bearer".toList then
    let blanks := ((s.drop 6).takeWhile isRegexSpace).length
    let run := ((s.drop (6 + blanks)).takeWhile fun c =>
      isAlnum c || c == '.' || c == '_' || c == '-' || c.toNat == 0x17f || c.toNat == 0x212a).length
    if 1 ≤ blanks ∧ 16 ≤ run then 6 + blanks + run else 0
  else 0

def secretPatterns : List (List Char → Nat) :=
  [skPattern, ghpPattern, githubPatPattern, bearerPattern]

/-! ### Redacting -/

/-- One of the known values, which is ignored below eight bytes. -/
def redactKnown (known : String) : List Char :=
  if 8 ≤ byteLength known then replaceAll known.toList redactedMarker.toList s else s

def redactPattern (pattern : List Char → Nat) : List Char :=
  rewrite pattern redactedMarker.toList s

def redactSecrets (s : String) (known : List String) : String :=
  String.ofList (secretPatterns.foldl redactPattern (known.foldl redactKnown s.toList))

def redactFinding (known : List String) (f : Finding) : Finding :=
  { f with title := redactSecrets f.title known, detail := redactSecrets f.detail known }

def redactDoc (doc : FindingsDoc) (known : List String) : FindingsDoc :=
  { summary := redactSecrets doc.summary known
    findings := doc.findings.map (redactFinding known) }

/-! ### What redaction leaves -/

variable {k : List Char}

section

variable (border : Delimited k redactedMarker.toList)

include border

variable {s : List Char}

theorem free_redactKnown (free : Free k s) (known : String) : Free k (redactKnown s known) := by
  unfold redactKnown
  split
  · exact free_rewrite border free
  · exact free

theorem free_foldl_redactKnown (free : Free k s) (known : List String) :
    Free k (known.foldl redactKnown s) := by
  induction known generalizing s with
  | nil => exact free
  | cons first rest ih => exact ih (free_redactKnown border free first)

theorem free_foldl_redactPattern (free : Free k s) (patterns : List (List Char → Nat)) :
    Free k (patterns.foldl redactPattern s) := by
  induction patterns generalizing s with
  | nil => exact free
  | cons first rest ih => exact ih (free_rewrite border free)

end

/-- A known secret does not occur in the redacted text. -/
theorem free_redactSecrets_known {secret : String}
    (border : Delimited secret.toList redactedMarker.toList) (long : 8 ≤ byteLength secret)
    {known : List String} (member : secret ∈ known) (s : String) :
    Free secret.toList (redactSecrets s known).toList := by
  rw [redactSecrets, String.toList_ofList]
  refine free_foldl_redactPattern border ?_ _
  -- It is gone after its own turn, and the later turns do not bring it back.
  generalize s.toList = text
  induction known generalizing text with
  | nil => cases member
  | cons first rest ih =>
    rcases List.mem_cons.mp member with rfl | later
    · refine free_foldl_redactKnown border ?_ rest
      rw [redactKnown, if_pos long]
      exact free_replaceAll border
    · exact ih later _

end Manyforge.Coding
