import Manyforge.Text
import Mathlib.Data.List.Sort
import Mathlib.Data.String.Basic
import Mathlib.Data.List.Dedup

/-!
# Review findings

From the text a review lane prints to the findings of the whole review: `ParseFindings`,
`aggregateReview`, the verify pass and the comparison with earlier reviews of the pull
request. Token counts, costs and log entries are left out.
-/
namespace Manyforge.Coding

structure Finding where
  file : String
  line : Option Int
  (severity title detail dimension ruleId : String)
  deriving DecidableEq

structure FindingsDoc where
  summary : String
  findings : List Finding

/-- A document as `json.Unmarshal` fills it: an absent array of findings is `nil`. -/
structure DecodedDoc where
  summary : String
  findings : Option (List Finding)

/-- The parts of the Go library whose tables are not modelled. -/
structure ReviewRuntime where
  /-- `strings.ToLower`. -/
  toLower : String → String
  /-- `strings.EqualFold`. -/
  equalFold : String → String → Bool
  /-- `json.Unmarshal` into a `FindingsDoc`. -/
  decode : String → Option DecodedDoc
  /-- The hexadecimal text of `sha256.Sum256`. -/
  sha256 : String → String

def join (sep : String) : List String → String
  | [] => ""
  | [part] => part
  | part :: next :: rest => part ++ sep ++ join sep (next :: rest)

def trimPrefix (s lead : String) : String :=
  if lead.toList <+: s.toList then String.ofList (s.toList.drop lead.toList.length) else s

/-! ### ParseFindings -/

/-- The state of `topLevelJSONObjects`; `region` is what was read since the brace at depth zero, the
last character first. -/
structure Scan where
  depth : Nat
  region : List Char
  (inStr esc : Bool)
  out : List String

def Scan.read (scan : Scan) (c : Char) : Scan :=
  let region := if scan.depth = 0 then [] else c :: scan.region
  if scan.inStr then
    if scan.esc then { scan with region, esc := false }
    else if c = '\\' then { scan with region, esc := true }
    else if c = '"' then { scan with region, inStr := false }
    else { scan with region }
  else if c = '"' then { scan with region, inStr := true }
  else if c = '{' then { scan with region := c :: scan.region, depth := scan.depth + 1 }
  else if c = '}' ∧ 0 < scan.depth then
    if scan.depth = 1 then
      { scan with depth := 0, region := [], out := scan.out ++ [String.ofList region.reverse] }
    else { scan with region, depth := scan.depth - 1 }
  else { scan with region }

/-- The balanced regions between braces, outside strings. -/
def topLevelJSONObjects (s : String) : List String :=
  (s.toList.foldl Scan.read ⟨0, [], false, false, []⟩).out

inductive ParseError where
  | empty
  | noFindings
  | malformed
  | missing (index : Nat)
  | badSeverity (index : Nat)

def validSeverity : List String := ["info", "warning", "error"]

def sandboxSrcPrefix : String := "/tmp/src/"

variable (rt : ReviewRuntime) (f : Finding)

def normalizeFinding : Finding :=
  { f with
    file := trimPrefix (trimSpace f.file) sandboxSrcPrefix
    severity := rt.toLower (trimSpace f.severity) }

/-- The loop of `ParseFindings` over the findings, from the given index on. -/
def checkFindings (rt : ReviewRuntime) : Nat → List Finding → Except ParseError (List Finding)
  | _, [] => .ok []
  | index, f :: rest =>
    let f := normalizeFinding rt f
    if f.file = "" ∨ f.title = "" then .error (.missing index)
    else if f.severity ∉ validSeverity then .error (.badSeverity index)
    else match checkFindings rt (index + 1) rest with
      | .ok rest => .ok (f :: rest)
      | .error e => .error e

def defaultSummary (summary : String) (findings : List Finding) : String :=
  if trimSpace summary = "" then
    if findings = [] then "No issues found." else "Code review findings."
  else summary

def decodedDocs (raw : String) : List DecodedDoc :=
  (topLevelJSONObjects raw).filterMap rt.decode

/-- `ParseFindings`: the first document that has findings or a summary. -/
def parseFindings (raw : String) : Except ParseError FindingsDoc :=
  if topLevelJSONObjects raw = [] then .error .empty
  else match (decodedDocs rt raw).find? fun d => d.findings.isSome || trimSpace d.summary != "" with
    | none => .error (if (decodedDocs rt raw).isEmpty then .malformed else .noFindings)
    | some d =>
      match checkFindings rt 0 (d.findings.getD []) with
      | .error e => .error e
      | .ok findings => .ok ⟨defaultSummary d.summary findings, findings⟩

/-! ### aggregateReview -/

structure FallbackEntry where
  (provider model : String)
  deriving DecidableEq

/-- What of a `Dimension` the review of one lane reads. -/
structure Dimension where
  (key provider model : String)
  fallbackChain : List FallbackEntry
  minSeverity : String

/-- `FailReason`. -/
inductive LaneError where
  | sandbox
  | timedOut
  | noOutput
  | unparseable (error : ParseError)
  | noDimensions

structure LaneResult where
  dim : Dimension
  doc : Except LaneError FindingsDoc

variable (results : List LaneResult)

def generalDimensionKey : String := "general"

def severityRank (s : String) : Nat :=
  let s := rt.toLower (trimSpace s)
  if s = "error" then 2 else if s = "warning" then 1 else 0

def applySeverityFloor (findings : List Finding) (minSeverity : String) : List Finding :=
  findings.filter fun f => severityRank rt minSeverity ≤ severityRank rt f.severity

/-- `strings.Split(s, ",")`, trimmed, without empty tags. -/
def dimensionTags (s : String) : List String :=
  ((s.toList.splitOn ',').map fun part => trimSpace (String.ofList part)).filter (· != "")

def mergeDimensionTags (a b : String) : String :=
  join ", " ((dimensionTags a ++ dimensionTags b).dedup.insertionSort fun s t =>
    s.toList ≤ t.toList)

/-- The key of `dedupeFindings`, with `-1` for a finding without a line. -/
def dedupeKey : String × String × Int :=
  (trimSpace f.file, rt.toLower (trimSpace f.title), f.line.getD (-1))

def mergeFinding (kept f : Finding) : Finding :=
  let higher := severityRank rt kept.severity < severityRank rt f.severity
  { kept with
    severity := if higher then f.severity else kept.severity
    detail := if higher then f.detail else kept.detail
    dimension := mergeDimensionTags kept.dimension f.dimension }

def dedupeFinding (out : List Finding) (f : Finding) : List Finding :=
  if out.any fun kept => dedupeKey rt kept = dedupeKey rt f then
    out.map fun kept => if dedupeKey rt kept = dedupeKey rt f then mergeFinding rt kept f else kept
  else out ++ [f]

def dedupeFindings (findings : List Finding) : List Finding :=
  findings.foldl (dedupeFinding rt) []

def laneFindings (dim : Dimension) (doc : FindingsDoc) : List Finding :=
  let floored := applySeverityFloor rt doc.findings dim.minSeverity
  -- The general lane keeps the tag that the model wrote.
  if dim.key = generalDimensionKey then floored
  else floored.map fun f => { f with dimension := dim.key }

/-- The lanes that produced a document. -/
def survivors : List (Dimension × FindingsDoc) :=
  results.filterMap fun r => match r.doc with
    | .ok doc => some (r.dim, doc)
    | .error _ => none

def firstError : Option LaneError :=
  results.findSome? fun r => match r.doc with
    | .ok _ => none
    | .error e => some e

def aggregateReview : Except LaneError FindingsDoc :=
  if survivors results = [] then .error ((firstError results).getD .noDimensions)
  else .ok
    { summary := join "\n\n" (((survivors results).map fun r => trimSpace r.2.summary).filter
        (· != ""))
      findings := dedupeFindings rt ((survivors results).flatMap fun r =>
        laneFindings rt r.1 r.2) }

/-! ### The verify pass -/

def findingMatchKey : String :=
  trimSpace f.file ++ "\x00" ++ toString (f.line.getD (-1)) ++ "\x00" ++
    rt.toLower (trimSpace f.title)

/-- `verifyOutcome`, the kept findings: all of them when the verifier fails. -/
def verifyOutcome (original : List Finding) : Except LaneError FindingsDoc → List Finding
  | .error _ => original
  | .ok confirmed => original.filter fun f =>
      confirmed.findings.any fun c => findingMatchKey rt c == findingMatchKey rt f

/-! ### Earlier reviews -/

def crossIterationFingerprint : String :=
  let rule := trimSpace f.ruleId
  let key := if rule = "" then rt.toLower (trimSpace f.title) else rule
  rt.sha256 (rt.toLower (trimSpace f.file) ++ "\x00" ++ key)

structure FindingDelta where
  (new carryover resolved : Nat)

/-- The variables of the loop of `classifyCrossIteration`; `seen` has the same elements as
`currentFps`. -/
structure Classification where
  (new carryover : Nat)
  currentFps : List String

def Classification.visit (prior : List (String × Bool)) (c : Classification) (fp : String) :
    Classification :=
  if c.currentFps.contains fp then c
  else if prior.any (fun p => p.1 == fp) then
    { c with carryover := c.carryover + 1, currentFps := c.currentFps ++ [fp] }
  else { c with new := c.new + 1, currentFps := c.currentFps ++ [fp] }

/-- `classifyCrossIteration`, with the fingerprints in the order of the findings; `prior` maps the
fingerprints seen before to whether they are open. -/
def classifyCrossIteration (prior : List (String × Bool))
    (current : List Finding) : FindingDelta × List String :=
  let c :=
    (current.map (crossIterationFingerprint rt)).foldl (Classification.visit prior) ⟨0, 0, []⟩
  (⟨c.new, c.carryover, (prior.filter fun p => p.2 && !c.currentFps.contains p.1).length⟩,
    c.currentFps)

def FindingDelta.summaryLine (d : FindingDelta) : String :=
  "_Since the last review of this PR: " ++ toString d.new ++ " new · " ++ toString d.carryover ++
    " carried over · " ++ toString d.resolved ++ " resolved._"

end Manyforge.Coding
