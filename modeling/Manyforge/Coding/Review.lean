import Manyforge.Coding.Redact

/-!
# Running a review

The part of `runJob` between the choice of the lanes and the stored result: the
credential of each lane with its fallbacks, the sandbox runs, the aggregation, the
redaction and the review that is posted. Directories, endpoint slots, usage and audit
entries are left out.
-/
namespace Manyforge.Coding

/-! ### Rendering -/

/-- `strings.ToUpper` on a severity, which is ASCII. -/
def toUpper (s : String) : String := String.ofList (s.toList.map Char.toUpper)

def ruleSuffix (f : Finding) : String :=
  if trimSpace f.ruleId = "" then "" else " _(rule: " ++ f.ruleId ++ ")_"

def renderInlineComment (f : Finding) : String :=
  "**[" ++ toUpper f.severity ++ "] " ++ f.title ++ "**" ++ ruleSuffix f ++
    (if trimSpace f.detail = "" then "" else "\n\n" ++ f.detail)

def findingLocation (f : Finding) : String :=
  match f.line with
  | some line => f.file ++ ":" ++ toString line
  | none => f.file

def renderLeftover (f : Finding) : String :=
  "- **[" ++ toUpper f.severity ++ "]** `" ++ findingLocation f ++ "` — " ++ f.title ++
    ruleSuffix f ++ "\n" ++ (if trimSpace f.detail = "" then "" else "  " ++ f.detail ++ "\n")

def renderLeftovers : List Finding → String
  | [] => ""
  | f :: rest => renderLeftover f ++ renderLeftovers rest

/-- A note about files, when there are any. -/
def renderFiles (opening explanation : String) (files : List String) : String :=
  if files = [] then ""
  else opening ++ toString files.length ++ explanation ++ join ", " files ++ "\n"

def renderReviewBody (summary : String) (leftover : List Finding) (inlineCount : Nat)
    (skipped omitted : List String) : String :=
  "## 🤖 Automated code review\n\n" ++ summary ++ "\n\n" ++
  (if 0 < inlineCount then
    "_" ++ toString inlineCount ++ " inline comment(s) posted on the changed lines._\n" else "") ++
  (if leftover = [] then "" else
    "\n### Other findings (not on changed lines) — " ++ toString leftover.length ++ "\n\n" ++
      renderLeftovers leftover) ++
  renderFiles "\nⓘ " " file(s) not reviewed (binary or too large): " skipped ++
  renderFiles "\n⚠ " " file(s) omitted (diff too large for the review budget): " omitted

structure ReviewComment where
  path : String
  line : Int
  body : String

/-- What is posted to the pull request and what is stored on the review row. -/
structure Review where
  body : String
  comments : List ReviewComment
  summary : String
  findings : List Finding

def inlineComment (changed : String → Int → Bool) (f : Finding) : Option ReviewComment :=
  match f.line with
  | some line =>
    if changed f.file line then some ⟨f.file, line, renderInlineComment f⟩ else none
  | none => none

def reviewMarker (dedupKey : String) : String :=
  "<!-- manyforge-review-id: " ++ dedupKey ++ " -->"

/-- `buildReview`, with the marker that `PostReview` appends to the body. -/
def buildReview (doc : FindingsDoc) (changed : String → Int → Bool)
    (skipped omitted : List String) (dedupKey : String) : Review :=
  let comments := doc.findings.filterMap (inlineComment changed)
  let leftover := doc.findings.filter fun f => (inlineComment changed f).isNone
  { body := renderReviewBody doc.summary leftover comments.length skipped omitted ++ "\n\n" ++
      reviewMarker dedupKey
    comments
    summary := doc.summary
    findings := doc.findings }

/-! ### The credentials of the lanes -/

structure AICredential where
  (apiKey baseUrl model provider : String)
  allowPrivateBaseUrl : Bool

/-- What a sandbox run is for. -/
inductive Lane where
  | chosen (dimension : String)
  | fallback (dimension : String) (index : Nat)
  | verify

structure SandboxRun where
  lane : Lane
  credential : AICredential
  attempt : Nat

structure SandboxResult where
  (failed timedOut : Bool)
  /-- `Outputs["review.json"]`. -/
  review : Option String

/-- What a review asks of the rest of the program and of the network. -/
structure ReviewEnv extends ReviewRuntime where
  /-- `AICredential.Host`. -/
  host : AICredential → String
  /-- `EgressAllow.Allows`. -/
  allows : String → Bool
  privateBaseURLBlocked : String → Bool → Bool
  /-- `Creds.ResolveProvider`. -/
  resolveProvider : String → String → Option AICredential
  /-- The probe of a candidate of a lane. -/
  live : String → Nat → Bool
  sandbox : SandboxRun → SandboxResult

variable (env : ReviewEnv)

def laneCandidates (dim : Dimension) : List FallbackEntry :=
  ⟨dim.provider, dim.model⟩ :: dim.fallbackChain

def laneCredFor (default : AICredential) (provider model : String) : Option AICredential :=
  let resolved :=
    if provider ≠ "" ∧ ¬ env.equalFold provider default.provider then
      env.resolveProvider provider model
    else if trimSpace model ≠ "" then some { default with model }
    else some default
  resolved.filter fun lc =>
    env.host lc != "" && env.allows (env.host lc) &&
      !env.privateBaseURLBlocked (env.host lc) lc.allowPrivateBaseUrl

/-- The loop of `resolveLaneCred` from the candidate with the given index on; `first` is the first
candidate that resolved, with what follows it. -/
def resolveLaneFrom (default : AICredential) (key : String)
    (first : Option (AICredential × List FallbackEntry)) :
    Nat → List FallbackEntry → Option (AICredential × List FallbackEntry)
  | _, [] => first
  | index, c :: rest =>
    match laneCredFor env default c.provider c.model with
    | none => resolveLaneFrom default key first (index + 1) rest
    | some lc =>
      if env.live key index then some (lc, rest)
      else resolveLaneFrom default key (first.or (some (lc, rest))) (index + 1) rest

/-- `resolveLaneCred`: the credential and the fallbacks that were not tried. -/
def resolveLaneCred (default : AICredential) (dim : Dimension) :
    Option (AICredential × List FallbackEntry) :=
  resolveLaneFrom env default dim.key none 0 (laneCandidates dim)

/-! ### The sandbox runs -/

def runLaneOnce (run : SandboxRun) : Except LaneError FindingsDoc :=
  let result := env.sandbox run
  if result.failed then .error (if result.timedOut then .timedOut else .sandbox)
  else match result.review with
    | none => .error .noOutput
    | some raw =>
      match parseFindings env.toReviewRuntime raw with
      | .ok doc => .ok doc
      | .error e => .error (.unparseable e)

/-- `runSandboxLane`: a second attempt when the first one exits cleanly without a document. -/
def runSandboxLane (lane : Lane) (credential : AICredential) : Except LaneError FindingsDoc :=
  match runLaneOnce env ⟨lane, credential, 0⟩ with
  | .error .noOutput => runLaneOnce env ⟨lane, credential, 1⟩
  | .error (.unparseable _) => runLaneOnce env ⟨lane, credential, 1⟩
  | outcome => outcome

/-- The fallbacks of `reviewLane`, from the one with the given index on. -/
def runFallbacks (default chosen : AICredential) (dimension : String)
    (failure : LaneError) : Nat → List FallbackEntry → Except LaneError FindingsDoc
  | _, [] => .error failure
  | index, fb :: rest =>
    if env.equalFold fb.provider chosen.provider ∧ fb.model = chosen.model then
      runFallbacks default chosen dimension failure (index + 1) rest
    else match laneCredFor env default fb.provider fb.model with
      | none => runFallbacks default chosen dimension failure (index + 1) rest
      | some credential =>
        match runSandboxLane env (.fallback dimension index) credential with
        | .ok doc => .ok doc
        | .error _ => runFallbacks default chosen dimension failure (index + 1) rest

def reviewLane (default : AICredential) (dim : Dimension)
    (lane : AICredential × List FallbackEntry) : LaneResult :=
  ⟨dim, match runSandboxLane env (.chosen dim.key) lane.1 with
    | .ok doc => .ok doc
    | .error failure => runFallbacks env default lane.1 dim.key failure 0 lane.2⟩

/-! ### The review -/

structure VerifySettings where
  (provider model : String)

/-- What the review of a claimed row reads. -/
structure ReviewJob where
  reviewId : String
  credential : AICredential
  repoToken : String
  /-- The active dimensions, in order. -/
  active : List Dimension
  /-- The verify settings, when the pass is enabled. -/
  verify : Option VerifySettings
  prior : List (String × Bool)
  changed : String → Int → Bool
  (skippedFiles omittedFiles : List String)

def laneResults (job : ReviewJob) : List LaneResult :=
  job.active.filterMap fun dim =>
    (resolveLaneCred env job.credential dim).map (reviewLane env job.credential dim)

def verifyDoc (job : ReviewJob) (doc : FindingsDoc) : FindingsDoc :=
  match job.verify with
  | none => doc
  | some settings =>
    if doc.findings = [] then doc
    else match laneCredFor env job.credential settings.provider settings.model with
      | none => doc
      | some credential =>
        { doc with
          findings := verifyOutcome env.toReviewRuntime doc.findings
            (runSandboxLane env .verify credential) }

/-- The delta line, once the pull request has earlier reviews. -/
def trackIterations (job : ReviewJob) (doc : FindingsDoc) : FindingsDoc :=
  if job.prior = [] then doc
  else
    let (delta, _) := classifyCrossIteration env.toReviewRuntime job.prior doc.findings
    { doc with summary := delta.summaryLine ++ "\n\n" ++ doc.summary }

def reviewDoc (job : ReviewJob) : Except LaneError FindingsDoc :=
  match aggregateReview env.toReviewRuntime (laneResults env job) with
  | .error e => .error e
  | .ok doc => .ok (trackIterations env job (verifyDoc env job doc))

/-- What `redactDoc` is given. -/
def ReviewJob.known (job : ReviewJob) : List String := [job.credential.apiKey, job.repoToken]

/-- `runJob`, up to the review it posts and stores. -/
def runJob (job : ReviewJob) : Except LaneError Review :=
  match reviewDoc env job with
  | .error e => .error e
  | .ok doc =>
    .ok (buildReview (redactDoc doc job.known) job.changed job.skippedFiles job.omittedFiles
      job.reviewId)

/-- The secrets used in a review: the default key, the repository token, and the key of every lane,
every fallback and the verifier. -/
def ReviewJob.secrets (job : ReviewJob) : List String :=
  job.credential.apiKey :: job.repoToken ::
    ((job.active.flatMap fun dim => (laneCandidates dim).filterMap fun c =>
        laneCredFor env job.credential c.provider c.model) ++
      job.verify.toList.filterMap fun settings =>
        laneCredFor env job.credential settings.provider settings.model).map (·.apiKey)

end Manyforge.Coding
