import Manyforge.Coding.Review

/-!
# Secrecy of reviews

`redactDoc` takes two of the secrets of a review out of three of the texts of its
findings. The module says when this is enough: which secrets stay out of the posted
review and of the stored row, for which documents that `redactDoc` is given.
-/
namespace Manyforge.Coding

open Occurrence

def Hides (secret text : String) : Prop := Free secret.toList text.toList
  deriving Decidable

/-! ### Texts put together -/

/-- The characters that the rendering puts around the texts of a finding. -/
def separators : List Char := ['\n', ' ', '*', '\x60', '[', ']', ':', '(', ')', ',']

/-- The fixed texts of a review. -/
def fixedTexts : List String :=
  ["\n\n", "\n", "  ", ", ", ":", "**[", "] ", "**", " _(rule: ", ")", "- **[", "]** `", "` — ",
   "## 🤖 Automated code review\n\n", " inline comment(s) posted on the changed lines._\n",
   "\n### Other findings (not on changed lines) — ",
   "\nⓘ ", " file(s) not reviewed (binary or too large): ",
   "\n⚠ ", " file(s) omitted (diff too large for the review budget): ",
   "info", "warning", "error", "INFO", "WARNING", "ERROR", redactedMarker]

/-- The characters of a number, and the underscore that stands next to one. -/
def isNumeral (c : Char) : Bool := c.isDigit || c == '-' || c == '_'

/-- What an API key or an access token looks like. -/
structure Token (secret : String) : Prop where
  separated : ∀ c ∈ separators, c ∉ secret.toList
  wordy : ∃ c ∈ secret.toList, isNumeral c = false
  fixed : ∀ text ∈ fixedTexts, Hides secret text

-- The letters are run through as lists: there are finitely many characters, and going through
-- all of them is what an instance would otherwise do.
instance (secret : String) : Decidable (Token secret) :=
  decidable_of_iff ((separators.all fun c => !secret.toList.contains c) = true ∧
    (secret.toList.any fun c => !isNumeral c) = true ∧ ∀ text ∈ fixedTexts, Hides secret text) <| by
  constructor
  · rintro ⟨separated, wordy, fixed⟩
    exact ⟨by simpa using separated, by simpa using wordy, fixed⟩
  · rintro ⟨separated, wordy, fixed⟩
    exact ⟨by simpa using separated, by simpa using wordy, fixed⟩

def opens (text : String) : Bool := text.toList.head?.any separators.contains

def closes (text : String) : Bool := text.toList.getLast?.any separators.contains

namespace Token

variable {secret : String} {a b text : String} (token : Token secret)
include token

theorem hides_empty : Hides secret "" := by
  have fixed := token.fixed "\n" (by decide)
  exact fixed.mono List.nil_infix

theorem opening (border : opens text = true) :
    ∃ c rest, text.toList = c :: rest ∧ c ∉ secret.toList := by
  unfold opens at border
  cases shape : text.toList with
  | nil => simp [shape] at border
  | cons c rest =>
    simp only [shape, List.head?_cons, Option.any_some, List.contains_eq_mem,
      decide_eq_true_eq] at border
    exact ⟨c, rest, rfl, token.separated c border⟩

theorem closing (border : closes text = true) :
    ∃ c rest, text.toList = rest ++ [c] ∧ c ∉ secret.toList := by
  unfold closes at border
  rcases List.eq_nil_or_concat text.toList with shape | ⟨rest, c, shape⟩
  · simp [shape] at border
  · rw [List.concat_eq_append] at shape
    simp only [shape, List.getLast?_concat, Option.any_some, List.contains_eq_mem,
      decide_eq_true_eq] at border
    exact ⟨c, rest, shape, token.separated c border⟩

theorem hides_opened (border : opens b = true) (left : Hides secret a)
    (right : Hides secret b) : Hides secret (a ++ b) := by
  obtain ⟨c, rest, shape, outside⟩ := token.opening border
  unfold Hides at right ⊢
  rw [shape] at right
  rw [String.toList_append, shape]
  exact (free_append_cons outside).mpr ⟨left, right.mono (List.suffix_cons c rest).isInfix⟩

theorem hides_closed (border : closes a = true) (left : Hides secret a)
    (right : Hides secret b) : Hides secret (a ++ b) := by
  obtain ⟨c, rest, shape, outside⟩ := token.closing border
  unfold Hides at left ⊢
  rw [shape] at left
  rw [String.toList_append, shape, List.append_assoc, List.singleton_append]
  exact (free_append_cons outside).mpr ⟨left.mono (List.prefix_append rest [c]).isInfix, right⟩

theorem hides_between (text : String) (fixed : text ∈ fixedTexts)
    (border : opens text = true ∧ closes text = true) (left : Hides secret a)
    (right : Hides secret b) : Hides secret (a ++ text ++ b) := by
  have both : Delimited secret.toList text.toList :=
    ⟨token.opening border.1, token.closing border.2, token.fixed text fixed⟩
  have joined := both.free_append left right
  unfold Hides
  rwa [String.toList_append, String.toList_append]

theorem marker : Delimited secret.toList redactedMarker.toList :=
  ⟨token.opening (by decide), token.closing (by decide), token.fixed _ (by decide)⟩

theorem hides_numeral (numeral : ∀ c ∈ text.toList, isNumeral c = true) : Hides secret text := by
  obtain ⟨c, member, other⟩ := token.wordy
  intro occurs
  simp [numeral c (occurs.subset member)] at other

theorem hides_nat (n : Nat) : Hides secret (toString n) := by
  refine token.hides_numeral fun c member => ?_
  have digits : c ∈ Nat.toDigits 10 n := by rwa [← Nat.toList_repr]
  simp [isNumeral, Nat.isDigit_of_mem_toDigits (by decide) (by decide) digits]

theorem hides_int (n : Int) : Hides secret (toString n) := by
  cases n with
  | ofNat n => exact token.hides_nat n
  | negSucc n =>
    refine token.hides_numeral fun c member => ?_
    have shape : (toString (Int.negSucc n)).toList = '-' :: Nat.toDigits 10 n.succ := by
      rw [show toString (Int.negSucc n) = "-" ++ n.succ.repr from rfl, String.toList_append,
        Nat.toList_repr]
      rfl
    rw [shape] at member
    rcases List.mem_cons.mp member with rfl | digits
    · decide
    · simp [isNumeral, Nat.isDigit_of_mem_toDigits (by decide) (by decide) digits]

theorem hides_join (sep : String) (fixed : sep ∈ fixedTexts)
    (border : opens sep = true ∧ closes sep = true) {parts : List String}
    (each : ∀ part ∈ parts, Hides secret part) : Hides secret (join sep parts) := by
  induction parts with
  | nil => exact token.hides_empty
  | cons part rest ih =>
    cases rest with
    | nil => exact each part List.mem_cons_self
    | cons next rest =>
      exact token.hides_between sep fixed border (each part List.mem_cons_self)
        (ih fun p member => each p (List.mem_cons_of_mem _ member))

end Token

/-! ### The severities -/

/-- The severities that `ParseFindings` lets through. -/
def Graded (findings : List Finding) : Prop := ∀ f ∈ findings, f.severity ∈ validSeverity

section Severities

variable {env : ReviewEnv} {rt : ReviewRuntime} {doc : FindingsDoc}

theorem checkFindings_graded {index : Nat} {fs out : List Finding}
    (checked : checkFindings rt index fs = .ok out) : Graded out := by
  induction fs generalizing index out with
  | nil =>
    obtain rfl := Except.ok.inj checked
    exact List.forall_mem_nil _
  | cons f rest ih =>
    simp only [checkFindings] at checked
    split at checked
    · cases checked
    split at checked
    · cases checked
    next valid =>
    split at checked
    next tail rest_checked =>
      obtain rfl := Except.ok.inj checked
      exact List.forall_mem_cons.mpr ⟨not_not.mp valid, ih rest_checked⟩
    next => cases checked

theorem runLaneOnce_graded {run : SandboxRun} (ran : runLaneOnce env run = .ok doc) :
    Graded doc.findings := by
  simp only [runLaneOnce, parseFindings] at ran
  split at ran
  · cases ran
  split at ran
  · cases ran
  split at ran
  next parsed =>
    obtain rfl := Except.ok.inj ran
    split at parsed
    · cases parsed
    split at parsed
    · cases parsed
    split at parsed
    · cases parsed
    next checked =>
      obtain rfl := Except.ok.inj parsed
      exact checkFindings_graded checked
  next => cases ran

theorem runSandboxLane_graded {lane : Lane} {credential : AICredential}
    (ran : runSandboxLane env lane credential = .ok doc) : Graded doc.findings := by
  unfold runSandboxLane at ran
  split at ran
  · exact runLaneOnce_graded ran
  · exact runLaneOnce_graded ran
  · exact runLaneOnce_graded ran

theorem runFallbacks_graded {default chosen : AICredential} {dimension : String}
    {failure : LaneError} {index : Nat} {rest : List FallbackEntry}
    (ran : runFallbacks env default chosen dimension failure index rest = .ok doc) :
    Graded doc.findings := by
  induction rest generalizing index with
  | nil => cases ran
  | cons fb rest ih =>
    simp only [runFallbacks] at ran
    split at ran
    · exact ih ran
    split at ran
    · exact ih ran
    split at ran
    next ran' =>
      obtain rfl := Except.ok.inj ran
      exact runSandboxLane_graded ran'
    next => exact ih ran

theorem reviewLane_graded {default : AICredential} {dim : Dimension}
    {lane : AICredential × List FallbackEntry}
    (ran : (reviewLane env default dim lane).doc = .ok doc) : Graded doc.findings := by
  simp only [reviewLane] at ran
  split at ran
  next ran' =>
    obtain rfl := Except.ok.inj ran
    exact runSandboxLane_graded ran'
  next => exact runFallbacks_graded ran

theorem dedupeFindings_graded {findings : List Finding} (graded : Graded findings) :
    Graded (dedupeFindings rt findings) := by
  -- The findings kept so far are graded, whatever comes next.
  refine List.foldlRecOn findings (dedupeFinding rt) (List.forall_mem_nil _)
    fun out kept f member g here => ?_
  unfold dedupeFinding at here
  split at here
  · obtain ⟨old, old_mem, rfl⟩ := List.mem_map.mp here
    split
    · simp only [mergeFinding]
      split
      · exact graded f member
      · exact kept old old_mem
    · exact kept old old_mem
  · rcases List.mem_append.mp here with old | new
    · exact kept g old
    · exact List.mem_singleton.mp new ▸ graded f member

theorem laneFindings_graded {dim : Dimension} (graded : Graded doc.findings) :
    Graded (laneFindings rt dim doc) := by
  intro f member
  simp only [laneFindings] at member
  split at member
  · exact graded f (List.mem_filter.mp member).1
  · obtain ⟨g, floored, rfl⟩ := List.mem_map.mp member
    exact graded g (List.mem_filter.mp floored).1

theorem aggregateReview_graded {job : ReviewJob}
    (aggregated : aggregateReview rt (laneResults env job) = .ok doc) : Graded doc.findings := by
  unfold aggregateReview at aggregated
  split at aggregated
  · cases aggregated
  obtain rfl := Except.ok.inj aggregated
  refine dedupeFindings_graded fun f member => ?_
  obtain ⟨r, r_mem, here⟩ := List.mem_flatMap.mp member
  obtain ⟨result, result_mem, survives⟩ := List.mem_filterMap.mp r_mem
  obtain ⟨dim, -, resolved⟩ := List.mem_filterMap.mp result_mem
  obtain ⟨lane, -, rfl⟩ := Option.map_eq_some_iff.mp resolved
  split at survives
  next ran =>
    obtain rfl := Option.some.inj survives
    exact laneFindings_graded (reviewLane_graded ran) f here
  next => cases survives

theorem verifyOutcome_subset (original : List Finding) (outcome : Except LaneError FindingsDoc) :
    verifyOutcome rt original outcome ⊆ original := by
  cases outcome with
  | error => exact List.Subset.refl original
  | ok confirmed => exact List.filter_subset_self _

theorem reviewDoc_graded {job : ReviewJob} (reviewed : reviewDoc env job = .ok doc) :
    Graded doc.findings := by
  unfold reviewDoc at reviewed
  split at reviewed
  · cases reviewed
  next aggregated same =>
  obtain rfl := Except.ok.inj reviewed
  have graded := aggregateReview_graded same
  have verified : Graded (verifyDoc env job aggregated).findings := by
    unfold verifyDoc
    split
    · exact graded
    split
    · exact graded
    split
    · exact graded
    · exact fun f member => graded f (verifyOutcome_subset _ _ member)
  unfold trackIterations
  split
  · exact verified
  · exact verified

end Severities

/-! ### The posted review -/

/-- When a secret stays out of a review: it is a token, no text that is not redacted has it in the
document that `redactDoc` is given, and it is one of the redacted secrets or no redacted text has it
in the end. -/
structure Unexposed (env : ReviewEnv) (job : ReviewJob) (secret : String) : Prop where
  token : Token secret
  marker : Hides secret (reviewMarker job.reviewId)
  files : ∀ file ∈ job.skippedFiles ++ job.omittedFiles, Hides secret file
  unredacted : ∀ doc, reviewDoc env job = .ok doc → ∀ f ∈ doc.findings,
    Hides secret f.file ∧ Hides secret f.ruleId ∧ Hides secret f.dimension
  redacted : secret ∈ job.known ∨ ∀ doc, reviewDoc env job = .ok doc →
    Hides secret (redactSecrets doc.summary job.known) ∧ ∀ f ∈ doc.findings,
      Hides secret (redactSecrets f.title job.known) ∧
        Hides secret (redactSecrets f.detail job.known)

/-- A finding whose texts are all without the secret, as redaction leaves it. -/
structure HiddenFinding (secret : String) (f : Finding) : Prop where
  file : Hides secret f.file
  severity : f.severity ∈ validSeverity
  title : Hides secret f.title
  detail : Hides secret f.detail
  dimension : Hides secret f.dimension
  ruleId : Hides secret f.ruleId

/-- The secret is nowhere in the posted review, nor in the stored summary and findings. -/
structure Review.Hidden (review : Review) (secret : String) : Prop where
  body : Hides secret review.body
  comments : ∀ c ∈ review.comments, Hides secret c.path ∧ Hides secret c.body
  summary : Hides secret review.summary
  findings : ∀ f ∈ review.findings, Hides secret f.file ∧ Hides secret f.severity ∧
    Hides secret f.title ∧ Hides secret f.detail ∧ Hides secret f.dimension ∧ Hides secret f.ruleId

/-- A text without a part of the secret is without the secret. -/
theorem Review.Hidden.of_part {review : Review} {part secret : String}
    (within : part.toList <:+: secret.toList) (hidden : review.Hidden part) :
    review.Hidden secret := by
  have whole {text : String} (hides : Hides part text) : Hides secret text :=
    fun occurs => hides (within.trans occurs)
  refine ⟨whole hidden.body, fun c member => ?_, whole hidden.summary, fun f member => ?_⟩
  · exact (hidden.comments c member).imp whole whole
  · obtain ⟨file, severity, title, detail, dimension, ruleId⟩ := hidden.findings f member
    exact ⟨whole file, whole severity, whole title, whole detail, whole dimension, whole ruleId⟩

namespace Token

variable {secret : String} {f : Finding} (token : Token secret)
include token

theorem hides_severity (valid : f.severity ∈ validSeverity) :
    Hides secret f.severity ∧ Hides secret (toUpper f.severity) := by
  simp only [validSeverity, List.mem_cons, List.not_mem_nil, or_false] at valid
  rcases valid with same | same | same <;> rw [same]
  · exact ⟨token.fixed _ (by decide), token.fixed (toUpper "info") (by decide)⟩
  · exact ⟨token.fixed _ (by decide), token.fixed (toUpper "warning") (by decide)⟩
  · exact ⟨token.fixed _ (by decide), token.fixed (toUpper "error") (by decide)⟩

/-- The cited rule stands between a blank and a bracket, and what follows it begins with a
separator. -/
theorem hides_ruleSuffix (hidden : HiddenFinding secret f) {before : String}
    (left : Hides secret before) : Hides secret (before ++ ruleSuffix f) := by
  unfold ruleSuffix
  split
  · simpa using left
  · have rule := token.hides_between " _(rule: " (by decide) (by decide) left hidden.ruleId
    have underscore : Hides secret "_" := token.hides_numeral (List.all_eq_true.mp (by decide))
    have closed := token.hides_between ")" (by decide) (by decide) rule underscore
    have suffix : ")" ++ "_" = ")_" := by decide
    simpa only [String.append_assoc, suffix] using closed

theorem hides_renderInlineComment (hidden : HiddenFinding secret f) :
    Hides secret (renderInlineComment f) := by
  have severity := token.hides_closed (by decide) (token.fixed "**[" (by decide))
    (token.hides_severity hidden.severity).2
  have title := token.hides_between "] " (by decide) (by decide) severity hidden.title
  have bold := token.hides_opened (by decide) title (token.fixed "**" (by decide))
  have ruled := token.hides_ruleSuffix hidden bold
  unfold renderInlineComment
  split
  · simpa only [String.append_empty] using ruled
  · rw [← String.append_assoc]
    exact token.hides_between "\n\n" (by decide) (by decide) ruled hidden.detail

theorem hides_findingLocation (hidden : HiddenFinding secret f) :
    Hides secret (findingLocation f) := by
  unfold findingLocation
  split
  · exact token.hides_between ":" (by decide) (by decide) hidden.file (token.hides_int _)
  · exact hidden.file

theorem hides_renderLeftovers {fs : List Finding}
    (hidden : ∀ f ∈ fs, HiddenFinding secret f) : Hides secret (renderLeftovers fs) := by
  induction fs with
  | nil => exact token.hides_empty
  | cons f rest ih =>
    have rest_hidden := ih fun g member => hidden g (List.mem_cons_of_mem _ member)
    have here := hidden f List.mem_cons_self
    have severity := token.hides_closed (by decide) (token.fixed "- **[" (by decide))
      (token.hides_severity here.severity).2
    have location := token.hides_between "]** `" (by decide) (by decide) severity
      (token.hides_findingLocation here)
    have title := token.hides_between "` — " (by decide) (by decide) location here.title
    have ruled := token.hides_ruleSuffix here title
    simp only [renderLeftovers, renderLeftover]
    split
    · simpa only [String.append_empty] using
        token.hides_between "\n" (by decide) (by decide) ruled rest_hidden
    · have detail := token.hides_between "\n" (by decide) (by decide) here.detail rest_hidden
      have indented := token.hides_closed (by decide) (token.fixed "  " (by decide)) detail
      simpa only [String.append_assoc] using
        token.hides_between "\n" (by decide) (by decide) ruled indented

omit token in
theorem opens_append {a b : String} (border : opens a = true) : opens (a ++ b) = true := by
  unfold opens at border ⊢
  rw [String.toList_append]
  cases shape : a.toList with
  | nil => simp [shape] at border
  | cons c rest => simpa [shape] using border

theorem hides_part {a b : String} (left : Hides secret a)
    (right : Hides secret b) (border : b = "" ∨ opens b = true) : Hides secret (a ++ b) := by
  rcases border with rfl | border
  · simpa using left
  · exact token.hides_opened border left right

theorem hides_renderFiles (opening explanation : String)
    (open_fixed : opening ∈ fixedTexts) (open_border : opens opening = true ∧ closes opening = true)
    (expl_fixed : explanation ∈ fixedTexts)
    (expl_border : opens explanation = true ∧ closes explanation = true) {files : List String}
    (each : ∀ file ∈ files, Hides secret file) {before : String} (left : Hides secret before) :
    Hides secret (before ++ renderFiles opening explanation files) := by
  unfold renderFiles
  split
  · simpa using left
  · have counted := token.hides_between opening open_fixed open_border left
      (token.hides_nat files.length)
    have names := token.hides_between explanation expl_fixed expl_border counted
      (token.hides_join ", " (by decide) (by decide) each)
    have ended := token.hides_opened (by decide) names (token.fixed "\n" (by decide))
    simpa only [String.append_assoc] using ended

theorem hides_renderReviewBody {summary : String} {leftover : List Finding}
    {inlineCount : Nat} {skipped omitted : List String} (summary_hides : Hides secret summary)
    (hidden : ∀ f ∈ leftover, HiddenFinding secret f)
    (files : ∀ file ∈ skipped ++ omitted, Hides secret file) :
    Hides secret (renderReviewBody summary leftover inlineCount skipped omitted) := by
  have header := token.hides_closed (by decide)
    (token.fixed "## 🤖 Automated code review\n\n" (by decide)) summary_hides
  -- The count of the inline comments has an underscore in front of it.
  have count : Hides secret ("_" ++ toString inlineCount) := by
    refine token.hides_numeral fun c member => ?_
    rw [String.toList_append] at member
    rcases List.mem_append.mp member with here | here
    · obtain rfl : c = '_' := by simpa using here
      decide
    · have digits : c ∈ Nat.toDigits 10 inlineCount := by rwa [← Nat.toList_repr]
      simp [isNumeral, Nat.isDigit_of_mem_toDigits (by decide) (by decide) digits]
  have inline : Hides secret (if 0 < inlineCount then "_" ++ toString inlineCount ++
      " inline comment(s) posted on the changed lines._\n" else "") := by
    split
    · exact token.hides_opened (by decide) count (token.fixed _ (by decide))
    · exact token.hides_empty
  have noted := token.hides_between "\n\n" (by decide) (by decide) header inline
  have others : Hides secret (if leftover = [] then "" else
      "\n### Other findings (not on changed lines) — " ++ toString leftover.length ++ "\n\n" ++
        renderLeftovers leftover) := by
    split
    · exact token.hides_empty
    · have counted := token.hides_closed (by decide)
        (token.fixed "\n### Other findings (not on changed lines) — " (by decide))
        (token.hides_nat leftover.length)
      exact token.hides_between "\n\n" (by decide) (by decide) counted
        (token.hides_renderLeftovers hidden)
  have listed := token.hides_part noted others (by
    split
    · exact .inl rfl
    · exact .inr (opens_append (opens_append (opens_append (by decide)))))
  have left_out := token.hides_renderFiles "\nⓘ "
    " file(s) not reviewed (binary or too large): " (by decide) (by decide) (by decide) (by decide)
    (fun file member => files file (List.mem_append_left _ member)) listed
  exact token.hides_renderFiles _ _ (by decide) (by decide) (by decide) (by decide)
    (fun file member => files file (List.mem_append_right _ member)) left_out

end Token

namespace Unexposed

variable {env : ReviewEnv} {job : ReviewJob} {secret : String}
  (unexposed : Unexposed env job secret)

include unexposed

theorem redactDoc_hidden (long : secret ∈ job.known → 8 ≤ byteLength secret) {doc : FindingsDoc}
    (reviewed : reviewDoc env job = .ok doc) :
    Hides secret (redactDoc doc job.known).summary ∧
      ∀ f ∈ (redactDoc doc job.known).findings, HiddenFinding secret f := by
  have redacted : Hides secret (redactSecrets doc.summary job.known) ∧ ∀ f ∈ doc.findings,
      Hides secret (redactSecrets f.title job.known) ∧
        Hides secret (redactSecrets f.detail job.known) := by
    rcases unexposed.redacted with known | absent
    · have removed := free_redactSecrets_known unexposed.token.marker (long known) known
      exact ⟨removed _, fun f _ => ⟨removed _, removed _⟩⟩
    · exact absent doc reviewed
  refine ⟨redacted.1, fun f member => ?_⟩
  obtain ⟨g, g_mem, rfl⟩ := List.mem_map.mp member
  obtain ⟨file, ruleId, dimension⟩ := unexposed.unredacted doc reviewed g g_mem
  obtain ⟨title, detail⟩ := redacted.2 g g_mem
  exact ⟨file, reviewDoc_graded reviewed g g_mem, title, detail, dimension, ruleId⟩

theorem buildReview_hidden {doc : FindingsDoc}
    (summary : Hides secret doc.summary) (hidden : ∀ f ∈ doc.findings, HiddenFinding secret f) :
    (buildReview doc job.changed job.skippedFiles job.omittedFiles job.reviewId).Hidden secret := by
  have token := unexposed.token
  constructor
  · refine token.hides_between "\n\n" (by decide) (by decide) ?_ unexposed.marker
    exact token.hides_renderReviewBody summary
      (fun f member => hidden f (List.mem_filter.mp member).1) unexposed.files
  · intro c member
    obtain ⟨f, f_mem, placed⟩ := List.mem_filterMap.mp member
    unfold inlineComment at placed
    split at placed
    · split at placed
      · obtain rfl := Option.some.inj placed
        exact ⟨(hidden f f_mem).file, token.hides_renderInlineComment (hidden f f_mem)⟩
      · cases placed
    · cases placed
  · exact summary
  · intro f member
    have here := hidden f member
    exact ⟨here.file, (token.hides_severity here.severity).1, here.title, here.detail,
      here.dimension, here.ruleId⟩

end Unexposed

/-- What is stored of a document is what `redactDoc` leaves of it. -/
theorem unexposed_of_hidden {env : ReviewEnv} {job : ReviewJob} {review : Review} {secret : String}
    (posted : runJob env job = .ok review) (token : Token secret)
    (marker : Hides secret (reviewMarker job.reviewId))
    (files : ∀ file ∈ job.skippedFiles ++ job.omittedFiles, Hides secret file)
    (hidden : review.Hidden secret) : Unexposed env job secret := by
  have stored (doc : FindingsDoc) (reviewed : reviewDoc env job = .ok doc) :
      review.summary = redactSecrets doc.summary job.known ∧
        review.findings = doc.findings.map (redactFinding job.known) := by
    rw [runJob, reviewed] at posted
    obtain rfl := Except.ok.inj posted
    exact ⟨rfl, rfl⟩
  have finding (doc : FindingsDoc) (reviewed : reviewDoc env job = .ok doc) (f : Finding)
      (member : f ∈ doc.findings) :=
    hidden.findings (redactFinding job.known f)
      ((stored doc reviewed).2 ▸ List.mem_map_of_mem member)
  refine ⟨token, marker, files, fun doc reviewed f member => ?_, .inr fun doc reviewed => ?_⟩
  · obtain ⟨file, -, -, -, dimension, ruleId⟩ := finding doc reviewed f member
    exact ⟨file, ruleId, dimension⟩
  · refine ⟨(stored doc reviewed).1 ▸ hidden.summary, fun f member => ?_⟩
    obtain ⟨-, -, title, detail, -, -⟩ := finding doc reviewed f member
    exact ⟨title, detail⟩

namespace Sample

def defaultCredential : AICredential := ⟨"default-key", "api.openai.com", "gpt", "openai", false⟩

def laneCredential : AICredential := ⟨"lane-key-7", "api.gemini.com", "flash", "gemini", false⟩

/-- A sandbox whose runs all print one document. -/
def reviewEnv (doc : DecodedDoc) : ReviewEnv where
  toLower := id
  equalFold a b := a == b
  decode _ := some doc
  sha256 := id
  host credential := credential.baseUrl
  allows _ := true
  privateBaseURLBlocked _ _ := false
  resolveProvider _ _ := some laneCredential
  live _ _ := true
  sandbox _ := ⟨false, false, some "{}"⟩

def finding (title ruleId : String) : Finding :=
  ⟨"main.go", some 3, "error", title, "", "", ruleId⟩

/-- A review with one lane, whose provider is given. -/
def reviewJob (provider : String) : ReviewJob where
  reviewId := "r1"
  credential := defaultCredential
  repoToken := "repo-token"
  active := [⟨"security", provider, "", [], "info"⟩]
  verify := none
  prior := []
  changed _ _ := true
  skippedFiles := []
  omittedFiles := []

/-- The lane prints its own key in the summary and the default key as a rule. -/
def leakingDoc : DecodedDoc := ⟨"lane-key-7", some [finding "bug" "default-key"]⟩

/-- The lane prints both redacted secrets, in texts that are redacted and in a dimension that its
own key replaces. -/
def echoingDoc : DecodedDoc :=
  ⟨"saw default-key", some [{ finding "repo-token" "R1" with dimension := "default-key" }]⟩

theorem echoingDoc_unexposed (secret : String) (known : secret ∈ ["default-key", "repo-token"]) :
    Unexposed (reviewEnv echoingDoc) (reviewJob "") secret := by
  have tokens : ∀ secret ∈ ["default-key", "repo-token"], Token secret := by decide +kernel
  refine ⟨tokens secret known, ?_, by simp [reviewJob], ?_, .inl known⟩
  · revert secret
    decide +kernel
  · intro doc reviewed
    obtain rfl := Except.ok.inj ((show _ = Except.ok _ from rfl).symm.trans reviewed)
    revert secret
    decide +kernel

end Sample

end Manyforge.Coding
