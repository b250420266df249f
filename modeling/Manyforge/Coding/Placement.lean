import Manyforge.Coding.Diff
import Manyforge.Coding.Review
import Mathlib.Data.List.Perm.Basic

/-!
# From the findings to the pull request

What the verify pass keeps and drops, and where `buildReview` puts what was kept: on a line of the
diff or in the body.
-/
namespace Manyforge.Coding

/-- `connectors.ChangedFile`; its commentable lines are those of its patch. -/
structure ChangedFile where
  (path patch : String)

/-- `commentableMap`: of two files with the same path, the later one counts. -/
def commentableMap (files : List ChangedFile) (path : String) (line : Int) : Bool :=
  ((files.reverse.find? fun f => f.path = path).map fun f => commentableLines f.patch).any
    (·.contains line)

structure VerifySplit where
  (kept dropped : List Finding)
  failedOpen : Bool

variable (rt : ReviewRuntime) (original : List Finding) (answer : Except LaneError FindingsDoc)

def applyVerifyDrops (original confirmed : List Finding) : List Finding × List Finding :=
  original.partition fun f => confirmed.any fun c => findingMatchKey rt c == findingMatchKey rt f

/-- `verifyOutcome`, with the findings it drops. -/
def verifySplit : Except LaneError FindingsDoc → VerifySplit
  | .error _ => ⟨original, [], true⟩
  | .ok confirmed =>
    let (kept, dropped) := applyVerifyDrops rt original confirmed.findings
    ⟨kept, dropped, false⟩

theorem verifySplit_kept :
    (verifySplit rt original answer).kept = verifyOutcome rt original answer := by
  cases answer <;> simp [verifySplit, applyVerifyDrops, verifyOutcome]

/-- A list is split in two: every element goes to one of the parts, in order. -/
structure Splits {α : Type} (all left right : List α) : Prop where
  perm : (left ++ right).Perm all
  left : left.Sublist all
  right : right.Sublist all

theorem splits_filter {α : Type} (p : α → Bool) (all : List α) :
    Splits all (all.filter p) (all.filter fun a => !p a) :=
  ⟨List.filter_append_perm p all, List.filter_sublist, List.filter_sublist⟩

theorem splits_verifySplit :
    Splits original (verifySplit rt original answer).kept (verifySplit rt original answer).dropped := by
  cases answer with
  | error e => exact ⟨by simp [verifySplit], .refl _, List.nil_sublist _⟩
  | ok confirmed =>
    simp only [verifySplit, applyVerifyDrops, List.partition_eq_filter_filter]
    exact splits_filter _ original

theorem mem_of_commentableMap {files : List ChangedFile} {path : String} {line : Int}
    (commentable : commentableMap files path line = true) :
    ∃ file ∈ files, file.path = path ∧ line ∈ commentableLines file.patch := by
  unfold commentableMap at commentable
  cases found : files.reverse.find? fun f => f.path = path with
  | none => simp [found] at commentable
  | some file =>
    refine ⟨file, List.mem_reverse.mp (List.mem_of_find?_eq_some found), ?_, ?_⟩
    · simpa using List.find?_some found
    · simpa [found] using commentable

/-- The comment of a finding, on a line that the patch of its file has on the new side. -/
structure CommentOf (files : List ChangedFile) (known : List String) (f : Finding)
    (c : ReviewComment) : Prop where
  path : c.path = f.file
  line : f.line = some c.line
  body : c.body = renderInlineComment (redactFinding known f)
  onDiff : ∃ file ∈ files, file.path = c.path ∧ c.line ∈ commentableLines file.patch

/-- The entry of a finding in the body: it shows the place, the title and the detail. -/
structure EntryOf (known : List String) (f : Finding) (entry : String) : Prop where
  location : (findingLocation f).toList <:+: entry.toList
  title : (redactSecrets f.title known).toList <:+: entry.toList
  detail : trimSpace (redactSecrets f.detail known) ≠ "" →
    (redactSecrets f.detail known).toList <:+: entry.toList

variable (files : List ChangedFile) (known : List String)

theorem entryOf_renderLeftover (f : Finding) :
    EntryOf known f (renderLeftover (redactFinding known f)) := by
  constructor <;> simp only [renderLeftover, String.toList_append]
  case location =>
    iterate 5 apply List.infix_append_of_infix_left
    exact (List.suffix_append _ _).isInfix
  case title =>
    iterate 3 apply List.infix_append_of_infix_left
    exact (List.suffix_append _ _).isInfix
  case detail =>
    intro shown
    apply List.infix_append_of_infix_right
    split
    next blank => exact absurd blank shown
    next =>
      rw [String.toList_append, String.toList_append]
      exact List.infix_append _ _ _

/-- The entries of the leftover findings stand one after the other. -/
theorem renderLeftovers_eq_join (leftover : List Finding) :
    renderLeftovers leftover = String.join (leftover.map renderLeftover) := by
  induction leftover with
  | nil => rfl
  | cons f rest ih => simp [renderLeftovers, ih]

theorem commentOf_inlineComment {f : Finding} {c : ReviewComment}
    (comment : inlineComment (commentableMap files) (redactFinding known f) = some c) :
    CommentOf files known f c := by
  unfold inlineComment at comment
  split at comment
  next line on_line =>
    split at comment
    next commentable =>
      cases comment
      exact ⟨rfl, on_line, rfl, mem_of_commentableMap commentable⟩
    next => cases comment
  next => cases comment

theorem isSome_inlineComment_redacted (changed : String → Int → Bool) (f : Finding) :
    (inlineComment changed (redactFinding known f)).isSome = (inlineComment changed f).isSome := by
  simp only [inlineComment, redactFinding]
  cases f.line with
  | none => rfl
  | some line => cases commentable : changed f.file line <;> simp [commentable]

theorem comments_filterMap (findings : List Finding) :
    List.Forall₂ (CommentOf files known)
      (findings.filter fun f => (inlineComment (commentableMap files) f).isSome)
      ((findings.map (redactFinding known)).filterMap (inlineComment (commentableMap files))) := by
  induction findings with
  | nil => exact .nil
  | cons f rest ih =>
    have same := isSome_inlineComment_redacted known (commentableMap files) f
    rw [List.map_cons, List.filter_cons, List.filterMap_cons, ← same]
    cases comment : inlineComment (commentableMap files) (redactFinding known f) with
    | none => exact ih
    | some c => exact .cons (commentOf_inlineComment files known comment) ih

theorem leftover_redacted (changed : String → Int → Bool) (findings : List Finding) :
    ((findings.map (redactFinding known)).filter fun f => (inlineComment changed f).isNone) =
      (findings.filter fun f => !(inlineComment changed f).isSome).map (redactFinding known) := by
  rw [List.filter_map]
  congr 1
  refine List.filter_congr fun f _ => ?_
  rw [Function.comp_apply, ← isSome_inlineComment_redacted known changed f]
  exact (Option.not_isSome _).symm

theorem renderReviewBody_entries (summary : String) (leftover : List Finding) (count : Nat)
    (skipped omitted : List String) :
    ∃ before after, renderReviewBody summary leftover count skipped omitted =
      before ++ String.join (leftover.map renderLeftover) ++ after := by
  have ends (head heading : String) : ∃ before,
      head ++ (if leftover = [] then "" else heading ++ renderLeftovers leftover) =
        before ++ String.join (leftover.map renderLeftover) := by
    rw [renderLeftovers_eq_join]
    split
    next none_left => exact ⟨head, by rw [none_left]; rfl⟩
    next => exact ⟨head ++ heading, by rw [String.append_assoc]⟩
  unfold renderReviewBody
  obtain ⟨before, same⟩ := ends _ _
  exact ⟨before, _, by rw [same, String.append_assoc]⟩

end Manyforge.Coding
