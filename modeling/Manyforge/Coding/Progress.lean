import Manyforge.Coding.Redact

/-!
# The progress preview

What of the output of a lane the heartbeat stores. The writer keeps the end of the output, and
`Snapshot` redacts that and keeps the end of the result. A character stands for a byte. The number
of tokens is left out, and so are the other lanes: a snapshot shows the lane that wrote last.
-/
namespace Manyforge.Coding

open Occurrence

structure StreamWriter where
  (dim buf : List Char)

structure Progress where
  phase : String
  rawPartial : List Char
  secrets : List String

def keepTail : Nat := 8192

def previewMaxBytes : Nat := 4096

variable (writes : List (List Char)) (w : StreamWriter) {n : Nat}

/-- The bytes that are dropped are those in front of the last `keepTail`. -/
def StreamWriter.write (p : List Char) : StreamWriter :=
  let buf := w.buf ++ p
  { w with buf := if keepTail < buf.length then buf.drop (buf.length - keepTail) else buf }

def StreamWriter.header : List Char := w.dim ++ [':', '\n']

/-- `utf8.RuneStart`: not a continuation byte. -/
def runeStart (c : Char) : Bool := !(128 ≤ c.toNat && c.toNat < 192)

def tailBytes (s : List Char) (max : Nat) : List Char :=
  if s.length ≤ max then s else (s.drop (s.length - max)).dropWhile fun c => !runeStart c

/-- The preview of `Snapshot`. -/
def Progress.snapshot (p : Progress) : Option (List Char) :=
  if p.phase = "" then none
  else some
    (tailBytes (redactSecrets (String.ofList p.rawPartial) p.secrets).toList previewMaxBytes)

/-- The writes of a lane, and what the writer hands to `UpdateStream` with the last one. -/
def streamed (dim : List Char) (writes : List (List Char)) : StreamWriter :=
  writes.foldl StreamWriter.write ⟨dim, []⟩

def progressAfter (phase : String) (dim : List Char) (secrets : List String)
    (writes : List (List Char)) : Progress :=
  let w := streamed dim writes
  ⟨phase, w.header ++ w.buf, secrets⟩

/-- The preview is the end of the redacted output, perhaps behind the name of the lane. -/
def ShowsRedacted (dim : List Char) (secrets : List String) (writes : List (List Char))
    (preview : List Char) : Prop :=
  let header := dim ++ [':', '\n']
  ∃ shown, shown <:+ (redactSecrets (String.ofList (header ++ writes.flatten)) secrets).toList ∧
    (preview = shown ∨ preview = header ++ shown)

/-- Every preview of a lane that has written at most so many bytes is redacted before it is cut. -/
def RedactedUpTo (bytes : Nat) : Prop :=
  ∀ phase dim secrets (writes : List (List Char)) preview, writes.flatten.length ≤ bytes →
    (progressAfter phase dim secrets writes).snapshot = some preview →
      ShowsRedacted dim secrets writes preview

theorem tailBytes_suffix (s : List Char) (max : Nat) : tailBytes s max <:+ s := by
  unfold tailBytes
  split
  · exact List.suffix_rfl
  · exact (List.dropWhile_suffix _).trans (List.drop_suffix _ _)

theorem dim_streamed : (writes.foldl StreamWriter.write w).dim = w.dim := by
  induction writes generalizing w with
  | nil => rfl
  | cons p rest ih => exact ih (w.write p)

theorem buf_streamed (fits : w.buf.length + writes.flatten.length ≤ keepTail) :
    (writes.foldl StreamWriter.write w).buf = w.buf ++ writes.flatten := by
  induction writes generalizing w with
  | nil => simp
  | cons p rest ih =>
    rw [List.flatten_cons, List.length_append] at fits
    have kept : (w.write p).buf = w.buf ++ p := by
      simp only [StreamWriter.write, List.length_append]
      rw [if_neg (by omega)]
    rw [List.foldl_cons, ih (w.write p) (by rw [kept, List.length_append]; omega), kept]
    simp

theorem redacted_of_fits : RedactedUpTo keepTail := by
  intro phase dim secrets writes preview fits shown
  have buf := buf_streamed writes ⟨dim, []⟩ (by simpa using fits)
  have same : (streamed dim writes).dim = dim := dim_streamed writes _
  unfold Progress.snapshot at shown
  split at shown
  · cases shown
  · cases shown
    refine ⟨_, ?_, .inl rfl⟩
    have partial_eq :
        (progressAfter phase dim secrets writes).rawPartial = dim ++ [':', '\n'] ++
          writes.flatten := by
      rw [progressAfter, StreamWriter.header, same, streamed, buf]
      rfl
    rw [partial_eq]
    exact tailBytes_suffix _ _

/-! ### A secret in front of a long one -/

/-- A value of the form of an API key, of any length. -/
def keyOf (n : Nat) : List Char := 's' :: 'k' :: '-' :: List.replicate n 'a'

theorem redactPattern_keyOf {lead : List Char} (absent : 's' ∉ lead) (long : 20 ≤ n) :
    redactPattern (lead ++ keyOf n) skPattern = lead ++ redactedMarker.toList := by
  have begins (d : Char) (rest : List Char) (other : d ≠ 's') : skPattern (d :: rest) = 0 := by
    simp [skPattern, literalRun, other.symm]
  have length : skPattern (keyOf n) = ('k' :: '-' :: List.replicate n 'a').length + 1 := by
    simp [skPattern, literalRun, keyOf, isAlnum, long]
    omega
  rw [redactPattern, rewrite, rewriteFrom_lead begins _ absent]
  have skipped :=
    rewriteFrom_skip skPattern redactedMarker.toList ('k' :: '-' :: List.replicate n 'a') []
  rw [keyOf] at length ⊢
  rw [rewriteFrom, length]
  simpa [rewriteFrom] using skipped

/-- The secret that is registered. -/
def token : List Char := 'h' :: ['u', 'n', 't', 'e', 'r', '-', '2']

/-- The output of a lane: the secret, and a key that is redacted to a few bytes. -/
def leakingOutput (n : Nat) : List Char := token ++ ' ' :: keyOf n

theorem exactMatch_token (d : Char) (rest : List Char) (other : d ≠ 'h') :
    exactMatch token (d :: rest) = 0 := by
  simp [exactMatch, token, other.symm]

theorem redactKnown_token (lead rest : List Char) (absent : 'h' ∉ lead) :
    redactKnown (lead ++ token ++ rest) (String.ofList token) =
      lead ++ redactedMarker.toList ++ redactKnown rest (String.ofList token) := by
  have long : 8 ≤ byteLength (String.ofList token) := by decide
  simp only [redactKnown, if_pos long, String.toList_ofList, replaceAll, rewrite]
  rw [List.append_assoc, rewriteFrom_lead exactMatch_token _ absent, List.append_assoc]
  rfl

theorem redactKnown_absent (text : List Char) (absent : 'h' ∉ text) :
    redactKnown text (String.ofList token) = text := by
  have long : 8 ≤ byteLength (String.ofList token) := by decide
  have kept := rewriteFrom_lead exactMatch_token redactedMarker.toList absent []
  simpa [redactKnown, if_pos long, replaceAll, rewrite, rewriteFrom] using kept

theorem redactPatterns_keyOf (lead : List Char) (absent : 's' ∉ lead) (long : 20 ≤ n)
    (others : [ghpPattern, githubPatPattern, bearerPattern].foldl redactPattern
      (lead ++ redactedMarker.toList) = lead ++ redactedMarker.toList) :
    secretPatterns.foldl redactPattern (lead ++ keyOf n) = lead ++ redactedMarker.toList := by
  rw [secretPatterns, List.foldl_cons, redactPattern_keyOf absent long, others]

theorem redactSecrets_output (long : 20 ≤ n) :
    (redactSecrets (String.ofList (':' :: '\n' :: leakingOutput n)) [String.ofList token]).toList =
      ":\n[REDACTED] [REDACTED]".toList := by
  have known := redactKnown_token [':', '\n'] (' ' :: keyOf n) (by decide)
  rw [redactKnown_absent (' ' :: keyOf n) (by simp [keyOf])] at known
  have patterns := redactPatterns_keyOf ([':', '\n'] ++ redactedMarker.toList ++ [' '])
    (by decide) long (by decide +kernel)
  rw [List.append_assoc, List.singleton_append, ← known] at patterns
  rw [redactSecrets, String.toList_ofList, String.toList_ofList]
  exact patterns.trans (by decide)

theorem redactSecrets_cutOutput (long : 20 ≤ n) :
    (redactSecrets (String.ofList (':' :: '\n' :: (leakingOutput n).tail))
      [String.ofList token]).toList = ":\nunter-2 [REDACTED]".toList := by
  have known := redactKnown_absent (':' :: '\n' :: (leakingOutput n).tail)
    (by simp [leakingOutput, token, keyOf])
  have patterns := redactPatterns_keyOf ":\nunter-2 ".toList (by decide) long (by decide +kernel)
  rw [redactSecrets, String.toList_ofList, String.toList_ofList, List.foldl_cons,
    List.foldl_nil, known]
  exact patterns.trans (by decide)

theorem length_leakingOutput (n : Nat) : (leakingOutput n).length = n + 12 := by
  simp [leakingOutput, token, keyOf]

/-- One byte too many is cut off before the redaction, and the rest of the secret is shown. -/
theorem secret_shown :
    (progressAfter "reviewing" [] [String.ofList token] [leakingOutput 8181]).snapshot =
    some ":\nunter-2 [REDACTED]".toList := by
  have cut : (streamed [] [leakingOutput 8181]).buf = (leakingOutput 8181).tail := by
    simp only [streamed, List.foldl_cons, List.foldl_nil, StreamWriter.write, List.nil_append,
      length_leakingOutput, keepTail]
    rw [if_pos (by decide), List.drop_one]
  have dim : (streamed [] [leakingOutput 8181]).dim = [] := dim_streamed _ _
  have kept : tailBytes ":\nunter-2 [REDACTED]".toList previewMaxBytes =
      ":\nunter-2 [REDACTED]".toList := if_pos (by decide)
  simp only [Progress.snapshot, progressAfter, StreamWriter.header, cut, dim]
  rw [if_neg (by decide)]
  exact congrArg some
    ((congrArg (tailBytes · previewMaxBytes) (redactSecrets_cutOutput (by decide))).trans kept)

theorem secret_unredacted :
    ¬ ShowsRedacted [] [String.ofList token] [leakingOutput 8181] ":\nunter-2 [REDACTED]".toList := by
  rintro ⟨rest, isSuffix, same⟩
  have all :
      (redactSecrets (String.ofList ([] ++ [':', '\n'] ++ [leakingOutput 8181].flatten))
        [String.ofList token]).toList = ":\n[REDACTED] [REDACTED]".toList := by
    rw [List.flatten_singleton]
    exact redactSecrets_output (by decide)
  rw [all] at isSuffix
  rcases same with rfl | same
  · exact absurd isSuffix (by decide)
  · obtain rfl : "unter-2 [REDACTED]".toList = rest := (List.append_right_inj [':', '\n']).mp same
    exact absurd isSuffix (by decide)

/-- Previews are redacted before they are cut for as long as the writer has dropped nothing. -/
theorem redactedUpTo_iff (bytes : Nat) : RedactedUpTo bytes ↔ bytes ≤ keepTail := by
  constructor
  · intro redacted
    by_contra more
    have small : [leakingOutput 8181].flatten.length ≤ bytes := by
      rw [List.flatten_singleton, length_leakingOutput]
      exact Nat.lt_of_not_le more
    exact secret_unredacted (redacted _ _ _ _ _ small secret_shown)
  · intro fits phase dim secrets writes preview small
    exact redacted_of_fits phase dim secrets writes preview (small.trans fits)

namespace Sample

/-- All but the first byte of a registered secret is published. -/
theorem fragment_published :
    (progressAfter "reviewing" [] ["hunter-2"] [leakingOutput 8181]).snapshot =
      some ":\nunter-2 [REDACTED]".toList ∧
      ¬ ShowsRedacted [] ["hunter-2"] [leakingOutput 8181] ":\nunter-2 [REDACTED]".toList :=
  ⟨secret_shown, secret_unredacted⟩

end Sample

end Manyforge.Coding
