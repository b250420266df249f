import Mathlib.Data.List.Infix

/-!
# Occurrences

Where a word occurs in a text that was put together from parts, and what replacing
parts of a text from left to right does to the occurrences of a word.
-/
namespace Occurrence

variable {α : Type*} {k l r s new : List α} {c : α}

/-- `k` does not occur in `s`. -/
def Free (k s : List α) : Prop := ¬ k <:+: s

instance [DecidableEq α] (k s : List α) : Decidable (Free k s) :=
  inferInstanceAs (Decidable (¬ k <:+: s))

theorem Free.mono (free : Free k s) (part : l <:+: s) : Free k l := fun occurs =>
  free (occurs.trans part)

theorem Free.ne_nil (free : Free k s) : k ≠ [] := by
  rintro rfl
  exact free List.nil_infix

theorem free_append_cons (sep : c ∉ k) : Free k (l ++ c :: r) ↔ Free k l ∧ Free k r := by
  constructor
  · intro free
    exact ⟨free.mono (List.prefix_append l _).isInfix,
      free.mono ((List.suffix_cons c r).trans (List.suffix_append l _)).isInfix⟩
  · rintro ⟨left, right⟩ occurs
    rcases List.infix_append_iff.mp occurs with within | within | ⟨k₁, k₂, rfl, ends, begins⟩
    · exact left within
    · rcases List.infix_cons_iff.mp within with begins | within
      · cases k with
        | nil => exact left List.nil_infix
        | cons d k =>
          obtain ⟨rfl, -⟩ := List.cons_prefix_cons.mp begins
          exact sep List.mem_cons_self
      · exact right within
    · -- The second part of the word would begin with the separator.
      cases k₂ with
      | nil => exact left (by simpa using ends.isInfix)
      | cons d k₂ =>
        obtain ⟨rfl, -⟩ := List.cons_prefix_cons.mp begins
        exact sep (List.mem_append_right _ List.mem_cons_self)

/-- A text between two separators. -/
structure Delimited (k : List α) (text : List α) : Prop where
  first : ∃ c rest, text = c :: rest ∧ c ∉ k
  last : ∃ c rest, text = rest ++ [c] ∧ c ∉ k
  free : Free k text

theorem Delimited.free_append (text : Delimited k s) (left : Free k l) (right : Free k r) :
    Free k (l ++ s ++ r) := by
  obtain ⟨a, tail, rfl, first⟩ := text.first
  obtain ⟨b, init, same, last⟩ := text.last
  have ends : Free k ((l ++ a :: tail) ++ r) := by
    have front : Free k (l ++ a :: tail) :=
      (free_append_cons first).mpr ⟨left, text.free.mono (List.suffix_cons a tail).isInfix⟩
    rw [same] at front ⊢
    rw [List.append_assoc, List.append_assoc, List.singleton_append, ← List.append_assoc]
    refine (free_append_cons last).mpr ⟨front.mono ?_, right⟩
    exact ⟨[], [b], by simp⟩
  exact ends

theorem Delimited.free_before (text : Delimited k s) (right : Free k r) : Free k (s ++ r) := by
  have none : Free k [] := right.mono List.nil_infix
  simpa using text.free_append none right

/-! ### Replacing from left to right -/

/-- Replace what `matchLength` finds, where `0` means that nothing is found; the next `skip`
elements still belong to the last match. -/
def rewriteFrom (matchLength : List α → Nat) (new : List α) : Nat → List α → List α
  | _, [] => []
  | skip + 1, _ :: rest => rewriteFrom matchLength new skip rest
  | 0, c :: rest =>
    match matchLength (c :: rest) with
    | 0 => c :: rewriteFrom matchLength new 0 rest
    | skip + 1 => new ++ rewriteFrom matchLength new skip rest

def rewrite (matchLength : List α → Nat) (new s : List α) : List α :=
  rewriteFrom matchLength new 0 s

variable {matchLength : List α → Nat}

/-- A word that cannot meet the border of `new` and is in front of the result was in front of the
text. -/
theorem prefix_of_rewriteFrom (border : Delimited k new) {w : List α}
    (part : w ⊆ k) (begins : w <+: rewriteFrom matchLength new 0 s) : w <+: s := by
  induction s generalizing w with
  | nil => simpa [rewriteFrom] using begins
  | cons c rest ih =>
    cases w with
    | nil => exact List.nil_prefix
    | cons d w =>
      simp only [rewriteFrom] at begins
      split at begins
      · obtain ⟨rfl, tail⟩ := List.cons_prefix_cons.mp begins
        exact List.cons_prefix_cons.mpr
          ⟨rfl, ih (fun x member => part (List.mem_cons_of_mem _ member)) tail⟩
      · obtain ⟨a, tail, rfl, outside⟩ := border.first
        obtain ⟨rfl, -⟩ := List.cons_prefix_cons.mp begins
        exact absurd (part List.mem_cons_self) outside

theorem free_rewriteFrom (border : Delimited k new) {skip : Nat}
    (free : Free k s) : Free k (rewriteFrom matchLength new skip s) := by
  induction s generalizing skip with
  | nil => simpa [rewriteFrom] using free
  | cons c rest ih =>
    have rest_free : Free k rest := free.mono (List.suffix_cons c rest).isInfix
    cases skip with
    | succ skip => exact ih rest_free
    | zero =>
      simp only [rewriteFrom]
      split
      · next unmatched =>
        intro occurs
        rcases List.infix_cons_iff.mp occurs with begins | within
        · have same : c :: rewriteFrom matchLength new 0 rest =
              rewriteFrom matchLength new 0 (c :: rest) := by
            simp [rewriteFrom, unmatched]
          rw [same] at begins
          exact free (prefix_of_rewriteFrom border (List.Subset.refl k) begins).isInfix
        · exact ih rest_free within
      · exact border.free_before (ih rest_free)

theorem free_rewrite (border : Delimited k new) (free : Free k s) :
    Free k (rewrite matchLength new s) :=
  free_rewriteFrom border free

theorem rewriteFrom_lead (begins : ∀ d rest, d ≠ c → matchLength (d :: rest) = 0)
    (new : List α) (absent : c ∉ l) (s : List α) :
    rewriteFrom matchLength new 0 (l ++ s) = l ++ rewriteFrom matchLength new 0 s := by
  induction l with
  | nil => rfl
  | cons d rest ih =>
    have other : d ≠ c := fun same => absent (same ▸ List.mem_cons_self)
    have later : c ∉ rest := fun member => absent (List.mem_cons_of_mem d member)
    simp [rewriteFrom, begins d _ other, ih later]

theorem rewriteFrom_skip (matchLength : List α → Nat) (new l s : List α) :
    rewriteFrom matchLength new l.length (l ++ s) = rewriteFrom matchLength new 0 s := by
  induction l with
  | nil => rfl
  | cons d rest ih => exact ih

variable [DecidableEq α]

/-- The length of `old` where it begins the text. -/
def exactMatch (old s : List α) : Nat := if old <+: s then old.length else 0

/-- `strings.ReplaceAll` of a word that is not empty. -/
def replaceAll (old new s : List α) : List α := rewrite (exactMatch old) new s

theorem free_replaceFrom {old : List α} (border : Delimited old new) {skip : Nat} :
    Free old (rewriteFrom (exactMatch old) new skip s) := by
  have old_ne : old ≠ [] := border.free.ne_nil
  induction s generalizing skip with
  | nil => simpa [rewriteFrom, Free] using old_ne
  | cons c rest ih =>
    cases skip with
    | succ skip => exact ih
    | zero =>
      simp only [rewriteFrom]
      split
      · next unmatched =>
        intro occurs
        rcases List.infix_cons_iff.mp occurs with begins | within
        · have same : c :: rewriteFrom (exactMatch old) new 0 rest =
              rewriteFrom (exactMatch old) new 0 (c :: rest) := by
            simp [rewriteFrom, unmatched]
          rw [same] at begins
          have here := prefix_of_rewriteFrom border (List.Subset.refl old) begins
          simp [exactMatch, here, old_ne] at unmatched
        · exact ih within
      · exact border.free_before ih

theorem free_replaceAll {old : List α} (border : Delimited old new) :
    Free old (replaceAll old new s) :=
  free_replaceFrom border

end Occurrence
