import Manyforge.Coding.Findings

/-!
# Scope globs

`matchGlob`, which decides whether a review lane looks at a changed file, and what a pattern with
`**` segments stands for. `path.Match` is a parameter; `none` is its error.
-/
namespace Manyforge.Coding

variable (pathMatch : String → String → Option Bool)

/-- A `**` before other segments tries every suffix of the path, the longest first. -/
def matchSegments : List String → List String → Bool
  | [], name => name.isEmpty
  | segment :: rest, name =>
    if segment = "**" then
      rest.isEmpty || (List.range (name.length + 1)).any fun i => matchSegments rest (name.drop i)
    else match name with
      | [] => false
      | part :: parts => pathMatch segment part == some true && matchSegments rest parts

/-- `strings.Split(s, "/")`. -/
def splitSlash (s : String) : List String := (s.toList.splitOn '/').map String.ofList

def matchGlob (pattern name : String) : Bool :=
  matchSegments pathMatch (splitSlash (trimSpace pattern))
    (splitSlash (trimPrefix (trimSpace name) "./"))

/-- The meaning of a pattern: `**` stands for any number of segments, every other segment for
one. -/
inductive GlobMatches : List String → List String → Prop
  | done : GlobMatches [] []
  | one {segment part : String} {rest parts : List String} : segment ≠ "**" →
      pathMatch segment part = some true → GlobMatches rest parts →
      GlobMatches (segment :: rest) (part :: parts)
  | many {rest parts : List String} (skipped : List String) : GlobMatches rest parts →
      GlobMatches ("**" :: rest) (skipped ++ parts)

variable {pathMatch}

theorem matchSegments_sound {pattern name : List String}
    (found : matchSegments pathMatch pattern name = true) : GlobMatches pathMatch pattern name := by
  induction pattern generalizing name with
  | nil =>
    rw [matchSegments, List.isEmpty_iff] at found
    rw [found]
    exact .done
  | cons segment rest ih =>
    unfold matchSegments at found
    split at found
    next star =>
      subst star
      rcases Bool.or_eq_true_iff.mp found with last | tried
      · rw [List.isEmpty_iff.mp last, ← List.append_nil name]
        exact .many name .done
      · obtain ⟨i, -, matched⟩ := List.any_eq_true.mp tried
        rw [← List.take_append_drop i name]
        exact .many _ (ih matched)
    next plain =>
    cases name with
    | nil => cases found
    | cons part parts =>
      obtain ⟨here, tail⟩ := Bool.and_eq_true_iff.mp found
      exact .one plain (beq_iff_eq.mp here) (ih tail)

/-- Whatever a `**` has to skip is one of the splits that the loop tries. -/
theorem matchSegments_complete {pattern name : List String}
    (matched : GlobMatches pathMatch pattern name) :
    matchSegments pathMatch pattern name = true := by
  induction matched with
  | done => rfl
  | one plain here _ ih => simp [matchSegments, plain, here, ih]
  | @many rest parts skipped _ ih =>
    have split : skipped.length ∈ List.range ((skipped ++ parts).length + 1) := by
      rw [List.mem_range, List.length_append]
      omega
    unfold matchSegments
    rw [if_pos rfl, Bool.or_eq_true_iff]
    right
    apply List.any_eq_true.mpr
    refine ⟨skipped.length, split, ?_⟩
    rwa [List.drop_left]

/-- `matchGlob` finds a match exactly when the segments of the trimmed pattern match those of the
trimmed path without a leading `./`. -/
theorem matchGlob_iff (pattern name : String) : matchGlob pathMatch pattern name = true ↔
    GlobMatches pathMatch (splitSlash (trimSpace pattern))
      (splitSlash (trimPrefix (trimSpace name) "./")) :=
  ⟨matchSegments_sound, matchSegments_complete⟩

namespace Sample

/-- `path.Match` on patterns without special characters. -/
def literalMatch (pattern name : String) : Option Bool := some (pattern == name)

/-- Only the path loses its `./`. -/
theorem dotted_pattern : GlobMatches literalMatch (splitSlash "./a") (splitSlash "./a") ∧
    matchGlob literalMatch "./a" "./a" = false := by
  refine ⟨?_, by decide⟩
  have dot : literalMatch "." "." = some true := by decide
  have file : literalMatch "a" "a" = some true := by decide
  have segments : splitSlash "./a" = [".", "a"] := by decide
  rw [segments]
  exact .one (by decide) dot (.one (by decide) file .done)

end Sample

end Manyforge.Coding
