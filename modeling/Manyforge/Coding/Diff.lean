import Manyforge.Text
import Mathlib.Algebra.Ring.Nat

/-!
# Unified diffs

`ParseHunks` and what is built on it, compared with the hunks a patch was rendered from. A line of a
patch is told by its first characters: a header, an added or removed line, a marker, or context.
-/
namespace Manyforge.Coding

/-! ### The parser -/

structure DiffLine where
  newLineNo : Int
  added : Bool
  text : String
  deriving DecidableEq

structure Hunk where
  newStart : Int
  lines : List DiffLine
  deriving DecidableEq

/-- `parseHunkNewStart`: the number after the first plus sign, up to a comma or a blank. -/
def parseHunkNewStart (header : List Char) : Int :=
  match header.dropWhile (· != '+') with
  | [] => 0
  | _ :: rest => (atoi (String.ofList (rest.takeWhile fun c => c != ',' && c != ' '))).getD 0

structure HunkScan where
  hunks : List Hunk
  newLine : Int
  inHunk : Bool

def HunkScan.append (scan : HunkScan) (added : Bool) (text : List Char) : HunkScan :=
  { scan with
    hunks := scan.hunks.dropLast ++ scan.hunks.getLast?.toList.map fun h =>
      { h with lines := h.lines ++ [⟨scan.newLine, added, String.ofList text⟩] }
    newLine := scan.newLine + 1 }

def HunkScan.read (scan : HunkScan) : List Char → HunkScan
  | '@' :: '@' :: rest =>
    let start := parseHunkNewStart ('@' :: '@' :: rest)
    if 0 < start then ⟨scan.hunks ++ [⟨start, []⟩], start, true⟩ else ⟨scan.hunks, start, false⟩
  | line =>
    if scan.inHunk then
      match line with
      | '+' :: text => scan.append true text
      | '-' :: _ | '\\' :: _ | [] => scan
      -- A context line begins with a blank, of one byte.
      | _ :: text => scan.append false text
    else scan

def parseHunks (patch : String) : List Hunk :=
  ((patch.toList.splitOn '\n').foldl HunkScan.read ⟨[], 0, false⟩).hunks

/-- `commentableLines`, as the list of its keys. -/
def commentableLines (patch : String) : List Int :=
  (parseHunks patch).flatMap fun h => h.lines.map (·.newLineNo)

/-- `fmt.Sprintf("%5d", n)`. -/
def padNumber (n : Int) : String :=
  String.ofList (List.replicate (5 - (toString n).length) ' ') ++ toString n

def annotateLine (l : DiffLine) : String :=
  padNumber l.newLineNo ++ " " ++ (if l.added then "+" else " ") ++ " " ++ l.text ++ "\n"

def annotateHunk (h : Hunk) : String :=
  let stop := (h.lines.getLast?.map (·.newLineNo)).getD h.newStart
  "@@ " ++ toString h.newStart ++ "-" ++ toString stop ++ " @@\n" ++
    String.join (h.lines.map annotateLine)

def renderAnnotatedHunks (patch : String) : String :=
  String.join ((parseHunks patch).map annotateHunk)

/-! ### Patches -/

inductive LineKind where
  | context | added | removed | marker
  deriving DecidableEq

/-- A line of a hunk; the text of a marker is what follows the backslash. -/
structure PatchLine where
  kind : LineKind
  text : List Char
  oneLine : '\n' ∉ text

def LineKind.lead : LineKind → Char
  | .context => ' '
  | .added => '+'
  | .removed => '-'
  | .marker => '\\'

def PatchLine.render (l : PatchLine) : List Char := l.kind.lead :: l.text

/-- A hunk of a patch. Its line numbers are a program's integers. -/
structure PatchHunk where
  oldStart : Nat
  oldCount : Option Nat
  start : Nat
  count : Option Nat
  heading : List Char
  lines : List PatchLine
  oneLine : '\n' ∉ heading
  positive : 1 ≤ start
  fits : start + lines.length < 2 ^ 63

/-- `a,b`, or `a` alone. -/
def renderRange (start : Nat) (count : Option Nat) : List Char :=
  Nat.toDigits 10 start ++ (match count with
    | none => []
    | some n => ',' :: Nat.toDigits 10 n)

def PatchHunk.header (h : PatchHunk) : List Char :=
  '@' :: '@' :: ' ' :: '-' :: (renderRange h.oldStart h.oldCount ++ ' ' :: '+' ::
    (renderRange h.start h.count ++ ' ' :: '@' :: '@' :: h.heading))

def PatchHunk.render (h : PatchHunk) : List (List Char) := h.header :: h.lines.map PatchLine.render

/-- The text of a patch, with or without a newline at the end. -/
def renderPatch (hunks : List PatchHunk) (newline : Bool) : String :=
  String.ofList
    (['\n'].intercalate (hunks.flatMap PatchHunk.render ++ if newline then [[]] else []))

/-- The lines of the new side: whether they are added, and their texts. -/
def newSide (lines : List PatchLine) : List (Bool × List Char) :=
  lines.filterMap fun l => match l.kind with
    | .context => some (false, l.text)
    | .added => some (true, l.text)
    | .removed | .marker => none

/-- What a hunk should be read as: its new-side lines, numbered from its start. -/
def PatchHunk.parsed (h : PatchHunk) : Hunk :=
  ⟨h.start, (newSide h.lines).zipIdx.map fun l => ⟨h.start + l.2, l.1.1, String.ofList l.1.2⟩⟩

/-! ### Reading a rendered patch -/

theorem decimalValue_foldl {ds : List Char} (digits : ∀ c ∈ ds, c.isDigit = true) (a : Nat) :
    ds.foldl (fun acc c => do pure ((← acc) * 10 + (← digitValue c))) (some a) =
      some (Nat.ofDigitChars 10 ds a) := by
  induction ds generalizing a with
  | nil => rfl
  | cons c rest ih =>
    obtain ⟨isDigit, later⟩ := List.forall_mem_cons.mp digits
    rw [List.foldl_cons, Nat.ofDigitChars_cons, Nat.mul_comm 10 a, ← ih later]
    simp [digitValue, isDigit]

theorem isDigit_toDigits {n : Nat} {c : Char} (member : c ∈ Nat.toDigits 10 n) : c.isDigit = true :=
  Nat.isDigit_of_mem_toDigits (by decide) (by decide) member

theorem atoi_toDigits {n : Nat} (fits : n < 2 ^ 63) :
    atoi (String.ofList (Nat.toDigits 10 n)) = some (n : Int) := by
  have value : decimalValue (Nat.toDigits 10 n) = some n := by
    have read := decimalValue_foldl (fun c member => isDigit_toDigits (n := n) member) 0
    rw [Nat.ofDigitChars_ten_toDigits] at read
    cases digits : Nat.toDigits 10 n with
    | nil => exact absurd digits Nat.toDigits_ne_nil
    | cons c rest => rwa [digits] at read
  have sign {c : Char} {rest : List Char} (digits : Nat.toDigits 10 n = c :: rest) : c.isDigit = true :=
    isDigit_toDigits (n := n) (by simp [digits])
  unfold atoi
  rw [String.toList_ofList]
  split
  next digits => exact absurd (sign digits) (by decide)
  unfold parseInt64
  rw [String.toList_ofList]
  split
  next digits => exact absurd (sign digits) (by decide)
  rw [value]
  simp [Option.filter]
  omega

theorem mem_renderRange {start : Nat} {count : Option Nat} {c : Char}
    (member : c ∈ renderRange start count) : c.isDigit = true ∨ c = ',' := by
  unfold renderRange at member
  cases count with
  | none => exact .inl (isDigit_toDigits (by simpa using member))
  | some n =>
    simp only [List.mem_append, List.mem_cons] at member
    rcases member with digit | rfl | digit
    · exact .inl (isDigit_toDigits digit)
    · exact .inr rfl
    · exact .inl (isDigit_toDigits digit)

theorem notMem_renderRange {start : Nat} {count : Option Nat} {c : Char}
    (other : c.isDigit = false ∧ c ≠ ',') : c ∉ renderRange start count :=
  fun member => (mem_renderRange member).elim (by simp [other.1]) other.2

variable (h : PatchHunk)

theorem newline_notMem_header : '\n' ∉ h.header := by
  have range (start : Nat) (count : Option Nat) : '\n' ∉ renderRange start count :=
    notMem_renderRange (by decide)
  simp [PatchHunk.header, range, h.oneLine]

theorem parseHunkNewStart_header : parseHunkNewStart h.header = h.start := by
  have old : '+' ∉ renderRange h.oldStart h.oldCount := notMem_renderRange (by decide)
  have plus : h.header.dropWhile (· != '+') =
      '+' :: (renderRange h.start h.count ++ ' ' :: '@' :: '@' :: h.heading) := by
    have parts : h.header = '@' :: '@' :: ' ' :: '-' :: (renderRange h.oldStart h.oldCount ++ [' ']) ++
        '+' :: (renderRange h.start h.count ++ ' ' :: '@' :: '@' :: h.heading) := by
      simp [PatchHunk.header]
    rw [parts, List.dropWhile_append_of_pos, List.dropWhile_cons_of_neg (by decide)]
    simp only [bne_iff_ne]
    rintro c member rfl
    simp [old] at member
  -- A comma or a blank ends the number.
  have number : (renderRange h.start h.count ++ ' ' :: '@' :: '@' :: h.heading).takeWhile
      (fun c => c != ',' && c != ' ') = Nat.toDigits 10 h.start := by
    have digits : ∀ c ∈ Nat.toDigits 10 h.start, (c != ',' && c != ' ') = true := by
      intro c member
      have isDigit := isDigit_toDigits member
      simp only [Bool.and_eq_true, bne_iff_ne]
      constructor <;> rintro rfl <;> cases isDigit
    unfold renderRange
    rw [List.append_assoc, List.takeWhile_append_of_pos digits]
    cases h.count <;> simp
  rw [parseHunkNewStart, plus]
  simp only [number, atoi_toDigits (lt_of_le_of_lt (Nat.le_add_right _ _) h.fits), Option.getD_some]

theorem read_header (scan : HunkScan) :
    scan.read h.header = ⟨scan.hunks ++ [⟨h.start, []⟩], h.start, true⟩ := by
  have start := parseHunkNewStart_header h
  have positive := h.positive
  unfold PatchHunk.header at start ⊢
  simp only [HunkScan.read, start]
  rw [if_pos (by omega)]

theorem read_lines (hunks : List Hunk) (start : Int) (read : List DiffLine)
    (lines : List PatchLine) (k : Nat) :
    (lines.map PatchLine.render).foldl HunkScan.read ⟨hunks ++ [⟨start, read⟩], start + k, true⟩ =
      ⟨hunks ++
        [⟨start, read ++ ((newSide lines).zipIdx k).map fun l =>
        ⟨start + l.2, l.1.1, String.ofList l.1.2⟩⟩],
        start + (k + (newSide lines).length), true⟩ := by
  induction lines generalizing read k with
  | nil => simp [newSide]
  | cons l rest ih =>
    obtain ⟨kind, text, oneLine⟩ := l
    rw [List.map_cons, List.foldl_cons]
    -- A line of the new side takes the next number.
    have next (added : Bool) : HunkScan.append ⟨hunks ++ [⟨start, read⟩], start + k, true⟩ added text =
        ⟨hunks ++ [⟨start, read ++ [⟨start + k, added, String.ofList text⟩]⟩],
          start + (k + 1 : Nat), true⟩ := by
      simp [HunkScan.append, Int.add_assoc]
    cases kind with
    | context =>
      have read_line : HunkScan.read ⟨hunks ++ [⟨start, read⟩], start + k, true⟩
          (PatchLine.render ⟨.context, text, oneLine⟩) = _ := next false
      rw [read_line, ih]
      simp [newSide, List.zipIdx_cons]
      omega
    | added =>
      have read_line : HunkScan.read ⟨hunks ++ [⟨start, read⟩], start + k, true⟩
          (PatchLine.render ⟨.added, text, oneLine⟩) = _ := next true
      rw [read_line, ih]
      simp [newSide, List.zipIdx_cons]
      omega
    | removed | marker => exact ih read k

theorem read_hunk (scan : HunkScan) : ∃ newLine,
    h.render.foldl HunkScan.read scan = ⟨scan.hunks ++ [h.parsed], newLine, true⟩ := by
  rw [PatchHunk.render, List.foldl_cons, read_header]
  have lines := read_lines scan.hunks h.start [] h.lines 0
  exact ⟨_, by simpa [PatchHunk.parsed] using lines⟩

theorem read_hunks (hunks : List PatchHunk) (scan : HunkScan) :
    ((hunks.flatMap PatchHunk.render).foldl HunkScan.read scan).hunks = scan.hunks ++
      hunks.map PatchHunk.parsed := by
  induction hunks generalizing scan with
  | nil => simp
  | cons h rest ih =>
    obtain ⟨newLine, first⟩ := read_hunk h scan
    rw [List.flatMap_cons, List.foldl_append, first, ih]
    simp

theorem newline_notMem_render {h : PatchHunk} {l : List Char} (member : l ∈ h.render) :
    '\n' ∉ l := by
  rcases List.mem_cons.mp member with rfl | line
  · exact newline_notMem_header h
  · obtain ⟨⟨kind, text, oneLine⟩, -, rfl⟩ := List.mem_map.mp line
    cases kind <;> simp [PatchLine.render, LineKind.lead, oneLine]

/-- Parsing a rendered patch gives its hunks back. -/
theorem parseHunks_render (hunks : List PatchHunk) (newline : Bool) :
    parseHunks (renderPatch hunks newline) = hunks.map PatchHunk.parsed := by
  have blank (scan : HunkScan) : scan.read [] = scan := by simp [HunkScan.read]
  have lines : ∀ l ∈ hunks.flatMap PatchHunk.render ++ (if newline then [[]] else []), '\n' ∉ l := by
    intro l member
    rcases List.mem_append.mp member with rendered | last
    · obtain ⟨h, -, line⟩ := List.mem_flatMap.mp rendered
      exact newline_notMem_render line
    · cases newline <;> simp_all
  by_cases empty : hunks.flatMap PatchHunk.render ++ (if newline then [[]] else []) = []
  · obtain ⟨none, -⟩ := List.append_eq_nil_iff.mp empty
    have hunks : hunks = [] := by
      cases hunks with
      | nil => rfl
      | cons h rest => simp [PatchHunk.render] at none
    subst hunks
    cases newline <;> decide
  · rw [parseHunks, renderPatch, String.toList_ofList, List.splitOn_intercalate _ lines empty,
      List.foldl_append]
    have all := read_hunks hunks ⟨[], 0, false⟩
    cases newline
    · simpa using all
    · simpa [blank] using all

def PatchHunk.annotated (h : PatchHunk) : String :=
  "@@ " ++ toString (h.start : Int) ++ "-" ++
    toString (h.start + ((newSide h.lines).length - 1 : Nat) : Int) ++
    " @@\n" ++ String.join ((newSide h.lines).zipIdx.map fun l =>
      annotateLine ⟨h.start + l.2, l.1.1, String.ofList l.1.2⟩)

theorem annotateHunk_parsed : annotateHunk h.parsed = h.annotated := by
  have stop : ((h.parsed.lines.getLast?.map (·.newLineNo)).getD h.parsed.newStart) =
      h.start + ((newSide h.lines).length - 1 : Nat) := by
    cases last : (newSide h.lines)[(newSide h.lines).length - 1]? with
    | none =>
      have empty := List.getElem?_eq_none_iff.mp last
      have nothing : newSide h.lines = [] := List.length_eq_zero_iff.mp (by omega)
      simp [PatchHunk.parsed, nothing]
    | some l => simp [PatchHunk.parsed, List.getLast?_eq_getElem?, last]
  rw [annotateHunk, stop]
  simp [PatchHunk.annotated, PatchHunk.parsed, Function.comp_def]

end Manyforge.Coding
