import Manyforge.Coding.Findings

/-!
# Recovering a document from a reply

When `ParseFindings` finds a document between a prefix and a suffix of prose. The scanner reads the
prose with the rules of JSON strings, so that a quotation mark in the prefix can hide the document.
-/
namespace Manyforge.Coding

/-- The text of a JSON string between its quotation marks. -/
inductive StringBody : List Char → Prop
  | nil : StringBody []
  | char {c : Char} {rest : List Char} : c ≠ '"' → c ≠ '\\' → StringBody rest → StringBody (c :: rest)
  | escape {c : Char} {rest : List Char} : StringBody rest → StringBody ('\\' :: c :: rest)

/-- Text in which the braces outside strings are balanced, such as the text between the braces of a
JSON object. -/
inductive Balanced : List Char → Prop
  | nil : Balanced []
  | char {c : Char} {rest : List Char} : c ≠ '"' → c ≠ '{' → c ≠ '}' → Balanced rest →
      Balanced (c :: rest)
  | string {body rest : List Char} : StringBody body → Balanced rest →
      Balanced ('"' :: (body ++ '"' :: rest))
  | object {inner rest : List Char} : Balanced inner → Balanced rest →
      Balanced ('{' :: (inner ++ '}' :: rest))

/-- An object that decodes to a document with an array of findings. -/
structure FindingsText (rt : ReviewRuntime) (d : List Char) : Prop where
  object : ∃ inner, Balanced inner ∧ d = '{' :: (inner ++ ['}'])
  decodes : ∃ doc, rt.decode (String.ofList d) = some doc ∧ doc.findings.isSome

/-- Prose has no braces. -/
def Prose (text : List Char) : Prop := ∀ c ∈ text, c ≠ '{' ∧ c ≠ '}'

def Scan.start : Scan := ⟨0, [], false, false, []⟩

section Reading

variable (depth : Nat) (region : List Char) (out : List String)

theorem read_stringBody {body : List Char} (isBody : StringBody body) :
    body.foldl Scan.read ⟨depth + 1, region, true, false, out⟩ =
      ⟨depth + 1, body.reverse ++ region, true, false, out⟩ := by
  induction isBody generalizing region with
  | nil => rfl
  | char quote backslash _ ih => simp [Scan.read, quote, backslash, ih]
  | escape _ ih => simp [Scan.read, ih]

theorem read_balanced {text : List Char} (balanced : Balanced text) :
    text.foldl Scan.read ⟨depth + 1, region, false, false, out⟩ =
      ⟨depth + 1, text.reverse ++ region, false, false, out⟩ := by
  induction balanced generalizing depth region with
  | nil => rfl
  | char quote opening closing _ ih => simp [Scan.read, quote, opening, closing, ih]
  | @string body rest isBody _ ih =>
    have opened : Scan.read ⟨depth + 1, region, false, false, out⟩ '"' =
        ⟨depth + 1, '"' :: region, true, false, out⟩ := by simp [Scan.read]
    have closed (region : List Char) : Scan.read ⟨depth + 1, region, true, false, out⟩ '"' =
        ⟨depth + 1, '"' :: region, false, false, out⟩ := by simp [Scan.read]
    rw [List.foldl_cons, opened, List.foldl_append, read_stringBody depth _ out isBody,
      List.foldl_cons, closed, ih]
    simp
  | @object inner rest _ _ ih_inner ih_rest =>
    have opened : Scan.read ⟨depth + 1, region, false, false, out⟩ '{' =
        ⟨depth + 2, '{' :: region, false, false, out⟩ := by simp [Scan.read]
    have closed (region : List Char) : Scan.read ⟨depth + 2, region, false, false, out⟩ '}' =
        ⟨depth + 1, '}' :: region, false, false, out⟩ := by simp [Scan.read]
    rw [List.foldl_cons, opened, List.foldl_append, ih_inner, List.foldl_cons, closed, ih_rest]
    simp

theorem read_object {inner : List Char} (balanced : Balanced inner) :
    ('{' :: (inner ++ ['}'])).foldl Scan.read ⟨0, [], false, false, out⟩ =
      ⟨0, [], false, false, out ++ [String.ofList ('{' :: (inner ++ ['}']))]⟩ := by
  have opened : Scan.read ⟨0, [], false, false, out⟩ '{' = ⟨1, ['{'], false, false, out⟩ := by
    simp [Scan.read]
  rw [List.foldl_cons, opened, List.foldl_append, read_balanced 0 _ out balanced]
  simp [Scan.read]

end Reading

theorem read_prose {text : List Char} (prose : Prose text) (scan : Scan)
    (outside : scan.depth = 0 ∧ scan.region = []) (escaped : scan.esc = true → scan.inStr = true) :
    ∃ inStr esc, (esc = true → inStr = true) ∧
      text.foldl Scan.read scan = ⟨0, [], inStr, esc, scan.out⟩ := by
  induction text generalizing scan with
  | nil =>
    obtain ⟨depth, region, inStr, esc, out⟩ := scan
    obtain ⟨rfl, rfl⟩ := outside
    exact ⟨inStr, esc, escaped, rfl⟩
  | cons c rest ih =>
    obtain ⟨⟨opening, closing⟩, later⟩ := List.forall_mem_cons.mp prose
    obtain ⟨depth, region, inStr, esc, out⟩ := scan
    obtain ⟨rfl, rfl⟩ := outside
    have step : ∃ inStr' esc', (esc' = true → inStr' = true) ∧
        Scan.read ⟨0, [], inStr, esc, out⟩ c = ⟨0, [], inStr', esc', out⟩ := by
      cases inStr <;> cases esc <;> by_cases quote : c = '"' <;> by_cases backslash : c = '\\' <;>
        simp_all [Scan.read]
    obtain ⟨inStr', esc', escaped', read⟩ := step
    rw [List.foldl_cons, read]
    exact ih later _ ⟨rfl, rfl⟩ escaped'

theorem objects_of_reply {p inner s : List Char} (lead : Prose p) (balanced : Balanced inner)
    (tail : Prose s) (outside : (p.foldl Scan.read Scan.start).inStr = false) :
    topLevelJSONObjects (String.ofList (p ++ '{' :: (inner ++ ['}']) ++ s)) =
      [String.ofList ('{' :: (inner ++ ['}']))] := by
  obtain ⟨inStr, esc, escaped, before⟩ := read_prose lead Scan.start ⟨rfl, rfl⟩ nofun
  rw [before] at outside
  obtain rfl : inStr = false := outside
  obtain rfl : esc = false := by cases esc <;> simp_all
  have object := read_object Scan.start.out balanced
  obtain ⟨inStr', esc', -, after⟩ := read_prose tail ⟨0, [], false, false, _⟩ ⟨rfl, rfl⟩ nofun
  rw [topLevelJSONObjects, String.toList_ofList, List.foldl_append, List.foldl_append]
  change (List.foldl _ (List.foldl _ (List.foldl _ Scan.start p) _) s).out = _
  rw [before, object, after]
  rfl

theorem parseFindings_of_objects (rt : ReviewRuntime) {a b : String}
    (same : topLevelJSONObjects a = topLevelJSONObjects b) :
    parseFindings rt a = parseFindings rt b := by
  rw [parseFindings, parseFindings, decodedDocs, decodedDocs, same]

/-- The fields of a document without findings. -/
def noFindings : List Char :=
  '"' :: (['f', 'i', 'n', 'd', 'i', 'n', 'g', 's'] ++ '"' :: [':', '[', ']'])

def emptyDocument : List Char := '{' :: (noFindings ++ ['}'])

theorem balanced_noFindings : Balanced noFindings := by
  refine .string ?_ ?_
  · repeat refine .char (by decide) (by decide) ?_
    exact .nil
  · repeat refine .char (by decide) (by decide) (by decide) ?_
    exact .nil

/-- Inside a string the quotation marks change their sides, and both braces are taken for text. -/
theorem objects_hidden {p : List Char} (lead : Prose p)
    (inside : (p.foldl Scan.read Scan.start).inStr = true) :
    topLevelJSONObjects (String.ofList (p ++ emptyDocument)) = [] := by
  obtain ⟨inStr, esc, -, before⟩ := read_prose lead Scan.start ⟨rfl, rfl⟩ nofun
  rw [before] at inside
  obtain rfl : inStr = true := inside
  rw [topLevelJSONObjects, String.toList_ofList, List.foldl_append]
  change (List.foldl _ (List.foldl _ Scan.start p) _).out = _
  rw [before]
  cases esc <;> decide

/-- Every document is recovered behind a prefix exactly when the prefix does not end inside a
string. -/
theorem recovered_iff (rt : ReviewRuntime)
    (decodes : rt.decode (String.ofList emptyDocument) = some ⟨"", some []⟩)
    (p : List Char) (lead : Prose p) :
    (∀ d s, FindingsText rt d → Prose s →
      parseFindings rt (String.ofList (p ++ d ++ s)) = parseFindings rt (String.ofList d)) ↔
    (p.foldl Scan.read Scan.start).inStr = false := by
  have nothing : Prose [] := nofun
  have alone {inner : List Char} (balanced : Balanced inner) :=
    objects_of_reply nothing balanced nothing rfl
  simp only [List.nil_append, List.append_nil] at alone
  constructor
  · intro recovered
    by_contra inside
    have text : FindingsText rt emptyDocument := ⟨⟨_, balanced_noFindings, rfl⟩, _, decodes, rfl⟩
    have same := recovered emptyDocument [] text nothing
    rw [List.append_nil] at same
    have hidden : parseFindings rt (String.ofList (p ++ emptyDocument)) = .error .empty := by
      rw [parseFindings, if_pos (objects_hidden lead (by simpa using inside))]
    have objects : topLevelJSONObjects (String.ofList emptyDocument) = [String.ofList emptyDocument] :=
      alone balanced_noFindings
    have parsed : ∃ doc, parseFindings rt (String.ofList emptyDocument) = .ok doc := by
      rw [parseFindings, decodedDocs, objects]
      simp [decodes, checkFindings]
    obtain ⟨doc, parsed⟩ := parsed
    rw [hidden, parsed] at same
    cases same
  · rintro outside d s ⟨⟨inner, balanced, rfl⟩, -⟩ tail
    apply parseFindings_of_objects
    rw [objects_of_reply lead balanced tail outside, alone balanced]

namespace Sample

def oneDocument : ReviewRuntime :=
  ⟨id, (· == ·), fun s => if s = String.ofList emptyDocument then some ⟨"", some []⟩ else none, id⟩

/-- A prefix with an apostrophe and with quotation marks in pairs. -/
theorem recovered_quoted :
    parseFindings oneDocument (String.ofList ("It's \"done\":\n".toList ++ emptyDocument ++ ['!'])) =
      parseFindings oneDocument (String.ofList emptyDocument) := by
  have text : FindingsText oneDocument emptyDocument := ⟨⟨_, balanced_noFindings, rfl⟩, _, rfl, rfl⟩
  have prose : "It's \"done\":\n".toList.all (fun c => c != '{' && c != '}') = true := by decide
  refine (recovered_iff oneDocument rfl _ fun c member => ?_).mpr (by decide) _ _ text
    (by simp [Prose])
  simpa using List.all_eq_true.mp prose c member

/-- One quotation mark in front of a document hides it. -/
theorem document_hidden :
    parseFindings oneDocument (String.ofList emptyDocument) = .ok ⟨"No issues found.", []⟩ ∧
    parseFindings oneDocument (String.ofList ("a 5\" screen: ".toList ++ emptyDocument)) =
      .error .empty := by
  exact ⟨rfl, rfl⟩

end Sample

end Manyforge.Coding
