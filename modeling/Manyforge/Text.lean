import Mathlib.Algebra.Ring.Int.Defs
import Mathlib.Data.List.Basic

/-!
# Text

The parts of Go's `strings`, `strconv` and `time` packages that the modelled
code calls. What depends on tables outside the repository (Unicode case folding,
the time-zone database, URL and UUID syntax) is a field of `Runtime`; every
result holds for each choice of these fields.
-/
namespace Manyforge

/-- UUIDs in byte order; `0` is `uuid.Nil`. -/
abbrev UUID := Nat

/-- Microseconds on the database's and the processes' clocks. -/
abbrev Timestamp := Int

def isSpace (c : Char) : Bool :=
  let n := c.toNat
  (9 ≤ n && n ≤ 13) || n == 0x20 || n == 0x85 || n == 0xA0 || n == 0x1680 ||
    (0x2000 ≤ n && n ≤ 0x200a) || n == 0x2028 || n == 0x2029 || n == 0x202f ||
    n == 0x205f || n == 0x3000

variable (s : String)

def trimSpace : String :=
  String.ofList ((s.toList.dropWhile isSpace).reverse.dropWhile isSpace).reverse

/-- `len(s)`: bytes, not characters. -/
def byteLength : Nat := s.utf8ByteSize

/-- SQL's `btrim(s)`, which removes blanks only. -/
def btrim : String :=
  String.ofList ((s.toList.dropWhile (· == ' ')).reverse.dropWhile (· == ' ')).reverse

/-- SQL's `left(s, n)`: the first `n` characters. -/
def textLeft (n : Nat) : String := String.ofList (s.toList.take n)

/-- SQL's `COALESCE(NULLIF(s, ''), other)`. -/
def nonEmptyOr (s other : String) : String := if s = "" then other else s

/-- `^[a-z0-9_-]{1,64}$`, which the graph validator and the `CHECK` constraints on node ids
share. -/
def graphIDPattern : Bool :=
  let chars := s.toList
  1 ≤ chars.length && chars.length ≤ 64 &&
    chars.all fun c => c.isLower || c.isDigit || c == '_' || c == '-'

def digitValue (c : Char) : Option Nat := if c.isDigit then some (c.toNat - '0'.toNat) else none

def decimalValue : List Char → Option Nat
  | [] => none
  | digits => digits.foldl (fun acc c => do pure ((← acc) * 10 + (← digitValue c))) (some 0)

/-- `strconv.ParseInt(s, 10, 64)` on a JSON number literal. -/
def parseInt64 (literal : String) : Option Int :=
  let value : Option Int := match literal.toList with
    | '-' :: digits => (decimalValue digits).map fun n => -(n : Int)
    | digits => (decimalValue digits).map fun n => (n : Int)
  value.filter fun n => decide (-(2 ^ 63) ≤ n ∧ n < 2 ^ 63)

/-- `strconv.Atoi`, which also accepts a leading plus sign. -/
def atoi : Option Int :=
  match s.toList with
  | '+' :: digits => parseInt64 (String.ofList (match digits with | '-' :: _ => [] | d => d))
  | _ => parseInt64 s

/-- `strings.Split(s, ":")`. -/
def splitColon : List String :=
  (s.toList.splitOn ':').map String.ofList

/-- `time.Parse("15:04", s)` succeeds and `s` has five bytes: two digits, a colon, two digits,
with the hour below 24 and the minute below 60. -/
def validClock : Bool :=
  match s.toList with
  | [h₁, h₂, ':', m₁, m₂] =>
    match decimalValue [h₁, h₂], decimalValue [m₁, m₂] with
    | some hour, some minute => hour < 24 && minute < 60
    | _, _ => false
  | _ => false

theorem digitValue_some {c : Char} {n : Nat} (digit : digitValue c = some n) :
    c.isDigit = true ∧ n ≤ 9 := by
  unfold digitValue at digit
  split at digit
  next is =>
    refine ⟨is, ?_⟩
    simp only [Char.isDigit, Bool.and_eq_true, decide_eq_true_eq] at is
    have upper : c.toNat ≤ 57 := is.2
    simp at digit
    omega
  next => cases digit

theorem decimalValue_pair {a b : Char} {n : Nat} (read : decimalValue [a, b] = some n) :
    a.isDigit = true ∧ b.isDigit = true ∧ n ≤ 99 := by
  simp only [decimalValue, List.foldl_cons, List.foldl_nil] at read
  cases first : digitValue a with
  | none => rw [first] at read; cases read
  | some x =>
    cases second : digitValue b with
    | none => rw [first, second] at read; cases read
    | some y =>
      rw [first, second] at read
      obtain ⟨digit_a, small_a⟩ := digitValue_some first
      obtain ⟨digit_b, small_b⟩ := digitValue_some second
      refine ⟨digit_a, digit_b, ?_⟩
      have value : (0 * 10 + x) * 10 + y = n := Option.some.inj read
      omega

theorem atoi_pair {a b : Char} {n : Nat} (read : decimalValue [a, b] = some n) :
    atoi (String.ofList [a, b]) = some (n : Int) := by
  obtain ⟨digit_a, -, small⟩ := decimalValue_pair read
  have plus : a ≠ '+' := by rintro rfl; exact absurd digit_a (by decide)
  have minus : a ≠ '-' := by rintro rfl; exact absurd digit_a (by decide)
  unfold atoi
  rw [String.toList_ofList]
  split
  next same => simp at same; exact absurd same.1 plus
  next =>
  unfold parseInt64
  rw [String.toList_ofList]
  split
  next same => simp at same; exact absurd same.1 minus
  next =>
  rw [read]
  simp [Option.filter]
  omega

theorem splitColon_clock {h₁ h₂ m₁ m₂ : Char} (digits : h₁.isDigit = true ∧ h₂.isDigit = true)
    (digits' : m₁.isDigit = true ∧ m₂.isDigit = true) (s : String)
    (chars : s.toList = [h₁, h₂, ':', m₁, m₂]) :
    splitColon s = [String.ofList [h₁, h₂], String.ofList [m₁, m₂]] := by
  have colon : ∀ c : Char, c.isDigit = true → (c == ':') = false := by
    intro c digit
    simp only [beq_eq_false_iff_ne]
    rintro rfl
    exact absurd digit (by decide)
  simp [splitColon, chars, List.splitOn, List.splitOnP_cons_eq_if_modifyHead, colon _ digits.1,
    colon _ digits.2, colon _ digits'.1, colon _ digits'.2]

theorem validClock_reads {s : String} (valid : validClock s = true) :
    ∃ hourText minuteText : String, ∃ hour minute : Int, splitColon s = [hourText, minuteText] ∧
      atoi hourText = some hour ∧ atoi minuteText = some minute ∧
      ¬(hour < 0 ∨ hour > 23 ∨ minute < 0 ∨ minute > 59) := by
  unfold validClock at valid
  split at valid
  next h₁ h₂ m₁ m₂ chars =>
    split at valid
    next hour minute read_hour read_minute =>
      simp only [Bool.and_eq_true, decide_eq_true_eq] at valid
      have hours := decimalValue_pair read_hour
      have minutes := decimalValue_pair read_minute
      exact ⟨_, _, hour, minute,
        splitColon_clock ⟨hours.1, hours.2.1⟩ ⟨minutes.1, minutes.2.1⟩ s chars, atoi_pair read_hour,
        atoi_pair read_minute, by omega⟩
    next => cases valid
  next => cases valid

/-- `strings.TrimSpace(value) != "" && len(value) <= max`, on the trimmed value. -/
def validLabel (value : String) (max : Nat) : Bool :=
  let value := trimSpace value
  value ≠ "" && byteLength value ≤ max

/-- The calendar reading of an instant in some location; Sunday is weekday `0`. -/
structure Civil where
  (year month day hour minute weekday : Int)

/-- A loaded `time.Location`: reading the calendar and `time.Date`, which normalises days. -/
structure Location where
  civil : Timestamp → Civil
  date : (year month day hour minute : Int) → Timestamp

/-- `t.AddDate(0, 0, days)` in `location`. -/
def Location.addDays (location : Location) (t : Timestamp) (days : Int) : Timestamp :=
  let c := location.civil t
  location.date c.year c.month (c.day + days) c.hour c.minute

/-- The tables and parsers of the Go runtime. -/
structure Runtime where
  /-- `uuid.UUID.UnmarshalText`. -/
  parseUUID : String → Option UUID
  /-- The representative of a character's Unicode simple-folding orbit. -/
  simpleFold : Char → Char
  /-- `time.LoadLocation`. -/
  loadLocation : String → Option Location
  /-- `url.ParseRequestURI`, as the scheme and the host. -/
  parseRequestURI : String → Option (String × String)

def Runtime.equalFold (rt : Runtime) (s t : String) : Bool :=
  s.toList.map rt.simpleFold == t.toList.map rt.simpleFold

def Runtime.validHTTPURL (rt : Runtime) (value : String) : Bool :=
  match rt.parseRequestURI value with
  | some (scheme, host) => (scheme == "http" || scheme == "https") && host != ""
  | none => false

end Manyforge
