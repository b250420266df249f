import Manyforge.Text

/-!
# Decoding JSON into structs

`encoding/json` up to the lexical level: a raw message is empty, not a JSON text,
or a value with or without further text after it. Decoding follows the library:
an exact field name wins over a case-folded one, a later duplicate key overwrites
an earlier one, `null` clears a pointer and leaves every other field alone, and a
value of the wrong type fails the whole call.
-/
namespace Manyforge

inductive Json where
  | null
  | bool (value : Bool)
  | number (literal : String)
  | string (value : String)
  | array (items : List Json)
  | object (members : List (String × Json))

inductive RawMessage where
  | empty
  | malformed
  | value (json : Json) (trailing : Bool)

namespace Json

/-- A struct field: its JSON name and how a value is stored in it. -/
structure Field (Struct : Type) where
  name : String
  set : Struct → Json → Option Struct

variable {Struct : Type}

/-- The library's `foldName`, on the orbits that meet the ASCII letters. -/
def foldRune (c : Char) : Char :=
  if c.isLower then c.toUpper
  else if c.toNat == 0x17f then 'S'
  else if c.toNat == 0x212a then 'K'
  else c

def foldName (s : String) : List Char := s.toList.map foldRune

def lookupField (fields : List (Field Struct)) (key : String) : Option (Field Struct) :=
  (fields.find? fun field => field.name == key).or
    (fields.find? fun field => foldName field.name == foldName key)

def decodeMembers (disallowUnknown : Bool) (fields : List (Field Struct)) :
    Struct → List (String × Json) → Option Struct
  | dst, [] => some dst
  | dst, (key, value) :: rest =>
    match lookupField fields key with
    | some field =>
      match field.set dst value with
      | some dst => decodeMembers disallowUnknown fields dst rest
      | none => none
    | none => if disallowUnknown then none else decodeMembers disallowUnknown fields dst rest

def decodeStruct (disallowUnknown : Bool) (fields : List (Field Struct)) (zero : Struct) :
    Json → Option Struct
  | .null => some zero
  | .object members => decodeMembers disallowUnknown fields zero members
  | _ => none

/-- Storing into a `string`. -/
def setString (old : String) : Json → Option String
  | .string value => some value
  | .null => some old
  | _ => none

/-- Storing into a `*string`. -/
def setStringPointer : Json → Option (Option String)
  | .string value => some (some value)
  | .null => some none
  | _ => none

/-- Storing into a `*bool`. -/
def setBoolPointer : Json → Option (Option Bool)
  | .bool value => some (some value)
  | .null => some none
  | _ => none

/-- Storing into a `*int64` or `*int`. -/
def setIntPointer : Json → Option (Option Int)
  | .number literal => (parseInt64 literal).map some
  | .null => some none
  | _ => none

/-- Storing into a `uuid.UUID`, a text unmarshaller. -/
def setUUID (rt : Runtime) (old : UUID) : Json → Option UUID
  | .string value => rt.parseUUID value
  | .null => some old
  | _ => none

end Json

/-- `decodeConfig` of `graph.go`. -/
def decodeConfig {Struct : Type} (fields : List (Json.Field Struct)) (zero : Struct) :
    RawMessage → Option Struct
  | .value .null _ => none
  | .value json false => Json.decodeStruct true fields zero json
  | _ => none

/-- `json.Unmarshal`, which accepts unknown fields. -/
def unmarshal {Struct : Type} (fields : List (Json.Field Struct)) (zero : Struct) :
    RawMessage → Option Struct
  | .value json false => Json.decodeStruct false fields zero json
  | _ => none

namespace Json

variable {Struct : Type}

theorem lookupField_append {fields : List (Field Struct)} {extra : Field Struct}
    (distinct : ∀ field ∈ fields, foldName field.name ≠ foldName extra.name) {key : String}
    {field : Field Struct} (found : lookupField fields key = some field) :
    lookupField (fields ++ [extra]) key = some field := by
  unfold lookupField at found ⊢
  cases exact : fields.find? fun field => field.name == key with
  | some named =>
    rw [exact] at found
    simpa [List.find?_append, exact] using found
  | none =>
    rw [exact, Option.none_or] at found
    have folded : foldName field.name = foldName key := by simpa using List.find?_some found
    have other : (extra.name == key) = false := by
      simp only [beq_eq_false_iff_ne]
      rintro rfl
      exact distinct field (List.mem_of_find?_eq_some found) folded
    simp [List.find?_append, exact, found, other]

theorem decodeMembers_append {fields : List (Field Struct)} {extra : Field Struct}
    (distinct : ∀ field ∈ fields, foldName field.name ≠ foldName extra.name)
    (members : List (String × Json)) {dst result : Struct}
    (decoded : decodeMembers true fields dst members = some result) :
    decodeMembers true (fields ++ [extra]) dst members = some result := by
  induction members generalizing dst with
  | nil => exact decoded
  | cons member rest ih =>
    obtain ⟨key, value⟩ := member
    simp only [decodeMembers] at decoded ⊢
    cases found : lookupField fields key with
    | none => simp [found] at decoded
    | some field =>
      rw [found] at decoded
      rw [lookupField_append distinct found]
      simp only [] at decoded ⊢
      cases stored : field.set dst value with
      | none => simp [stored] at decoded
      | some dst' =>
        simp only [stored] at decoded ⊢
        exact ih decoded

end Json

theorem decodeConfig_append {Struct : Type} {fields : List (Json.Field Struct)}
    {extra : Json.Field Struct}
    (distinct : ∀ field ∈ fields, Json.foldName field.name ≠ Json.foldName extra.name)
    {zero result : Struct} {raw : RawMessage}
    (decoded : decodeConfig fields zero raw = some result) :
    decodeConfig (fields ++ [extra]) zero raw = some result := by
  unfold decodeConfig at decoded ⊢
  split at decoded
  · cases decoded
  next json _ =>
    unfold Json.decodeStruct at decoded ⊢
    split at decoded
    · exact decoded
    · exact Json.decodeMembers_append distinct _ decoded
    · cases decoded
  · cases decoded

end Manyforge
