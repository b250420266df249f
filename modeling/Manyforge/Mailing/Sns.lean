import Mathlib.Data.List.Basic

/-!
# Signed SNS envelopes

What the signature of an envelope is computed over: the names and values of its signed fields, each
on lines of its own. A value may have several lines, so that a line of it can read as the name of a
field.
-/
namespace Manyforge.Sns

/-- The signed fields of an envelope. -/
structure Message where
  (type messageId topicArn : String)
  subject : Option String
  (message timestamp token subscribeUrl : String)

namespace Message

variable (msg : Message)

def fields? : Option (List (String × String)) :=
  if msg.type = "Notification" then
    some ([("Message", msg.message), ("MessageId", msg.messageId)] ++
      (msg.subject.map ("Subject", ·)).toList ++
      [("Timestamp", msg.timestamp), ("TopicArn", msg.topicArn), ("Type", msg.type)])
  else if msg.type = "SubscriptionConfirmation" ∨ msg.type = "UnsubscribeConfirmation" then
    some [("Message", msg.message), ("MessageId", msg.messageId), ("SubscribeURL", msg.subscribeUrl),
      ("Timestamp", msg.timestamp), ("Token", msg.token), ("TopicArn", msg.topicArn), ("Type", msg.type)]
  else none

def canonicalString : Except String String :=
  match msg.fields? with
  | none => .error "sns: unsupported message type"
  | some fields =>
    if fields.any fun field => field.2 = "" || field.1.toList.contains '\n' then
      .error "sns: signed envelope is missing a required field"
    else .ok (String.join (fields.map fun field => field.1 ++ "\n" ++ field.2 ++ "\n"))

end Message

def fieldNames : List String :=
  ["Message", "MessageId", "Subject", "SubscribeURL", "Timestamp", "Token", "TopicArn", "Type"]

/-- No line of a signed value is the name of a signed field. -/
def Message.Plain (msg : Message) : Prop :=
  ∀ fields ∈ msg.fields?, ∀ field ∈ fields, ∀ line ∈ field.2.toList.splitOn '\n',
    String.ofList line ∉ fieldNames

/-! ### Lines -/

/-- The lines of the signed text. -/
def signedLines (fields : List (String × String)) : List (List Char) :=
  fields.flatMap fun field => field.1.toList :: field.2.toList.splitOn '\n'

theorem splitOn_signed {fields : List (String × String)}
    (names : ∀ field ∈ fields, '\n' ∉ field.1.toList) :
    (String.join (fields.map fun field => field.1 ++ "\n" ++ field.2 ++ "\n")).toList.splitOn '\n' =
      signedLines fields ++ [[]] := by
  induction fields with
  | nil => rfl
  | cons field fields ih =>
    obtain ⟨name, later⟩ := List.forall_mem_cons.mp names
    have text :
        (String.join ((field :: fields).map fun field =>
          field.1 ++ "\n" ++ field.2 ++ "\n")).toList =
        field.1.toList ++ '\n' :: (field.2.toList ++ '\n' ::
          (String.join (fields.map fun field => field.1 ++ "\n" ++ field.2 ++ "\n")).toList) := by
      simp
    rw [text, List.splitOn_append_cons_self, List.splitOn_append_cons_self, ih later,
      List.splitOn_eq_singleton name]
    simp [signedLines]

/-- Where no line of a value is a name, the names show where a value ends. -/
theorem signedLines_inj {names : List (List Char)} {fields fields' : List (String × String)}
    (apart : ∀ field ∈ fields, field.1.toList ∈ names ∧
      ∀ line ∈ field.2.toList.splitOn '\n', line ∉ names)
    (apart' : ∀ field ∈ fields', field.1.toList ∈ names ∧
      ∀ line ∈ field.2.toList.splitOn '\n', line ∉ names)
    (same : signedLines fields = signedLines fields') : fields = fields' := by
  have value {field : String × String} {fields : List (String × String)}
      (apart : ∀ f ∈ field :: fields, f.1.toList ∈ names ∧
        ∀ line ∈ f.2.toList.splitOn '\n', line ∉ names) :
      (field.2.toList.splitOn '\n' ++ signedLines fields).takeWhile (· ∉ names) =
        field.2.toList.splitOn '\n' := by
    obtain ⟨mine, later⟩ := List.forall_mem_cons.mp apart
    rw [List.takeWhile_append_of_pos (by simpa using mine.2)]
    cases fields with
    | nil => simp [signedLines]
    | cons next rest => simp [signedLines, (later next (by simp)).1]
  induction fields generalizing fields' with
  | nil =>
    cases fields' with
    | nil => rfl
    | cons field' rest' => simp [signedLines] at same
  | cons field rest ih =>
    cases fields' with
    | nil => simp [signedLines] at same
    | cons field' rest' =>
      obtain ⟨isName, (same : _ ++ signedLines rest = _ ++ signedLines rest')⟩ := List.cons.inj same
      have lines := congrArg (List.takeWhile (· ∉ names)) same
      rw [value apart, value apart'] at lines
      rw [lines] at same
      have sameRest := ih (fun f member => apart f (by simp [member]))
        (fun f member => apart' f (by simp [member]))
        (List.append_cancel_left same)
      have isValue := congrArg (List.intercalate ['\n']) lines
      rw [List.intercalate_splitOn, List.intercalate_splitOn] at isValue
      rw [sameRest, Prod.ext (String.toList_inj.mp isName) (String.toList_inj.mp isValue)]

/-! ### What a signature fixes -/

namespace Message

variable {msg msg' : Message} {fields fields' : List (String × String)} {text : String}

theorem fields?_ends (signed : msg.fields? = some fields) :
    (∃ before, fields = before ++ [("Type", msg.type)]) ∧ '\n' ∉ msg.type.toList ∧
      ∀ field ∈ fields, field.1 ∈ fieldNames := by
  unfold fields? at signed
  split at signed
  · rename_i type
    cases signed
    refine ⟨⟨_, (List.append_assoc _ [_, _] [_]).symm⟩, by rw [type]; decide, ?_⟩
    cases msg.subject <;> simp [fieldNames]
  · split at signed
    · rename_i type
      cases signed
      refine ⟨⟨_, (List.append_assoc [_, _, _, _, _, _] [] [_]).symm⟩, ?_, by simp [fieldNames]⟩
      rcases type with type | type <;> rw [type] <;> decide
    · cases signed

theorem splitOn_canonicalString (accepted : msg.canonicalString = .ok text) :
    ∃ fields, msg.fields? = some fields ∧ text.toList.splitOn '\n' = signedLines fields ++ [[]] := by
  unfold canonicalString at accepted
  split at accepted
  · cases accepted
  · rename_i fields signed
    split at accepted
    · cases accepted
    · cases accepted
      have known := (fields?_ends signed).2.2
      have plainNames : ∀ name ∈ fieldNames, '\n' ∉ name.toList := by decide
      exact ⟨fields, signed, splitOn_signed fun field member => plainNames _ (known field member)⟩

theorem type_eq_of_signedLines (signed : msg.fields? = some fields)
    (signed' : msg'.fields? = some fields')
    (same : signedLines fields = signedLines fields') : msg.type = msg'.type := by
  obtain ⟨⟨before, rfl⟩, plain, -⟩ := fields?_ends signed
  obtain ⟨⟨before', rfl⟩, plain', -⟩ := fields?_ends signed'
  have last := congrArg List.getLast? same
  apply String.toList_inj.mp
  simpa [signedLines, List.splitOn_eq_singleton plain, List.splitOn_eq_singleton plain'] using last

theorem fields?_eq_of_signedLines (signed : msg.fields? = some fields)
    (signed' : msg'.fields? = some fields') (plain : msg.Plain) (plain' : msg'.Plain)
    (same : signedLines fields = signedLines fields') : fields = fields' := by
  have apart {msg : Message} {fields : List (String × String)} (signed : msg.fields? = some fields)
      (plain : msg.Plain) : ∀ field ∈ fields, field.1.toList ∈ fieldNames.map String.toList ∧
        ∀ line ∈ field.2.toList.splitOn '\n', line ∉ fieldNames.map String.toList := by
    intro field member
    refine ⟨List.mem_map_of_mem ((fields?_ends signed).2.2 field member), fun line found isName => ?_⟩
    obtain ⟨name, known, rfl⟩ := List.mem_map.mp isName
    exact plain fields signed field member _ found (by simpa using known)
  exact signedLines_inj (apart signed plain) (apart signed' plain') same

/-- Equal canonical strings have equal types; the other signed fields are equal too where no line of
a signed value reads as the name of a field. -/
theorem canonicalString_determines (accepted : msg.canonicalString = .ok text)
    (accepted' : msg'.canonicalString = .ok text) :
    msg.type = msg'.type ∧ (msg.Plain → msg'.Plain →
      msg.topicArn = msg'.topicArn ∧ msg.message = msg'.message ∧ msg.messageId = msg'.messageId ∧
        msg.timestamp = msg'.timestamp ∧
        if msg.type = "Notification" then msg.subject = msg'.subject
        else msg.subscribeUrl = msg'.subscribeUrl ∧ msg.token = msg'.token) := by
  obtain ⟨fields, signed, lines⟩ := splitOn_canonicalString accepted
  obtain ⟨fields', signed', lines'⟩ := splitOn_canonicalString accepted'
  have same := List.append_cancel_right (lines.symm.trans lines')
  have type := type_eq_of_signedLines signed signed' same
  refine ⟨type, fun plain plain' => ?_⟩
  have sameFields := fields?_eq_of_signedLines signed signed' plain plain' same
  rw [← sameFields, ← signed] at signed'
  unfold fields? at signed' signed
  rw [← type] at signed'
  split_ifs at signed' signed ⊢ with notification confirmation
  · cases subject : msg.subject <;> cases subject' : msg'.subject <;> simp_all
  · simp_all

end Message

namespace Sample

def alert : Message :=
  ⟨"Notification", "b", "arn:aws:sns:us-east-1:1:mail", none, "a\nMessageId\nc",
    "2026-01-01T00:00:00Z", "", ""⟩

/-- The same text, with the line that names the identifier read as the end of the message. -/
def moved : Message := { alert with message := "a", messageId := "c\nMessageId\nb" }

theorem canonicalString_ambiguous : alert.canonicalString = moved.canonicalString ∧
    alert.canonicalString.toOption.isSome ∧ alert.topicArn = moved.topicArn ∧
      alert.message ≠ moved.message ∧ alert.messageId ≠ moved.messageId := by
  decide

def bounce : Message := { alert with message := "bounced" }

/-- Not a signed field of a notification. -/
def relayed : Message := { bounce with token := "t" }

theorem canonicalString_determines_bounce : bounce.Plain ∧ relayed.Plain ∧ bounce.token ≠ relayed.token ∧
    bounce.message = relayed.message ∧ bounce.subject = relayed.subject := by
  have accepted : bounce.canonicalString =
      .ok ("Message\nbounced\nMessageId\nb\nTimestamp\n2026-01-01T00:00:00Z\n" ++
    "TopicArn\narn:aws:sns:us-east-1:1:mail\nType\nNotification\n") := by decide
  have accepted' := (show relayed.canonicalString = bounce.canonicalString from rfl).trans accepted
  have plain : bounce.Plain := by unfold Message.Plain; decide
  have plain' : relayed.Plain := by unfold Message.Plain; decide
  have same := (Message.canonicalString_determines accepted accepted').2 plain plain'
  exact ⟨plain, plain', by decide, same.2.1, same.2.2.2.2⟩

end Sample

end Manyforge.Sns
