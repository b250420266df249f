import Manyforge.Json

/-!
# Automation graphs

The graph of an automation version and the configuration of its nodes. The
validator and the engine each declare the structs they decode; where the two
declarations have the same fields they share one decoder here.
-/
namespace Manyforge

open Json

/-- `Node.Kind`; the strings the code knows, and any other. -/
inductive NodeKind where
  | trigger
  | sendEmail
  | wait
  | condition
  | addTag
  | removeTag
  | exit
  | unknown (kind : String)
  deriving DecidableEq

def NodeKind.text : NodeKind → String
  | trigger => "trigger"
  | sendEmail => "send_email"
  | wait => "wait"
  | condition => "condition"
  | addTag => "add_tag"
  | removeTag => "remove_tag"
  | exit => "exit"
  | unknown kind => kind

def NodeKind.known : NodeKind → Bool
  | unknown _ => false
  | _ => true

structure Node where
  id : String
  kind : NodeKind
  name : String
  config : RawMessage

/-- `Edge`; `source` and `target` are the fields `from` and `to`. -/
structure Edge where
  (id source target : String)
  branch : Option String

structure Graph where
  nodes : List Node
  edges : List Edge

/-! ### Node configurations -/

structure TriggerConfig where
  type : String
  listId : UUID
  (tag name : String)

variable (rt : Runtime)

def TriggerConfig.fields : List (Json.Field TriggerConfig) :=
  [⟨"type", fun c v => (setString c.type v).map fun x => { c with type := x }⟩,
   ⟨"list_id", fun c v => (setUUID rt c.listId v).map fun x => { c with listId := x }⟩,
   ⟨"tag", fun c v => (setString c.tag v).map fun x => { c with tag := x }⟩,
   ⟨"name", fun c v => (setString c.name v).map fun x => { c with name := x }⟩]

def TriggerConfig.decode : RawMessage → Option TriggerConfig :=
  decodeConfig (fields rt) ⟨"", 0, "", ""⟩

/-- The struct of `triggerIdentity`, which has the same fields but ignores others. -/
def TriggerConfig.unmarshal (rt : Runtime) : RawMessage → Option TriggerConfig :=
  Manyforge.unmarshal (fields rt) ⟨"", 0, "", ""⟩

structure SendEmailConfig where
  templateId : UUID
  (trackOpens trackClicks : Option Bool)

def SendEmailConfig.decode : RawMessage → Option SendEmailConfig :=
  decodeConfig
    [⟨"template_id", fun c v => (setUUID rt c.templateId v).map fun x => { c with templateId := x }⟩,
     ⟨"track_opens", fun c v => (setBoolPointer v).map fun x => { c with trackOpens := x }⟩,
     ⟨"track_clicks", fun c v => (setBoolPointer v).map fun x => { c with trackClicks := x }⟩]
    ⟨0, none, none⟩

structure WaitConfig where
  mode : String
  (seconds weekday : Option Int)
  (time timezone : String)

def WaitConfig.decode : RawMessage → Option WaitConfig :=
  decodeConfig
    [⟨"mode", fun c v => (setString c.mode v).map fun x => { c with mode := x }⟩,
     ⟨"seconds", fun c v => (setIntPointer v).map fun x => { c with seconds := x }⟩,
     ⟨"weekday", fun c v => (setIntPointer v).map fun x => { c with weekday := x }⟩,
     ⟨"time", fun c v => (setString c.time v).map fun x => { c with time := x }⟩,
     ⟨"timezone", fun c v => (setString c.timezone v).map fun x => { c with timezone := x }⟩]
    ⟨"", none, none, "", ""⟩

structure TagConfig where
  tag : String

def TagConfig.decode : RawMessage → Option TagConfig :=
  decodeConfig [⟨"tag", fun c v => (setString c.tag v).map TagConfig.mk⟩] ⟨""⟩

/-- The exit node's empty struct accepts no key at all. -/
def decodeExitConfig : RawMessage → Option Unit := decodeConfig [] ()

/-- The condition node's `predicate`, kept as raw JSON; a missing key leaves it empty. -/
def decodePredicate : RawMessage → Option RawMessage :=
  decodeConfig [⟨"predicate", fun _ v => some (.value v false)⟩] .empty

/-- The `type` of a predicate, read with unknown fields allowed. -/
def unmarshalPredicateType : RawMessage → Option String :=
  unmarshal [⟨"type", fun c v => setString c v⟩] ""

structure EngagementPredicate where
  (type nodeId : String)
  url : Option String

/-- The validator's struct for `opened_email`, which has no `url`. -/
def decodeOpenedEmail : RawMessage → Option EngagementPredicate :=
  decodeConfig
    [⟨"type", fun c v => (setString c.type v).map fun x => { c with type := x }⟩,
     ⟨"node_id", fun c v => (setString c.nodeId v).map fun x => { c with nodeId := x }⟩]
    ⟨"", "", none⟩

/-- The validator's struct for `clicked_link`, and the engine's for both engagement types. -/
def EngagementPredicate.decode : RawMessage → Option EngagementPredicate :=
  decodeConfig
    [⟨"type", fun c v => (setString c.type v).map fun x => { c with type := x }⟩,
     ⟨"node_id", fun c v => (setString c.nodeId v).map fun x => { c with nodeId := x }⟩,
     ⟨"url", fun c v => (setStringPointer v).map fun x => { c with url := x }⟩]
    ⟨"", "", none⟩

theorem decodeOpenedEmail_decode {raw : RawMessage} {predicate : EngagementPredicate}
    (decoded : decodeOpenedEmail raw = some predicate) :
    EngagementPredicate.decode raw = some predicate :=
  decodeConfig_append (by decide) decoded

structure TagPredicate where
  (type tag : String)

/-- The struct has no JSON tags, so its keys are the Go field names. -/
def TagPredicate.decode : RawMessage → Option TagPredicate :=
  decodeConfig
    [⟨"Type", fun c v => (setString c.type v).map fun x => { c with type := x }⟩,
     ⟨"Tag", fun c v => (setString c.tag v).map fun x => { c with tag := x }⟩]
    ⟨"", ""⟩

structure ListPredicate where
  type : String
  listId : UUID

def ListPredicate.decode : RawMessage → Option ListPredicate :=
  decodeConfig
    [⟨"type", fun c v => (setString c.type v).map fun x => { c with type := x }⟩,
     ⟨"list_id", fun c v => (setUUID rt c.listId v).map fun x => { c with listId := x }⟩]
    ⟨"", 0⟩

structure EventPredicate where
  (type name : String)
  withinSeconds : Option Int

def EventPredicate.decode : RawMessage → Option EventPredicate :=
  decodeConfig
    [⟨"type", fun c v => (setString c.type v).map fun x => { c with type := x }⟩,
     ⟨"name", fun c v => (setString c.name v).map fun x => { c with name := x }⟩,
     ⟨"within_seconds", fun c v => (setIntPointer v).map fun x => { c with withinSeconds := x }⟩]
    ⟨"", "", none⟩

end Manyforge
