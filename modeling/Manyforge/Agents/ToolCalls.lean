import Manyforge.Connectors.Keys
import Manyforge.Lib.Transition

/-!
# Redelivered tool calls

The executor runs the tool of an approved item once for each delivery of the item's event, and a
delivery that is lost after the tool call is followed by another one. Each tool has its own guard: a
reply and a note carry the item's id as a unique key, a transition is not queued while the same
transition is in flight, and the external comment of `add_external_comment` is queued with no guard
at all.
-/
namespace Manyforge.Agents

open Table Transition Connectors

inductive WriteTool where
  | draftReply | addExternalComment | transitionExternalStatus
  deriving DecidableEq

/-- The call of an approved item. `text` is `body_text` or `status`. -/
structure ApprovedCall where
  item : UUID
  tool : WriteTool
  (businessId ticketId : UUID)
  text : String

/-- The tables, and what the deliveries of the item have created so far. -/
structure Executing where
  desk : Desk
  messages : List Direction
  ops : List OpType

inductive ExecutionAction where
  /-- A delivery runs the tool; of `add_external_comment`, the note's transaction. -/
  | call (now : Timestamp) (refused : Option DeskError)
  /-- A delivery of `add_external_comment` goes on from the note it has got. -/
  | enqueue (now : Timestamp)
  | claim (limit : Nat) (lease now : Timestamp) (passedOver : List UUID)
  | completeComment (op messageId : UUID) (link : Link) (now : Timestamp)
  | completeCreate (op ticketId : UUID) (link : Link) (now : Timestamp)
  | completeTransition (op : UUID) (now : Timestamp)
  | fail (op : UUID) (terminal : Bool) (now : Timestamp)

namespace ApprovedCall

variable (call : ApprovedCall) (d : Desk)

def invoke (now : Timestamp) (refused : Option DeskError) : Desk :=
  if trimSpace call.text = "" then d
  else
    match call.tool with
    | .draftReply =>
      (d.reply call.businessId call.ticketId call.text ⟨some call.item, now, refused⟩).toOption.elim
        d (·.2)
    | .addExternalComment =>
      (d.addNote call.businessId call.ticketId call.text
        ⟨some call.item, now, refused⟩).toOption.elim d (·.2)
    | .transitionExternalStatus =>
      (d.enqueueTransition call.ticketId call.businessId call.text now).toOption.getD d

def note? : Option Message :=
  if call.tool = .addExternalComment then d.messageByApproval call.item call.businessId else none

/-- The second transaction of `add_external_comment`. -/
def enqueue (now : Timestamp) : Desk :=
  match call.note? d with
  | none => d
  | some note =>
    (d.enqueueComment call.ticketId note.id call.businessId call.text now).toOption.getD d

end ApprovedCall

namespace Executing

variable (call : ApprovedCall)

def record (s : Executing) (d : Desk) : Executing :=
  { desk := d
    messages := s.messages ++ (d.messages.drop s.desk.messages.length).map (·.direction)
    ops := s.ops ++ (d.ops.drop s.desk.ops.length).map (·.opType) }

def next (s : Executing) : ExecutionAction → Executing
  | .call now refused => s.record (call.invoke s.desk now refused)
  | .enqueue now => s.record (call.enqueue s.desk now)
  | .claim limit lease now passedOver =>
    { s with desk := (s.desk.claim limit lease now passedOver).2 }
  | .completeComment op messageId link now =>
    { s with desk := (s.desk.completeOutboundComment op messageId link now).getD s.desk }
  | .completeCreate op ticketId link now =>
    { s with desk := (s.desk.completeOutboundCreate op ticketId link now).getD s.desk }
  | .completeTransition op now => { s with desk := s.desk.completeOutboundTransition op now }
  | .fail op terminal now => { s with desk := s.desk.failOutboundOp op terminal now }

/-- At most one message of each direction and one operation of each kind. -/
def Single (s : Executing) : Prop := s.messages.Nodup ∧ s.ops.Nodup
  deriving Decidable

/-- A comment is only queued while the item has none, and a transition only while the item has none
or it is in flight. -/
def Unqueued (s : Executing) : ExecutionAction → Prop
  | .enqueue _ =>
    (call.note? s.desk).isSome → (s.desk.linkedTicket call.ticketId call.businessId).isSome →
      .comment ∉ s.ops
  | .call _ _ =>
    trimSpace call.text ≠ "" → call.tool = .transitionExternalStatus →
      (s.desk.linkedTicket call.ticketId call.businessId).isSome →
      s.desk.inFlight call.ticketId call.text = false → .transition ∉ s.ops
  | _ => True

instance (s : Executing) (action : ExecutionAction) : Decidable (Unqueued call s action) := by
  cases action <;> dsimp only [Unqueued] <;> infer_instance

/-- Once a reply or a note is there, the key finds it; before, the item has created nothing. -/
structure Inv (s : Executing) : Prop where
  keyed : s.desk.Keyed
  found : call.tool ≠ .transitionExternalStatus →
    (∃ m ∈ s.desk.messages, m.sourceApprovalItemId = some call.item ∧
      m.businessId = call.businessId) ∨ (s.messages = [] ∧ s.ops = [])

variable {call} {s : Executing}

@[simp]
theorem record_self (s : Executing) : s.record s.desk = s := by
  simp [record]

theorem record_addOp (s : Executing) (op : OutboundOp) :
    s.record (s.desk.addOp op) = { s with desk := s.desk.addOp op, ops := s.ops ++ [op.opType] } := by
  simp [record, Desk.addOp]

theorem record_written (s : Executing) (t : Ticket) (internal : Bool) (m : Message)
    (now : Timestamp) :
    s.record (s.desk.written t internal m now) =
      { desk := s.desk.written t internal m now
        messages := s.messages ++ [m.direction]
        ops := s.ops ++ t.link.toList.map fun _ => .comment } := by
  simp [record, Desk.written, Desk.newOp, Function.comp_def]

/-! ### The tools -/

/-- What a reply or a note of the item does: nothing, or all that the item has created so far. -/
theorem Inv.write (inv : Inv call s) (writes : call.tool ≠ .transitionExternalStatus)
    {direction : Direction}
    {internal : Bool} {now : Timestamp} {refused : Option DeskError} {m : Message} {d : Desk}
    (ok : s.desk.write direction internal call.businessId call.ticketId call.text
      ⟨some call.item, now, refused⟩ = .ok (m, d)) :
    Inv call (s.record d) ∧ (s.record d = s ∨
      (s.record d).messages = [direction] ∧
        ∃ link : Option Link, (s.record d).ops = link.toList.map fun _ => .comment) := by
  have keyed := inv.keyed.write ok
  rcases Desk.write_ok inv.keyed.ticketIds ok with ⟨rfl, -⟩ | ⟨rfl, free, t, -, rfl⟩
  · rw [record_self]
    exact ⟨inv, .inl rfl⟩
  · -- The key is free, so there is no message of the item yet.
    obtain ⟨noMessages, noOps⟩ := (inv.found writes).resolve_left fun ⟨m, isMessage, key, _⟩ =>
      free call.item rfl m isMessage key
    rw [record_written, noMessages, noOps]
    refine ⟨⟨keyed, fun _ => .inl ?_⟩, .inr ⟨rfl, t.link, rfl⟩⟩
    exact ⟨_, List.mem_concat_self, rfl, rfl⟩

theorem nodup_comments (link : Option Link) : (link.toList.map fun _ => OpType.comment).Nodup := by
  cases link <;> simp

theorem Inv.write_single (inv : Inv call s) (single : s.Single)
    (writes : call.tool ≠ .transitionExternalStatus)
    (direction : Direction) (internal : Bool) (now : Timestamp) (refused : Option DeskError) :
    let result := s.desk.write direction internal call.businessId call.ticketId call.text
      ⟨some call.item, now, refused⟩
    Inv call (s.record (result.toOption.elim s.desk (·.2))) ∧
      (s.record (result.toOption.elim s.desk (·.2))).Single := by
  intro result
  cases ok : result with
  | error _ => simpa [Except.toOption] using ⟨inv, single⟩
  | ok pair =>
    obtain ⟨m, d⟩ := pair
    obtain ⟨kept, same | ⟨messages, link, ops⟩⟩ := inv.write writes ok
    · exact ⟨kept, by simpa [Except.toOption, same] using single⟩
    · refine ⟨kept, ?_⟩
      simp only [Except.toOption, Option.elim_some, Single, messages, ops]
      exact ⟨List.nodup_singleton _, nodup_comments link⟩

/-- The second transaction of `add_external_comment` queues a comment whenever it can. -/
theorem enqueue_cases (call : ApprovedCall) (d : Desk) (now : Timestamp) :
    (call.enqueue d now = d ∧
      ¬ ((call.note? d).isSome ∧ (d.linkedTicket call.ticketId call.businessId).isSome)) ∨
    ((call.note? d).isSome ∧ (d.linkedTicket call.ticketId call.businessId).isSome ∧
      ∃ op : OutboundOp, op.id = freshKey (d.ops.map (·.id)) ∧ op.opType = .comment ∧
        call.enqueue d now = d.addOp op) := by
  unfold ApprovedCall.enqueue
  cases noted : call.note? d with
  | none => exact .inl ⟨rfl, by simp⟩
  | some note =>
    cases linked : d.linkedTicket call.ticketId call.businessId with
    | none => exact .inl ⟨by simp [Desk.enqueueComment, linked, Except.toOption], by simp⟩
    | some pair =>
      refine .inr ⟨rfl, rfl,
        d.newOp call.businessId call.ticketId pair.2.connectorId (some note.id) .comment
        call.text false now, rfl, rfl, ?_⟩
      simp only [Desk.enqueueComment, linked, Option.isNone_some, Bool.false_eq_true, ↓reduceIte,
        Except.toOption, Option.getD_some]
      exact Desk.enqueueOutboundComment_some linked _ _ _ _

/-- `transition_external_status` queues a transition unless the same one is in flight. -/
theorem transition_cases (isTransition : call.tool = .transitionExternalStatus) (d : Desk)
    (now : Timestamp) (refused : Option DeskError) :
    (call.invoke d now refused = d ∧
      ¬ (trimSpace call.text ≠ "" ∧ (d.linkedTicket call.ticketId call.businessId).isSome ∧
        d.inFlight call.ticketId call.text = false)) ∨
    (trimSpace call.text ≠ "" ∧ (d.linkedTicket call.ticketId call.businessId).isSome ∧
      d.inFlight call.ticketId call.text = false ∧
      ∃ op : OutboundOp, op.id = freshKey (d.ops.map (·.id)) ∧ op.opType = .transition ∧
        call.invoke d now refused = d.addOp op) := by
  unfold ApprovedCall.invoke
  by_cases blank : trimSpace call.text = ""
  · exact .inl ⟨if_pos blank, fun ⟨text, _⟩ => text blank⟩
  rw [if_neg blank, isTransition]
  cases linked : d.linkedTicket call.ticketId call.businessId with
  | none => exact .inl ⟨by simp [Desk.enqueueTransition, linked, Except.toOption], by simp⟩
  | some pair =>
    simp only [Desk.enqueueTransition, linked, Option.isNone_some, Bool.false_eq_true, ↓reduceIte,
      Except.toOption, Option.getD_some]
    rw [Desk.enqueueOutboundTransition_some linked]
    cases flying : d.inFlight call.ticketId call.text with
    | true => exact .inl ⟨rfl, by simp⟩
    | false => exact .inr ⟨blank, rfl, rfl, _, rfl, rfl, rfl⟩

/-! ### Steps -/

theorem Inv.addOp (inv : Inv call s)
    (found : call.tool ≠ .transitionExternalStatus → (call.note? s.desk).isSome)
    {op : OutboundOp} (generated : op.id = freshKey (s.desk.ops.map (·.id))) :
    Inv call (s.record (s.desk.addOp op)) := by
  rw [record_addOp]
  refine ⟨inv.keyed.addOp generated, fun writes => .inl ?_⟩
  obtain ⟨note, isNote⟩ := Option.isSome_iff_exists.mp (found writes)
  unfold ApprovedCall.note? at isNote
  split at isNote
  · exact ⟨note, Desk.messageByApproval_some isNote⟩
  · cases isNote

theorem Inv.dispatched (inv : Inv call s) {d : Desk} (keyed : d.Keyed)
    (kept : ∀ m ∈ s.desk.messages, ∃ m' ∈ d.messages, m'.sourceApprovalItemId =
      m.sourceApprovalItemId ∧ m'.businessId = m.businessId) : Inv call { s with desk := d } := by
  refine ⟨keyed, fun writes => (inv.found writes).imp_left ?_⟩
  rintro ⟨m, isMessage, key, business⟩
  obtain ⟨m', isMessage', key', business'⟩ := kept m isMessage
  exact ⟨m', isMessage', key'.trans key, business'.trans business⟩

theorem Inv.next (inv : Inv call s) (single : s.Single) (action : ExecutionAction) :
    Inv call (Executing.next call s action) := by
  cases action with
  | call now refused =>
    simp only [Executing.next]
    by_cases isTransition : call.tool = .transitionExternalStatus
    · obtain ⟨same, -⟩ | ⟨-, -, -, op, generated, -, added⟩ :=
        transition_cases isTransition s.desk now refused
      · rwa [same, record_self]
      · rw [added]
        exact inv.addOp (fun writes => absurd isTransition writes) generated
    · unfold ApprovedCall.invoke
      split
      · rwa [record_self]
      cases tool : call.tool with
      | draftReply => exact (inv.write_single single isTransition .outbound false now refused).1
      | addExternalComment => exact (inv.write_single single isTransition .note true now refused).1
      | transitionExternalStatus => exact absurd tool isTransition
  | enqueue now =>
    simp only [Executing.next]
    obtain ⟨same, -⟩ | ⟨noted, -, op, generated, -, added⟩ := enqueue_cases call s.desk now
    · rwa [same, record_self]
    · rw [added]
      exact inv.addOp (fun _ => noted) generated
  | claim limit lease now passedOver =>
    exact inv.dispatched (inv.keyed.claim limit lease now passedOver) fun m isMessage =>
      ⟨m, isMessage, rfl, rfl⟩
  | completeComment op messageId link now =>
    simp only [Executing.next]
    cases ok : s.desk.completeOutboundComment op messageId link now with
    | none => exact inv
    | some d =>
      refine inv.dispatched (inv.keyed.completeOutboundComment ok) fun m isMessage => ?_
      obtain ⟨-, rfl⟩ := Desk.completeOutboundComment_some ok
      refine ⟨_, List.mem_map_of_mem isMessage, ?_⟩
      split <;> exact ⟨rfl, rfl⟩
  | completeCreate op ticketId link now =>
    simp only [Executing.next]
    cases ok : s.desk.completeOutboundCreate op ticketId link now with
    | none => exact inv
    | some d =>
      refine inv.dispatched (inv.keyed.completeOutboundCreate ok) fun m isMessage => ⟨m, ?_, rfl, rfl⟩
      obtain ⟨-, rfl⟩ := Desk.completeOutboundCreate_some ok
      exact isMessage
  | completeTransition op now | fail op terminal now =>
    exact inv.dispatched (inv.keyed.updateOp op fun _ => rfl) fun m isMessage => ⟨m, isMessage, rfl, rfl⟩

/-- A call stays single exactly when nothing is queued a second time. -/
theorem Inv.single_iff (inv : Inv call s) (single : s.Single) (action : ExecutionAction) :
    (Executing.next call s action).Single ↔ Unqueued call s action := by
  cases action with
  | call now refused =>
    simp only [Executing.next, Unqueued]
    by_cases isTransition : call.tool = .transitionExternalStatus
    · obtain ⟨same, idle⟩ | ⟨text, linked, fresh, op, -, isType, added⟩ :=
        transition_cases isTransition s.desk now refused
      · rw [same, record_self]
        exact iff_of_true single fun text _ linked fresh => absurd ⟨text, linked, fresh⟩ idle
      · rw [added, record_addOp]
        refine (and_iff_right single.1).trans ?_
        rw [isType, ← List.concat_eq_append, List.nodup_concat, and_iff_left single.2]
        simp [text, isTransition, linked, fresh]
    · refine iff_of_true ?_ fun _ tool => absurd tool isTransition
      unfold ApprovedCall.invoke
      split
      · rwa [record_self]
      cases tool : call.tool with
      | draftReply => exact (inv.write_single single isTransition .outbound false now refused).2
      | addExternalComment => exact (inv.write_single single isTransition .note true now refused).2
      | transitionExternalStatus => exact absurd tool isTransition
  | enqueue now =>
    simp only [Executing.next, Unqueued]
    obtain ⟨same, idle⟩ | ⟨noted, linked, op, -, isType, added⟩ := enqueue_cases call s.desk now
    · rw [same, record_self]
      exact iff_of_true single fun noted linked => absurd ⟨noted, linked⟩ idle
    · rw [added, record_addOp]
      refine (and_iff_right single.1).trans ?_
      rw [isType, ← List.concat_eq_append, List.nodup_concat, and_iff_left single.2]
      simp [noted, linked]
  | claim | completeComment | completeCreate | completeTransition | fail =>
    exact iff_of_true single trivial

/-! ### Runs -/

/-- For every tool, however often the event is delivered and whatever the dispatcher does in
between: each message and each kind of operation is created at most once for the item, exactly when
no delivery queues a comment or a transition again. -/
theorem tool_calls_iff (call : ApprovedCall) {d : Desk} (keyed : d.Keyed)
    (actions : List ExecutionAction) :
    Along (next call) (fun s action => (next call s action).Single) ⟨d, [], []⟩ actions ↔
      Along (next call) (Unqueued call) ⟨d, [], []⟩ actions := by
  have decided (s : Executing) (action : ExecutionAction) (inv : Inv call s ∧ s.Single) :
      (Executing.next call s action).Single ↔ Unqueued call s action := inv.1.single_iff inv.2 action
  have kept (s : Executing) (action : ExecutionAction) (inv : Inv call s ∧ s.Single)
      (unqueued : Unqueued call s action) :
      Inv call (Executing.next call s action) ∧ (Executing.next call s action).Single :=
    ⟨inv.1.next inv.2 action, (decided s action inv).mpr unqueued⟩
  have start : Inv call ⟨d, [], []⟩ := ⟨keyed, fun _ => .inr ⟨rfl, rfl⟩⟩
  exact Along.iff_of_cond decided kept ⟨start, List.nodup_nil, List.nodup_nil⟩

end Executing

open Executing

namespace Sample

def approvedReply : ApprovedCall := ⟨9, .draftReply, 7, 1, "On our way"⟩

def approvedComment : ApprovedCall := ⟨9, .addExternalComment, 7, 1, "On our way"⟩

def approvedTransition : ApprovedCall := ⟨9, .transitionExternalStatus, 7, 1, "done"⟩

/-- A reply is delivered twice, with the dispatcher in between. -/
theorem reply_redelivered :
    Desk.Keyed Connectors.Sample.linkedDesk ∧
      Along (next approvedReply) (fun s action =>
        (next approvedReply s action).Single)
        ⟨Connectors.Sample.linkedDesk, [], []⟩
          [.call 1 none, .claim 20 300 2 [], .completeComment 1 1 ⟨5, "10"⟩ 3, .call 4 none] :=
  ⟨by decide +kernel,
    (tool_calls_iff approvedReply (by decide +kernel) _).mpr (by decide +kernel)⟩

/-- One delivery of `add_external_comment` already queues two comments; and a transition that the
dispatcher has finished is queued again by the next delivery. -/
theorem queued_again :
    Desk.Keyed Connectors.Sample.linkedDesk ∧
      ¬ Along (next approvedComment) (fun s action =>
        (next approvedComment s action).Single)
        ⟨Connectors.Sample.linkedDesk, [], []⟩ [.call 1 none, .enqueue 2] ∧
      ¬ Along (next approvedTransition)
        (fun s action => (next approvedTransition s action).Single)
          ⟨Connectors.Sample.linkedDesk, [], []⟩
        [.call 1 none, .claim 20 300 2 [], .completeTransition 1 3, .call 4 none] := by
  decide +kernel

end Sample

end Manyforge.Agents
