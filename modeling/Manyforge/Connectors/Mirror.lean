import Manyforge.Connectors.Keys
import Manyforge.Lib.Locks
import Manyforge.Lib.Transition

/-!
# Mirroring messages as external comments

On a linked ticket a reply is to become a requester-visible comment of the issue and a note an
internal one. `add_external_comment` is to post its text requester-visible; it records the text as a
note first, and the note queues an internal comment of its own. The dispatcher posts one comment for
a message, that of the operation it comes to first.

One dispatcher works the queue, in any order; each dispatch is one step here, from the claim to the
write-back.
-/
namespace Manyforge.Connectors

open Table Transition Desk

structure Posted where
  messageId : UUID
  internal : Bool
  body : String
  deriving DecidableEq

structure Mirroring where
  desk : Desk
  /-- The messages that were written in this run. -/
  written : List UUID
  /-- The notes of `add_external_comment` calls that have yet to queue their comment. -/
  calls : List Message
  agentNotes : List UUID
  posted : List Posted

inductive MirrorAction where
  | reply (businessId ticketId : UUID) (body : String) (now : Timestamp) (refused : Option DeskError)
  | note (businessId ticketId : UUID) (body : String) (now : Timestamp) (refused : Option DeskError)
  /-- The first transaction of `add_external_comment`. -/
  | agentNote (businessId ticketId : UUID) (body : String) (now : Timestamp) (refused : Option DeskError)
  /-- The second transaction of `add_external_comment`. -/
  | agentEnqueue (note : UUID) (now : Timestamp)
  /-- The dispatch of a pending operation; a new comment gets this id upstream. -/
  | dispatch (op : UUID) (externalId : String) (now : Timestamp)

namespace Mirroring

/-- Upstream, a new comment gets an id that no other comment has. -/
def freshUpstream (s : Mirroring) (link : Link) : Bool :=
  link.externalId != "" && !s.desk.messages.any (·.link == some link)

def dispatch (s : Mirroring) (op : OutboundOp) (externalId : String) (now : Timestamp) :
    Mirroring :=
  let d := s.desk.updateOp op.id (·.claimed now)
  match s.desk.commentStep op with
  | .error => { s with desk := d.recordFailure (op.claimed now) now }
  | .repeated messageId existing =>
    { s with desk := d.completeComment (op.claimed now) messageId ⟨op.connectorId, existing⟩ now }
  | .post messageId =>
    if s.freshUpstream ⟨op.connectorId, externalId⟩ then
      { s with
        desk := d.completeComment (op.claimed now) messageId ⟨op.connectorId, externalId⟩ now
        posted := s.posted ++ [⟨messageId, op.internal, op.body.getD ""⟩] }
    else s

def pending? (s : Mirroring) (op : UUID) : Option OutboundOp :=
  s.desk.ops.find? fun row => row.id == op && row.status == .pending

def call? (s : Mirroring) (note : UUID) : Option Message := s.calls.find? (·.id == note)

def wrote (s : Mirroring) (result : Except DeskError (Message × Desk)) : Mirroring :=
  match result with
  | .error _ => s
  | .ok (m, d) => { s with desk := d, written := s.written ++ [m.id] }

def next (s : Mirroring) : MirrorAction → Mirroring
  | .reply businessId ticketId body now refused =>
    s.wrote (s.desk.reply businessId ticketId body ⟨none, now, refused⟩)
  | .note businessId ticketId body now refused =>
    s.wrote (s.desk.addNote businessId ticketId body ⟨none, now, refused⟩)
  | .agentNote businessId ticketId body now refused =>
    if trimSpace body = "" then s
    else
      match s.desk.addNote businessId ticketId body ⟨none, now, refused⟩ with
      | .error _ => s
      | .ok (m, d) =>
        { s with
          desk := d
          written := s.written ++ [m.id]
          calls := s.calls ++ [m]
          agentNotes := s.agentNotes ++ [m.id] }
  | .agentEnqueue note now =>
    match s.call? note with
    | none => s
    | some m =>
      { s with
        desk := (s.desk.enqueueComment m.ticketId m.id m.businessId m.body now).toOption.getD s.desk
        calls := s.calls.filter (·.id != note) }
  | .dispatch op externalId now =>
    match s.pending? op with
    | none => s
    | some row => s.dispatch row externalId now

def linked (s : Mirroring) (m : Message) : Bool :=
  (s.desk.linkedTicket m.ticketId m.businessId).isSome

/-- A note is meant to be internal, but not the note of an `add_external_comment` call; a reply is
meant to be requester-visible. -/
def meantInternal (s : Mirroring) (m : Message) : Bool :=
  m.direction == .note && !s.agentNotes.contains m.id

/-- Each message has one comment upstream, with the visibility it is meant to have. -/
@[mk_iff]
structure Mirrored (s : Mirroring) : Prop where
  flags : ∀ a ∈ s.desk.ops, ∀ b ∈ s.desk.ops, a.messageId = b.messageId → a.internal = b.internal
  queued : ∀ m ∈ s.desk.messages, m.id ∈ s.written → s.linked m →
    ∃ op ∈ s.desk.ops, op.messageId = some m.id
  delivered : ∀ op ∈ s.desk.ops, op.status = .pending ∨
    op.status = .done ∧ ∃ p ∈ s.posted, op.messageId = some p.messageId
  once : UniqueOn Posted.messageId s.posted
  visibility : ∀ p ∈ s.posted, ∀ m ∈ s.desk.messages, m.id = p.messageId →
    p.internal = s.meantInternal m ∧ p.body = m.body

/-- No `add_external_comment` call queues its comment on a linked ticket, and the comment of its
note is not posted. -/
def Agreeing (s : Mirroring) : MirrorAction → Prop
  | .agentEnqueue note _ => ∀ m ∈ s.call? note, s.linked m = false
  | .dispatch op externalId _ =>
    ∀ row ∈ s.pending? op, s.freshUpstream ⟨row.connectorId, externalId⟩ →
      ∀ messageId, s.desk.commentStep row = .post messageId → messageId ∉ s.agentNotes
  | _ => True

instance (s : Mirroring) : Decidable (Mirrored s) := decidable_of_iff' _ (mirrored_iff s)

instance (agents : List UUID) :
    (step : CommentStep) → Decidable (∀ messageId, step = .post messageId → messageId ∉ agents)
  | .post posted =>
    decidable_of_iff (posted ∉ agents)
      ⟨fun own _ same => CommentStep.post.inj same ▸ own, fun own => own posted rfl⟩
  | .error | .repeated _ _ => isTrue nofun

instance (s : Mirroring) (action : MirrorAction) : Decidable (s.Agreeing action) := by
  cases action <;> dsimp only [Agreeing] <;> infer_instance

/-! ### The invariant -/

/-- A message after it was stamped with the comment that was posted for it. -/
structure Later (posted : List Posted) (m m' : Message) : Prop where
  id : m'.id = m.id
  body : m'.body = m.body
  direction : m'.direction = m.direction
  stays : m.link.isSome → m'.link.isSome
  stamp : ∀ link, m'.link = some link → m.link = some link ∨
    link.externalId ≠ "" ∧ m.id ∈ posted.map (·.messageId)

/-- An operation, its ticket and its message. -/
def Row (d : Desk) (posted : List Posted) (op : OutboundOp) : Prop :=
  (op.status = .pending ∨ op.status = .done) ∧
    (∃ issue, d.ticketExternalId op.ticketId = some issue ∧ issue ≠ "") ∧
    ∃ m ∈ d.messages, op.messageId = some m.id ∧ op.body = some m.body ∧
      op.internal = (m.direction == .note) ∧ (op.status = .done → m.link.isSome) ∧
      ∀ link, m.link = some link → link.externalId ≠ "" ∧ m.id ∈ posted.map (·.messageId)

structure Inv (s : Mirroring) : Prop where
  keyed : s.desk.Keyed
  named : ∀ t ∈ s.desk.tickets, ∀ link, t.link = some link → link.externalId ≠ ""
  rows : ∀ op ∈ s.desk.ops, Row s.desk s.posted op
  queued : ∀ m ∈ s.desk.messages, m.id ∈ s.written → s.linked m →
    ∃ op ∈ s.desk.ops, op.messageId = some m.id
  posts : ∀ p ∈ s.posted, ∃ m ∈ s.desk.messages, m.id = p.messageId ∧ m.link.isSome ∧
    m.id ∉ s.agentNotes ∧ p.internal = (m.direction == .note) ∧ p.body = m.body
  once : UniqueOn Posted.messageId s.posted
  agents : ∀ id ∈ s.agentNotes, ∃ m ∈ s.desk.messages, m.id = id ∧ m.direction = .note
  calls : ∀ m ∈ s.calls, s.linked m →
    ∃ op ∈ s.desk.ops, op.messageId = some m.id ∧ op.internal = true

variable {s : Mirroring}

theorem Inv.mirrored (inv : s.Inv) : Mirrored s := by
  refine ⟨fun a isA b isB same => ?_, inv.queued, fun op isOp =>
    ?_, inv.once, fun p isPosted m isMessage same => ?_⟩
  · obtain ⟨-, -, m, isMessage, isId, -, internal, -⟩ := inv.rows a isA
    obtain ⟨-, -, m', isMessage', isId', -, internal', -⟩ := inv.rows b isB
    obtain rfl := inv.keyed.messageIds.eq_of_key isMessage isMessage'
      (Option.some.inj ((isId.symm.trans same).trans isId'))
    rw [internal, internal']
  · obtain ⟨status, -, m, -, isId, -, -, stamped, onPost⟩ := inv.rows op isOp
    refine status.imp id fun done => ⟨done, ?_⟩
    obtain ⟨link, isLink⟩ := Option.isSome_iff_exists.mp (stamped done)
    obtain ⟨p, isPosted, same⟩ := List.mem_map.mp (onPost link isLink).2
    exact ⟨p, isPosted, by rw [isId, same]⟩
  · obtain ⟨m', isMessage', same', -, own, internal, body⟩ := inv.posts p isPosted
    obtain rfl := inv.keyed.messageIds.eq_of_key isMessage' isMessage (same'.trans same.symm)
    exact ⟨by simp [meantInternal, internal, own], body⟩

variable {d : Desk} {op : OutboundOp} {m : Message} {now : Timestamp} {link : Link}

theorem Row.later {d' : Desk} {posted posted' : List Posted} (row : Row d posted op)
    (tickets : d'.ticketExternalId op.ticketId = d.ticketExternalId op.ticketId)
    (messages : ∀ m ∈ d.messages, ∃ m' ∈ d'.messages, Later posted' m m')
    (more : ∀ p ∈ posted, p ∈ posted') : Row d' posted' op := by
  obtain ⟨status, issue, m, isMessage, isId, body, internal, stamped, onPost⟩ := row
  obtain ⟨m', isMessage', later⟩ := messages m isMessage
  refine ⟨status, by rwa [tickets], m', isMessage', by rw [isId, later.id],
    by rw [body, later.body],
    by rw [internal, later.direction], fun done => later.stays (stamped done), fun link isLink => ?_⟩
  rw [later.id]
  refine (later.stamp link isLink).elim (fun old => ?_) id
  obtain ⟨name, isPosted⟩ := onPost link old
  exact ⟨name, List.map_subset _ (fun p => more p) isPosted⟩

theorem Later.refl (posted : List Posted) (m : Message) : Later posted m m :=
  ⟨rfl, rfl, rfl, fun stays => stays, fun _ => .inl⟩

/-! ### Writing -/

theorem Inv.written (inv : s.Inv) {businessId ticketId : UUID} {t : Ticket}
    (found : s.desk.getTicket ticketId businessId = some t) (direction : Direction) (body : String)
    (now : Timestamp) (isNew : m =
      ⟨freshKey (s.desk.messages.map (·.id)), ticketId, businessId, direction, body, none, none⟩) :
    Inv { s with
      desk := s.desk.written t (direction == .note) m now
      written := s.written ++ [m.id] } := by
  subst isNew
  obtain ⟨isTicket, rfl, rfl, -⟩ := getTicket_some found
  have old (op : OutboundOp) (isOp : op ∈ s.desk.ops) :
      op ∈
        (s.desk.written t (direction == .note)
        ⟨freshKey (s.desk.messages.map (·.id)), t.id, t.businessId,
        direction, body, none, none⟩ now).ops := List.mem_append_left _ isOp
  refine ⟨inv.keyed.written rfl rfl (by simp) t _ now, fun u isTicket link isLink =>
    ?_, fun op isOp => ?_,
    fun m isMessage isWritten linked => ?_, fun p isPosted => ?_, inv.once, fun id isAgent => ?_,
    fun m isCall linked => ?_⟩
  · obtain ⟨u', isTicket', same⟩ := link_of_mem_written isTicket
    exact inv.named u' isTicket' link (same.trans isLink)
  · rcases List.mem_append.mp isOp with isOld | isNew
    · refine (inv.rows op isOld).later (ticketExternalId_written ..) (fun m isMessage => ?_) fun _ => id
      exact ⟨m, List.mem_append_left _ isMessage, .refl _ m⟩
    · obtain ⟨link, isLink, rfl⟩ := List.mem_map.mp isNew
      have isLink : t.link = some link := by simpa using isLink
      refine ⟨.inl rfl, ⟨link.externalId, ?_, inv.named t isTicket link isLink⟩, _,
        List.mem_concat_self, rfl, rfl, rfl, nofun, nofun⟩
      exact (ticketExternalId_written ..).trans
        ((ticketExternalId_of_mem inv.keyed.ticketIds isTicket).trans (by simp [isLink]))
  · simp only [Mirroring.linked, linkedTicket_written_isSome] at linked
    rcases mem_inserted.mp isMessage with isOld | rfl
    · rcases List.mem_append.mp isWritten with before | now
      · obtain ⟨op, isOp, isId⟩ := inv.queued m isOld before linked
        exact ⟨op, old op isOp, isId⟩
      · refine absurd ?_ (freshKey_notMem (s.desk.messages.map (·.id)))
        have same : m.id = freshKey (s.desk.messages.map (·.id)) := List.mem_singleton.mp now
        exact same ▸ List.mem_map_of_mem isOld
    · obtain ⟨⟨u, link⟩, isLinked⟩ := Option.isSome_iff_exists.mp linked
      obtain ⟨isTicket', same, -, isLink⟩ := linkedTicket_some isLinked
      obtain rfl := inv.keyed.ticketIds.eq_of_key isTicket' isTicket same
      refine ⟨_, List.mem_append_right _ (List.mem_map.mpr ⟨link, by simp [isLink], rfl⟩), rfl⟩
  · obtain ⟨m, isMessage, rest⟩ := inv.posts p isPosted
    exact ⟨m, List.mem_append_left _ isMessage, rest⟩
  · obtain ⟨m, isMessage, rest⟩ := inv.agents id isAgent
    exact ⟨m, List.mem_append_left _ isMessage, rest⟩
  · simp only [Mirroring.linked, linkedTicket_written_isSome] at linked
    obtain ⟨op, isOp, rest⟩ := inv.calls m isCall linked
    exact ⟨op, old op isOp, rest⟩

theorem Inv.agent (inv : s.Inv) (isMessage : m ∈ s.desk.messages) (isWritten : m.id ∈ s.written)
    (isNote : m.direction = .note) (unlinked : m.link = none) :
    Inv { s with calls := s.calls ++ [m], agentNotes := s.agentNotes ++ [m.id] } := by
  refine { inv with posts := fun p isPosted => ?_, agents := ?_, calls := ?_ }
  · obtain ⟨m', isMessage', same, stamped, own, internal⟩ := inv.posts p isPosted
    refine ⟨m', isMessage', same, stamped, ?_, internal⟩
    rw [List.mem_append, List.mem_singleton]
    rintro (agent | new)
    · exact own agent
    · obtain rfl := inv.keyed.messageIds.eq_of_key isMessage' isMessage new
      simp [unlinked] at stamped
  · refine forall_inserted inv.agents ⟨m, isMessage, rfl, isNote⟩
  · refine forall_inserted inv.calls fun linked => ?_
    obtain ⟨op, isOp, isId⟩ := inv.queued m isMessage isWritten linked
    obtain ⟨-, -, m', isMessage', isId', -, internal, -⟩ := inv.rows op isOp
    obtain rfl := inv.keyed.messageIds.eq_of_key isMessage' isMessage
      (Option.some.inj (isId'.symm.trans isId))
    exact ⟨op, isOp, isId, by rw [internal, isNote]; rfl⟩

theorem Inv.write (inv : s.Inv) {direction : Direction} {businessId ticketId : UUID} {body : String}
    {refused : Option DeskError}
    (ok : s.desk.write direction (direction == .note) businessId ticketId body
      ⟨none, now, refused⟩ = .ok (m, d)) :
    Inv { s with desk := d, written := s.written ++ [m.id] } ∧ m ∈ d.messages ∧
      m.direction = direction ∧ m.link = none := by
  rcases write_ok inv.keyed.ticketIds ok with ⟨-, key, isKey, -⟩ | ⟨isNew, -, t, found, rfl⟩
  · cases isKey
  · refine ⟨inv.written found direction body now isNew, ?_, by rw [isNew], by rw [isNew]⟩
    exact List.mem_concat_self

theorem Inv.wrote (inv : s.Inv) (direction : Direction) (businessId ticketId : UUID) (body : String)
    (now : Timestamp) (refused : Option DeskError) :
    Inv
      (s.wrote (s.desk.write direction (direction == .note) businessId ticketId body
      ⟨none, now, refused⟩)) := by
  unfold Mirroring.wrote
  split
  next => exact inv
  next m d ok => exact (inv.write ok).1

/-! ### Dispatching -/

variable (messageId : UUID)

/-- A message after the write-back of a comment. -/
def stampIf (link : Link) (m : Message) : Message :=
  if m.id == messageId && m.link.isNone then { m with link := some link } else m

@[simp]
theorem stampIf_id (link : Link) (m : Message) : (stampIf messageId link m).id = m.id := by
  unfold stampIf
  split <;> rfl

@[simp]
theorem stampIf_direction (link : Link) (m : Message) :
    (stampIf messageId link m).direction = m.direction := by
  unfold stampIf
  split <;> rfl

@[simp]
theorem stampIf_body (link : Link) (m : Message) : (stampIf messageId link m).body = m.body := by
  unfold stampIf
  split <;> rfl

theorem stampIf_isSome : (stampIf m.id link m).link.isSome = true := by
  unfold stampIf
  cases isLink : m.link <;> simp [isLink]

theorem later_stampIf {posted : List Posted} {messageId : UUID} (named : link.externalId ≠ "")
    (onPost : messageId ∈ posted.map (·.messageId)) (m : Message) :
    Later posted m (stampIf messageId link m) := by
  unfold stampIf
  split
  next chosen =>
    have chosen : m.id = messageId ∧ m.link = none := by simpa using chosen
    refine ⟨rfl, rfl, rfl, fun _ => rfl, fun other same => .inr ?_⟩
    obtain rfl := Option.some.inj same
    exact ⟨named, by rwa [chosen.1]⟩
  next => exact .refl posted m

/-- The tables after a dispatch that writes this link back. -/
def completedDesk (d : Desk) (op : OutboundOp) (messageId : UUID) (link : Link) (now : Timestamp) :
    Desk :=
  { d with
    messages := d.messages.map (stampIf messageId link)
    ops := updateWhere (·.id == op.id) (fun row => (row.claimed now).completed now) d.ops }

theorem completeComment_eq {messageId : UUID}
    (free : (∃ m ∈ d.messages, m.id = messageId ∧ m.link = none) → ∀ m ∈ d.messages, m.link ≠ some link) :
    (d.updateOp op.id (·.claimed now)).completeComment (op.claimed now) messageId link now =
      completedDesk d op messageId link now := by
  refine (completeComment_of_free (d := d.updateOp op.id (·.claimed now)) free).trans ?_
  simp only [updateOp, completedDesk, OutboundOp.claimed_id]
  rw [updateWhere_updateWhere]
  · rfl
  · exact fun row own => own

theorem completedDesk_keyed (keyed : d.Keyed) {messageId : UUID}
    (free : (∃ m ∈ d.messages, m.id = messageId ∧ m.link = none) →
      ∀ m ∈ d.messages, m.link ≠ some link) : (completedDesk d op messageId link now).Keyed := by
  have claimed : (d.updateOp op.id (·.claimed now)).Keyed := keyed.updateOp op.id fun _ => rfl
  rw [← completeComment_eq free]
  exact claimed.completeComment _ _ _ _

theorem mem_completedDesk_ops {row : OutboundOp} {messageId : UUID} (isRow : row ∈ d.ops) :
    ∃ row' ∈ (completedDesk d op messageId link now).ops,
      row'.messageId = row.messageId ∧ row'.internal = row.internal := by
  refine ⟨_, List.mem_map_of_mem isRow, ?_⟩
  split <;> exact ⟨rfl, rfl⟩

theorem Inv.completed (inv : s.Inv) (isOp : op ∈ s.desk.ops) (isMessage : m ∈ s.desk.messages)
    (isId : op.messageId = some m.id)
    (free : m.link = none → ∀ other ∈ s.desk.messages, other.link ≠ some link)
    (named : link.externalId ≠ "") {posted : List Posted} (more : ∀ p ∈ s.posted, p ∈ posted)
    (onPost : m.id ∈ posted.map (·.messageId)) (once : UniqueOn Posted.messageId posted)
    (new : ∀ p ∈ posted, p ∈ s.posted ∨ p.messageId = m.id ∧ m.id ∉ s.agentNotes ∧
      p.internal = op.internal ∧ p.body = m.body) :
    Inv { s with desk := completedDesk s.desk op m.id link now, posted := posted } := by
  have isFree : (∃ other ∈ s.desk.messages, other.id = m.id ∧ other.link = none) →
      ∀ other ∈ s.desk.messages, other.link ≠ some link := by
    rintro ⟨other, isOther, same, unlinked⟩
    obtain rfl := inv.keyed.messageIds.eq_of_key isOther isMessage same
    exact free unlinked
  have later (other : Message) (isOther : other ∈ s.desk.messages) :
      ∃ m' ∈ (completedDesk s.desk op m.id link now).messages, Later posted other m' :=
    ⟨_, List.mem_map_of_mem isOther, later_stampIf named onPost other⟩
  obtain ⟨-, issue, m', isMessage', isId', body, internal, -, onPost'⟩ := inv.rows op isOp
  obtain rfl :=
    inv.keyed.messageIds.eq_of_key isMessage' isMessage (Option.some.inj (isId'.symm.trans isId))
  refine ⟨completedDesk_keyed inv.keyed isFree, inv.named, fun row' isRow =>
    ?_, fun other isOther => ?_,
    fun p isPosted => ?_, once, fun id isAgent => ?_, fun other isCall linked => ?_⟩
  · obtain ⟨row, wasRow, ⟨own, rfl⟩ | ⟨-, rfl⟩⟩ := updated_or_kept isRow
    · obtain rfl := inv.keyed.opIds.eq_of_key wasRow isOp (beq_iff_eq.mp own)
      refine ⟨.inr rfl, issue, stampIf m'.id link m', List.mem_map_of_mem isMessage', ?_, ?_, ?_,
        fun _ => stampIf_isSome, ?_⟩
      · rw [stampIf_id]
        exact isId'
      · rw [stampIf_body]
        exact body
      · rw [stampIf_direction]
        exact internal
      · intro link' isLink
        rw [stampIf_id]
        refine ((later_stampIf named onPost m').stamp link' isLink).elim (fun old => ⟨?_, onPost⟩) id
        exact (onPost' link' old).1
    · exact (inv.rows row wasRow).later rfl later more
  · obtain ⟨old, wasMessage, rfl⟩ := List.mem_map.mp isOther
    intro isWritten linked
    rw [stampIf_id] at isWritten ⊢
    have linked : s.linked old = true := by
      refine Eq.trans ?_ linked
      unfold Mirroring.linked stampIf
      split <;> rfl
    obtain ⟨row, isRow, own⟩ := inv.queued old wasMessage isWritten linked
    obtain ⟨row', isRow', same, -⟩ := mem_completedDesk_ops isRow
    exact ⟨row', isRow', same.trans own⟩
  · rcases new p isPosted with old | ⟨same, own, isInternal, isBody⟩
    · obtain ⟨other, isOther, same, stamped, own, isInternal, isBody⟩ := inv.posts p old
      refine ⟨_, List.mem_map_of_mem isOther, ?_⟩
      rw [stampIf_id, stampIf_direction, stampIf_body]
      exact ⟨same, (later_stampIf named onPost other).stays stamped, own, isInternal, isBody⟩
    · refine ⟨_, List.mem_map_of_mem isMessage', ?_⟩
      rw [stampIf_id, stampIf_direction, stampIf_body]
      exact ⟨same.symm, stampIf_isSome, own, isInternal.trans internal, isBody⟩
  · obtain ⟨other, isOther, rest⟩ := inv.agents id isAgent
    exact ⟨_, List.mem_map_of_mem isOther, by simpa using rest⟩
  · obtain ⟨row, isRow, own, isInternal⟩ := inv.calls other isCall linked
    obtain ⟨row', isRow', same, sameInternal⟩ := mem_completedDesk_ops isRow
    exact ⟨row', isRow', same.trans own, sameInternal.trans isInternal⟩

theorem Inv.commentStep (inv : s.Inv) (isOp : op ∈ s.desk.ops) :
    ∃ m ∈ s.desk.messages, op.messageId = some m.id ∧ op.body = some m.body ∧
      op.internal = (m.direction == .note) ∧
      (m.link = none ∧ s.desk.commentStep op = .post m.id ∨
        ∃ link, m.link = some link ∧ link.externalId ≠ "" ∧ m.id ∈ s.posted.map (·.messageId) ∧
          s.desk.commentStep op = .repeated m.id link.externalId) := by
  obtain ⟨-, ⟨issue, isIssue, hasName⟩, m, isMessage, isId, body, internal, -, onPost⟩ :=
    inv.rows op isOp
  have external := messageExternalId_of_mem inv.keyed.messageIds isMessage
  refine ⟨m, isMessage, isId, body, internal, ?_⟩
  cases isLink : m.link with
  | none =>
    rw [isLink, Option.map_none] at external
    exact .inl ⟨rfl, by simp [Desk.commentStep, isId, isIssue, hasName, external]⟩
  | some link =>
    obtain ⟨named, isPosted⟩ := onPost link isLink
    rw [isLink, Option.map_some] at external
    exact .inr ⟨link, rfl, named, isPosted,
      by simp [Desk.commentStep, isId, isIssue, hasName, external, named]⟩

theorem pending?_some {op : UUID} {row : OutboundOp} (found : s.pending? op = some row) :
    row ∈ s.desk.ops :=
  List.mem_of_find?_eq_some found

theorem freshUpstream_iff :
    s.freshUpstream link = true ↔ link.externalId ≠ "" ∧ ∀ m ∈ s.desk.messages, m.link ≠ some link := by
  simp [freshUpstream]

theorem Inv.dispatch (inv : s.Inv) (isOp : op ∈ s.desk.ops) {externalId : String} (now : Timestamp)
    (agreeing : s.freshUpstream ⟨op.connectorId, externalId⟩ →
      ∀ messageId, s.desk.commentStep op = .post messageId → messageId ∉ s.agentNotes) :
    (s.dispatch op externalId now).Inv := by
  obtain ⟨m, isMessage, isId, body, internal,
    ⟨unlinked, step⟩ | ⟨link, isLink, named, isPosted, step⟩⟩ :=
    inv.commentStep isOp
  · simp only [Mirroring.dispatch, step]
    split
    next isFresh =>
      obtain ⟨named, free⟩ := freshUpstream_iff.mp isFresh
      -- A message without a link has no comment yet.
      have unposted (p : Posted) (isPosted : p ∈ s.posted) : p.messageId ≠ m.id := by
        intro same
        obtain ⟨m', isMessage', same', stamped, -⟩ := inv.posts p isPosted
        obtain rfl := inv.keyed.messageIds.eq_of_key isMessage' isMessage (same'.trans same)
        simp [unlinked] at stamped
      rw [completeComment_eq fun _ => free]
      refine inv.completed isOp isMessage isId (fun _ => free) named (fun p => List.mem_append_left _)
        (by simp) (inv.once.append_fresh unposted) fun p isPosted => ?_
      refine (List.mem_append.mp isPosted).imp_right fun isNew => ?_
      rw [List.mem_singleton.mp isNew]
      exact ⟨rfl, agreeing isFresh m.id step, rfl, by simp [body]⟩
    next => exact inv
  · have stays : m.link = none →
        ∀ other ∈ s.desk.messages, other.link ≠ some ⟨op.connectorId, link.externalId⟩ := by
      simp [isLink]
    simp only [Mirroring.dispatch, step]
    rw [completeComment_eq]
    · exact inv.completed isOp isMessage isId stays named (fun _ => id) isPosted inv.once fun _ => .inl
    · rintro ⟨other, isOther, same, unlinked⟩
      obtain rfl := inv.keyed.messageIds.eq_of_key isOther isMessage same
      exact stays unlinked

/-! ### Steps -/

theorem Inv.next (inv : s.Inv) (action : MirrorAction) (agreeing : s.Agreeing action) :
    (s.next action).Inv := by
  cases action with
  | reply businessId ticketId body now refused =>
    exact inv.wrote .outbound businessId ticketId body now refused
  | note businessId ticketId body now refused =>
    exact inv.wrote .note businessId ticketId body now refused
  | agentNote businessId ticketId body now refused =>
    simp only [Mirroring.next]
    split
    · exact inv
    split
    next => exact inv
    next m d ok =>
    have isWrite : s.desk.write .note (Direction.note == .note) businessId ticketId body
        ⟨none, now, refused⟩ = .ok (m, d) := ok
    obtain ⟨kept, isMessage, isNote, unlinked⟩ := inv.write isWrite
    exact kept.agent isMessage List.mem_concat_self isNote unlinked
  | agentEnqueue note now =>
    simp only [Mirroring.next]
    split
    next => exact inv
    next m found =>
    have unlinked : s.desk.linkedTicket m.ticketId m.businessId = none := by
      simpa [Mirroring.linked] using agreeing m found
    have same :
        (s.desk.enqueueComment m.ticketId m.id m.businessId m.body now).toOption.getD s.desk =
          s.desk := by
      simp [enqueueComment, unlinked, Except.toOption]
    rw [same]
    exact { inv with calls := fun m isCall => inv.calls m (List.mem_filter.mp isCall).1 }
  | dispatch op externalId now =>
    simp only [Mirroring.next]
    split
    next => exact inv
    next row found => exact inv.dispatch (pending?_some found) now (agreeing row found)

/-- Only the comment of an agent's note breaks the mirror. -/
theorem Inv.mirrored_iff (inv : s.Inv) (action : MirrorAction) :
    Mirrored (s.next action) ↔ s.Agreeing action := by
  refine ⟨fun mirrored => ?_, fun agreeing => (inv.next action agreeing).mirrored⟩
  cases action with
  | reply | note | agentNote => trivial
  | agentEnqueue note now =>
    -- The note has queued an internal comment, and the call queues a visible one.
    intro m found
    by_contra linked
    have linked : s.linked m = true := by simpa using linked
    obtain ⟨op, isOp, own, internal⟩ := inv.calls m (List.mem_of_find?_eq_some found) linked
    obtain ⟨⟨t, link⟩, isLinked⟩ := Option.isSome_iff_exists.mp linked
    have flags := mirrored.flags
    simp only [Mirroring.next, Option.mem_def.mp found, enqueueComment, isLinked,
      Option.isNone_some, Bool.false_eq_true, ↓reduceIte, Except.toOption, Option.getD_some,
      enqueueOutboundComment_some isLinked] at flags
    have same := flags op (List.mem_append_left _ isOp) _ List.mem_concat_self own
    rw [internal] at same
    cases same
  | dispatch op externalId now =>
    intro row found isFresh messageId step agent
    have isOp := pending?_some found
    obtain ⟨m, isMessage, -, -, internal, ⟨-, step'⟩ | ⟨_, -, -, -, step'⟩⟩ := inv.commentStep isOp
    · obtain rfl : m.id = messageId := CommentStep.post.inj (step'.symm.trans step)
      obtain ⟨m', isMessage', same, isNote⟩ := inv.agents m.id agent
      obtain rfl := inv.keyed.messageIds.eq_of_key isMessage' isMessage same
      have visibility := mirrored.visibility
      simp only [Mirroring.next, Option.mem_def.mp found, Mirroring.dispatch, step,
        if_pos isFresh] at visibility
      rw [completeComment_eq fun _ => (freshUpstream_iff.mp isFresh).2] at visibility
      have meant := (visibility _ List.mem_concat_self _
        (List.mem_map_of_mem isMessage') (stampIf_id ..)).1
      simp [internal, isNote, meantInternal, agent] at meant
    · rw [step'] at step
      cases step

/-! ### Runs -/

def start (d : Desk) : Mirroring := ⟨{ d with ops := [] }, [], [], [], []⟩

/-- Each message has one comment with the visibility it is meant to have, at every step of a run,
exactly when no `add_external_comment` call of the run queues its comment or has its note's comment
posted. -/
theorem mirror_iff {d : Desk} (keyed : d.Keyed)
    (named : ∀ t ∈ d.tickets, ∀ link ∈ t.link, link.externalId ≠ "") (actions : List MirrorAction) :
    Along next (fun s action => Mirrored (next s action)) (start d) actions ↔
      Along next Agreeing (start d) actions := by
  have first : (start d).Inv :=
    ⟨{ keyed with opIds := List.nodup_nil }, named, List.forall_mem_nil _, nofun,
      List.forall_mem_nil _, List.nodup_nil, List.forall_mem_nil _, List.forall_mem_nil _⟩
  exact Along.iff_of_cond (fun s action inv => Inv.mirrored_iff inv action)
    (fun s action inv agreeing => Inv.next inv action agreeing) first

end Mirroring

open Mirroring

namespace Sample

/-- A reply and a note on ticket 1, and the dispatch of both. -/
def replyAndNote : List MirrorAction :=
  [.reply 7 1 "Fixed" 1 none, .note 7 1 "Check the fuse" 2 none, .dispatch 2 "11" 3,
    .dispatch 1 "12" 4]

theorem reply_and_note_mirrored :
    Desk.Keyed linkedDesk ∧ (∀ t ∈ linkedDesk.tickets, ∀ link ∈ t.link, link.externalId ≠ "") ∧
      Along next (fun s action => Mirrored (next s action))
        (start linkedDesk) replyAndNote :=
  ⟨by decide +kernel, by decide +kernel,
    (mirror_iff (by decide +kernel) (by decide +kernel) _).mpr (by decide +kernel)⟩

/-- The text of `add_external_comment` is queued twice, with both flags, and the internal comment is
posted. -/
theorem agent_comment_internal :
    Desk.Keyed linkedDesk ∧ (∀ t ∈ linkedDesk.tickets, ∀ link ∈ t.link, link.externalId ≠ "") ∧
      ¬ Along next (fun s action => Mirrored (next s action))
        (start linkedDesk) [.agentNote 7 1 "On our way" 1 none, .agentEnqueue 1 2] ∧
      ¬ Along next (fun s action => Mirrored (next s action))
        (start linkedDesk) [.agentNote 7 1 "On our way" 1 none, .dispatch 1 "11" 2] := by
  decide +kernel

end Sample

end Manyforge.Connectors
