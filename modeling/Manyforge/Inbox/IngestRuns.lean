import Manyforge.Inbox.Deliveries
import Manyforge.Lib.Transition

/-!
# Concurrent deliveries

Any number of `Ingest` calls next to each other. A transaction sees what is committed when a
statement starts; its own writes become visible to others when it commits, and until then it holds
the rows and index entries they are on. Before its duplicate check it takes the advisory lock of its
business and Message-ID.
-/
namespace Manyforge.Inbox

open Table Transition SupportDb

/-- What a transaction can hold. -/
inductive LockKey where
  /-- The hash of the business and the Message-ID. -/
  | advisory (hash : Int)
  | requester (tenantRootId : UUID) (email : String)
  | ticket (id : UUID)
  | message (businessId : UUID) (messageId : String)
  deriving DecidableEq

/-- How far a transaction has come, with what it has read. -/
inductive Stage where
  /-- The recipient is resolved, and the scope and the caps are checked. -/
  | arrived
  | locked
  | unseen
  | upserted
  | allowed
  | threaded (ticket : Option UUID)
  | placed (ticket : Option UUID)
  | ticketed (ticket : Option UUID)
  | inserted (ticket : Option UUID)
  | repeated (m : Message)
  | suppressed

structure Tx where
  id : UUID
  mail : Mail
  route : Route
  delivery : Delivery
  now : Timestamp
  stage : Stage

structure Ingesting where
  db : SupportDb
  open_ : List Tx
  /-- The deliveries that have committed, with their results. -/
  log : List (Mail × Outcome)

inductive IngestAction where
  /-- A delivery comes in; a new ticket would get this id. -/
  | begin_ (mail : Mail) (ticketId : UUID) (now : Timestamp)
  /-- The next statement of a transaction. -/
  | advance (tx : UUID)
  | abort (tx : UUID)

namespace Tx

variable (hashtext : UUID → String → Int) (tx : Tx)

def advisory : List LockKey :=
  if tx.delivery.messageId = "" then
    [] else [.advisory (hashtext tx.route.businessId tx.delivery.messageId)]

def requester : LockKey := .requester tx.route.tenantRootId tx.delivery.senderEmail

/-- The row of the ticket found, or the key of the new one. -/
def ticketKey (ticket : Option UUID) : LockKey := .ticket (ticket.getD tx.delivery.ticketId)

def message : LockKey := .message tx.route.businessId tx.delivery.messageId

def locks : List LockKey :=
  match tx.stage with
  | .arrived => []
  | .locked | .unseen | .repeated _ => tx.advisory hashtext
  | .upserted | .allowed | .threaded _ | .placed _ | .suppressed =>
    tx.requester :: tx.advisory hashtext
  | .ticketed ticket => tx.ticketKey ticket :: tx.requester :: tx.advisory hashtext
  | .inserted ticket => tx.message :: tx.ticketKey ticket :: tx.requester :: tx.advisory hashtext

/-- What the next statement of a transaction leads to. -/
inductive Reply where
  /-- It waits until these are free. -/
  | goOn (wanted : List LockKey) (stage : Stage)
  | commit (db : SupportDb) (outcome : Outcome)
  | rollback

def statement (db : SupportDb) : Reply :=
  match tx.stage with
  | .arrived => .goOn (tx.advisory hashtext) .locked
  | .locked =>
    match db.duplicate? tx.route tx.delivery.messageId with
    | some m => .goOn [] (.repeated m)
    | none => .goOn [] .unseen
  | .unseen => .goOn [tx.requester] .upserted
  | .upserted =>
    let upserted := db.upsertRequester tx.route tx.delivery tx.now
    .goOn [] (if upserted.1.suppresses tx.route tx.delivery upserted.2 tx.now then
      .suppressed else .allowed)
  | .allowed => .goOn [] (.threaded (db.threadByHeaders tx.route tx.delivery))
  | .threaded ticket => .goOn [] (.placed (ticket.or (db.threadByHint tx.route tx.delivery)))
  | .placed ticket => .goOn [tx.ticketKey ticket] (.ticketed ticket)
  | .ticketed ticket => .goOn [tx.message] (.inserted ticket)
  | .inserted ticket =>
    -- Nobody else writes the rows it holds, so its writes can be made at the end.
    let upserted := db.upsertRequester tx.route tx.delivery tx.now
    match upserted.1.store tx.route tx.delivery upserted.2 ticket tx.now with
    | .error _ => .rollback
    | .ok (after, outcome) => .commit (after.enqueue tx.route outcome) outcome
  | .repeated m => .commit db (.duplicate (some m))
  | .suppressed => .commit (db.upsertRequester tx.route tx.delivery tx.now).1 .suppressed

end Tx

namespace Ingesting

variable (hashtext : UUID → String → Int) (sv : Service) (s : Ingesting)

def begin_ (mail : Mail) (ticketId : UUID) (now : Timestamp) : Ingesting :=
  match s.db.route mail with
  | none => s
  | some r =>
    if s.db.inScope r mail.recipient && (checkAttachments mail.attachments).isOk then
      { s with
        open_ := s.open_ ++
          [⟨freshKey (s.open_.map (·.id)), mail, r, sv.delivery r mail ticketId, now, .arrived⟩] }
    else s

def tx? (id : UUID) : Option Tx := s.open_.find? (·.id == id)

def close (id : UUID) : List Tx := s.open_.filter (·.id != id)

def advance (tx : Tx) : Ingesting :=
  match tx.statement hashtext s.db with
  | .goOn wanted stage =>
    if wanted.all (Locks.free Tx.id (Tx.locks hashtext) s.open_ tx.id) then
      { s with open_ := updateWhere (·.id == tx.id) (fun _ => { tx with stage }) s.open_ }
    else s
  | .commit db outcome =>
    { s with db, open_ := s.close tx.id, log := s.log ++ [(tx.mail, outcome)] }
  | .rollback => { s with open_ := s.close tx.id }

def next : IngestAction → Ingesting
  | .begin_ mail ticketId now => s.begin_ sv mail ticketId now
  | .advance id =>
    match s.tx? id with
    | none => s
    | some tx => s.advance hashtext tx
  | .abort id => { s with open_ := s.close id }

def start (db : SupportDb) : Ingesting := ⟨db, [], []⟩

end Ingesting

/-- What one commit does: a duplicate or suppressed delivery adds nothing, and a stored message is
in the business that its recipient resolves to. -/
def Ingesting.Delivers (s s' : Ingesting) : Prop :=
  ∀ mail outcome, s'.log = s.log ++ [(mail, outcome)] →
    match outcome with
    | .duplicate _ | .suppressed => s'.db.tickets = s.db.tickets ∧ s'.db.messages = s.db.messages ∧
        s'.db.attachments = s.db.attachments ∧ s'.db.events = s.db.events
    | .stored ticketId messageId _ => ∃ r, s'.db.route mail = some r ∧
        ∃ m ∈ s'.db.messages, m.id = messageId ∧ m.ticketId = ticketId ∧ m.businessId = r.businessId

/-! ### Transactions -/

/-- The duplicate check found nothing. -/
def Stage.checked : Stage → Bool
  | .arrived | .locked | .repeated _ => false
  | .unseen | .upserted | .allowed | .threaded _ | .placed _ | .ticketed _ | .inserted _
  | .suppressed => true

/-- The ticket found so far. -/
def Stage.ticket? : Stage → Option UUID
  | .threaded ticket | .placed ticket | .ticketed ticket | .inserted ticket => ticket
  | .arrived | .locked | .unseen | .upserted | .allowed | .repeated _ | .suppressed => none

/-- What a transaction can rely on. -/
structure Tx.Ok (db : SupportDb) (tx : Tx) : Prop where
  routed : db.route tx.mail = some tx.route
  named : tx.delivery.messageId ≠ ""
  unseen : tx.stage.checked = true → ∀ m ∈ db.messages,
    m.businessId = tx.route.businessId → m.messageId ≠ tx.delivery.messageId
  thread : ∀ id, tx.stage.ticket? = some id → db.threadable tx.route id = true

section

variable {hashtext : UUID → String → Int} {sv : Service} {tenantOf : UUID → UUID}
  {before db : SupportDb} {tx : Tx}

theorem route_tenant (consistent : db.Consistent tenantOf) {mail : Mail} {r : Route}
    (routed : db.route mail = some r) : r.tenantRootId = tenantOf r.businessId := by
  simp only [route] at routed
  have resolved : ∃ ia ∈ db.addresses, r = ⟨ia.businessId, ia.tenantRootId⟩ := by
    split at routed
    · obtain ⟨ia, found, rfl⟩ := Option.map_eq_some_iff.mp routed
      exact ⟨ia, List.mem_of_find?_eq_some found, rfl⟩
    · obtain ⟨ia, found, rfl⟩ := Option.map_eq_some_iff.mp routed
      exact ⟨ia, List.mem_of_find?_eq_some found, rfl⟩
  obtain ⟨ia, isAddress, rfl⟩ := resolved
  exact consistent.addressTenants ia isAddress

theorem threadByHeaders_threadable {r : Route} {d : Delivery} {id : UUID}
    (found : db.threadByHeaders r d = some id) : db.threadable r id = true := by
  simp only [threadByHeaders] at found
  split at found
  next => cases found
  next =>
  obtain ⟨m, first, rfl⟩ := Option.map_eq_some_iff.mp found
  have chosen := (mem_selectFirst (List.mem_of_mem_head? first)).2
  simp only [Bool.and_eq_true] at chosen
  exact chosen.1.2

theorem threadByHint_threadable {r : Route} {d : Delivery} {id : UUID}
    (found : db.threadByHint r d = some id) : db.threadable r id = true := by
  obtain ⟨hint, -, found⟩ := Option.bind_eq_some_iff.mp found
  obtain ⟨t, first, rfl⟩ := Option.map_eq_some_iff.mp found
  have chosen := List.find?_some first
  simp only [Bool.and_eq_true, beq_iff_eq, Option.isNone_iff_eq_none] at chosen
  exact threadable_iff.mpr ⟨t, List.mem_of_find?_eq_some first, rfl, chosen.1.1.2, chosen.2⟩

/-- The lock under which no other transaction stores the same message. -/
theorem Tx.advisory_mem (hashtext : UUID → String → Int) (named : tx.delivery.messageId ≠ "")
    (checked : tx.stage.checked = true) :
    LockKey.advisory (hashtext tx.route.businessId tx.delivery.messageId) ∈ tx.locks hashtext := by
  have held : LockKey.advisory (hashtext tx.route.businessId tx.delivery.messageId) ∈
      tx.advisory hashtext := by
    simp [Tx.advisory, named]
  cases isStage : tx.stage with
  | arrived | locked | repeated m => simp [isStage, Stage.checked] at checked
  | unseen | upserted | allowed | threaded ticket | placed ticket | ticketed ticket
  | inserted ticket | suppressed =>
    simp [Tx.locks, isStage, held]

/-- What the reply to a statement says. A transaction that goes on may rely on what it has read; it
keeps its locks and gets those it has waited for. -/
def Tx.Replied (hashtext : UUID → String → Int) (db : SupportDb) (tx : Tx) : Tx.Reply → Prop
  | .goOn wanted stage => Tx.Ok db { tx with stage } ∧
      ∀ key ∈ Tx.locks hashtext { tx with stage }, key ∈ tx.locks hashtext ∨ key ∈ wanted
  | .commit db' outcome =>
    (∃ requesters, db' = { db with requesters } ∧
      (outcome = .suppressed ∨ ∃ row, outcome = .duplicate row)) ∨
      ∃ ticket row, tx.stage = .inserted ticket ∧
        SupportDb.Delivered db tx.route tx.delivery ticket db' row ∧
        outcome = .stored row.ticketId row.id ticket.isNone
  | .rollback => True

theorem Tx.Ok.replied (ok : tx.Ok db) (consistent : db.Consistent tenantOf) :
    tx.Replied hashtext db (tx.statement hashtext db) := by
  have goOn {wanted : List LockKey} {stage : Stage}
      (checked : stage.checked = true → tx.stage.checked = true)
      (ticket : ∀ id, stage.ticket? = some id → db.threadable tx.route id = true)
      (locks : ∀ key ∈ Tx.locks hashtext { tx with stage }, key ∈ tx.locks hashtext ∨ key ∈ wanted) :
      tx.Replied hashtext db (.goOn wanted stage) :=
    ⟨⟨ok.routed, ok.named, fun isChecked => ok.unseen (checked isChecked), ticket⟩, locks⟩
  have thread := ok.thread
  obtain ⟨requesters, upserted⟩ := db.upsertRequester_frame tx.route tx.delivery tx.now
  unfold Tx.statement
  cases isStage : tx.stage with
  | arrived =>
    exact goOn (by simp [Stage.checked]) (by simp [Stage.ticket?])
      (by simp [Tx.locks, isStage, Tx.advisory])
  | locked =>
    simp only
    split
    next =>
      exact goOn (by simp [Stage.checked]) (by simp [Stage.ticket?])
        (by simp [Tx.locks, isStage, Tx.advisory])
    next none_found =>
    have unseen := unseen_of_duplicate? consistent (route_tenant consistent ok.routed) none_found
    refine ⟨⟨ok.routed, ok.named, fun _ => unseen, by simp [Stage.ticket?]⟩, ?_⟩
    simp [Tx.locks, isStage, Tx.advisory]
  | unseen =>
    refine goOn (by simp [isStage, Stage.checked]) (by simp [Stage.ticket?]) ?_
    simp [Tx.locks, isStage, Tx.advisory, Tx.requester]
  | upserted =>
    simp only
    split
    · refine goOn (by simp [isStage, Stage.checked]) (by simp [Stage.ticket?]) ?_
      simp [Tx.locks, isStage, Tx.advisory, Tx.requester]
    · refine goOn (by simp [isStage, Stage.checked]) (by simp [Stage.ticket?]) ?_
      simp [Tx.locks, isStage, Tx.advisory, Tx.requester]
  | allowed =>
    refine goOn (by simp [isStage, Stage.checked]) (fun id found => threadByHeaders_threadable found) ?_
    simp [Tx.locks, isStage, Tx.advisory, Tx.requester]
  | threaded ticket =>
    rw [isStage] at thread
    refine goOn (by simp [isStage, Stage.checked]) (fun id found => ?_) ?_
    · rcases Option.or_eq_some_iff.mp found with byHeaders | ⟨-, byHint⟩
      · exact thread id byHeaders
      · exact threadByHint_threadable byHint
    · simp [Tx.locks, isStage, Tx.advisory, Tx.requester]
  | placed ticket | ticketed ticket =>
    rw [isStage] at thread
    refine goOn (by simp [isStage, Stage.checked]) thread ?_
    simp [Tx.locks, isStage, Tx.advisory, Tx.requester, Tx.ticketKey, Tx.message]
  | inserted ticket =>
    simp only
    split
    next => trivial
    next after outcome stored =>
    have unseen : ∀ m ∈ ({ db with requesters } : SupportDb).messages,
        m.businessId = tx.route.businessId → m.messageId ≠ tx.delivery.messageId :=
      ok.unseen (by simp [isStage, Stage.checked])
    rw [upserted] at stored
    obtain ⟨row, delivered, isStored⟩ := store_delivered unseen stored
    refine .inr ⟨ticket, row, isStage, ?_, isStored⟩
    exact { delivered with }
  | repeated m => exact .inl ⟨db.requesters, rfl, .inr ⟨_, rfl⟩⟩
  | suppressed => exact .inl ⟨requesters, upserted, .inl rfl⟩

theorem route_congr {db' : SupportDb} (same : db'.addresses = db.addresses) (mail : Mail) :
    db'.route mail = db.route mail := by
  simp only [route, resolveRecipient, resolveRecipientForBusiness, same]

namespace Ingesting

variable {s : Ingesting}

structure Inv (hashtext : UUID → String → Int) (tenantOf : UUID → UUID) (before : SupportDb)
    (s : Ingesting) : Prop where
  sound : SupportDb.Sound before s.db
  consistent : s.db.Consistent tenantOf
  grown : SupportDb.Grown before s.db
  names : UniqueOn Tx.id s.open_
  exclusive : Locks.Exclusive Tx.id (Tx.locks hashtext) s.open_
  ok : ∀ tx ∈ s.open_, tx.Ok s.db

theorem Inv.start (consistent : before.Consistent tenantOf) :
    (Ingesting.start before).Inv hashtext tenantOf before := by
  have noTickets : opened before before = [] := by simp [opened]
  have noMessages : stored before before = [] := by
    simp only [stored, List.filter_eq_nil_iff]
    intro m isMessage
    simpa using ⟨m, isMessage, rfl⟩
  have noEvents : sent before before = [] := by simp [sent]
  refine ⟨⟨consistent.messageKeys, ?_, ?_, ?_, ?_, ?_⟩, consistent, .refl before, List.nodup_nil,
    List.forall_mem_nil _, List.forall_mem_nil _⟩
  · simp [Ingesting.start, noTickets]
  · simp [Ingesting.start, noTickets]
  · simp [Ingesting.start, noMessages]
  · simp [Ingesting.start, noEvents]
  · simp [Ingesting.start, noMessages]

theorem Delivers.silent {s' : Ingesting} (same : s'.log = s.log) : s.Delivers s' := by
  intro mail outcome logged
  simp [same] at logged

section

variable (inv : s.Inv hashtext tenantOf before)

include inv

theorem Inv.begin_ (mail : Mail) (ticketId : UUID) (now : Timestamp) :
    (s.begin_ sv mail ticketId now).Inv hashtext tenantOf before := by
  simp only [Ingesting.begin_]
  split
  next => exact inv
  next r routed =>
  split
  next =>
    have named : (sv.delivery r mail ticketId).messageId ≠ "" := by
      simp only [Service.delivery]
      exact sv.messageID_ne_empty r mail
    refine { inv with
      names := inv.names.append_freshKey rfl
      exclusive := inv.exclusive.begun (by simp [Tx.locks])
      ok := forall_inserted inv.ok ⟨routed, named, ?_, ?_⟩ }
    · simp [Stage.checked]
    · simp [Stage.ticket?]
  next => exact inv

theorem Inv.close (id : UUID) : Inv hashtext tenantOf before { s with open_ := s.close id } :=
  { inv with
    names := inv.names.filter _
    exclusive := inv.exclusive.of_subset fun _ isOpen => (List.mem_filter.mp isOpen).1
    ok := fun tx isOpen => inv.ok tx (List.mem_filter.mp isOpen).1 }

theorem Inv.replied (isOpen : tx ∈ s.open_) :
    tx.Replied hashtext s.db (tx.statement hashtext s.db) :=
  (inv.ok tx isOpen).replied inv.consistent

theorem Inv.goOn (isOpen : tx ∈ s.open_) {wanted : List LockKey} {stage : Stage}
    (reply : tx.statement hashtext s.db = .goOn wanted stage)
    (free : wanted.all (Locks.free Tx.id (Tx.locks hashtext) s.open_ tx.id) = true) :
    Inv hashtext tenantOf before
      { s with open_ := updateWhere (·.id == tx.id) (fun _ => { tx with stage }) s.open_ } := by
  obtain ⟨ok, locks⟩ : tx.Replied hashtext s.db (.goOn wanted stage) := reply ▸ inv.replied isOpen
  refine { inv with
    names := inv.names.updateWhere fun other isChosen => (beq_iff_eq.mp isChosen).symm
    exclusive := inv.exclusive.advanced isOpen fun key isKey => ?_
    ok := Locks.forall_advanced (fun other isOther _ => inv.ok other isOther) ok }
  refine (locks key isKey).imp_right fun isWanted => ?_
  exact Locks.free_iff.mp (List.all_eq_true.mp free key isWanted)

theorem Inv.commitNothing (requesters : List Requester) (id : UUID) (log : List (Mail × Outcome)) :
    Inv hashtext tenantOf before ⟨{ s.db with requesters }, s.close id, log⟩ := by
  have closed := inv.close id
  exact ⟨{ closed.sound with }, { closed.consistent with }, { closed.grown with }, closed.names,
    closed.exclusive, fun tx isOpen => { closed.ok tx isOpen with }⟩

theorem Inv.commitDelivered (isOpen : tx ∈ s.open_) {ticket : Option UUID}
    (isStage : tx.stage = .inserted ticket) {db' : SupportDb} {row : Message}
    (step : SupportDb.Delivered s.db tx.route tx.delivery ticket db' row)
    (log : List (Mail × Outcome)) : Inv hashtext tenantOf before ⟨db', s.close tx.id, log⟩ := by
  have ok := inv.ok tx isOpen
  have checked : tx.stage.checked = true := by rw [isStage]; rfl
  have consistent :=
    inv.consistent.delivered step (route_tenant inv.consistent ok.routed) (ok.unseen checked)
  have found (id : UUID) (isFound : ticket = some id) : s.db.threadable tx.route id = true :=
    ok.thread id (by rw [isStage]; exact isFound)
  have closed := inv.close tx.id
  refine ⟨inv.sound.delivered inv.grown step consistent found, consistent, inv.grown.delivered step,
    closed.names, closed.exclusive, fun other isOther => ?_⟩
  have isOther := List.mem_filter.mp isOther
  have differs : other.id ≠ tx.id := by simpa using isOther.2
  have otherOk := inv.ok other isOther.1
  refine ⟨(route_congr step.addresses _).trans otherOk.routed, otherOk.named, fun isChecked => ?_,
    fun id isFound => step.threadable (otherOk.thread id isFound)⟩
  rw [step.messages]
  refine forall_inserted (otherOk.unseen isChecked) fun business messageId => ?_
  -- The same key would mean the same advisory lock.
  have held := Tx.advisory_mem hashtext ok.named checked
  have heldToo := Tx.advisory_mem hashtext otherOk.named isChecked
  rw [← business, ← messageId, step.business, step.messageId] at heldToo
  exact inv.exclusive.apart isOpen isOther.1 differs held heldToo

theorem Inv.advance (isOpen : tx ∈ s.open_) :
    (s.advance hashtext tx).Inv hashtext tenantOf before ∧ s.Delivers (s.advance hashtext tx) := by
  have replied : tx.Replied hashtext s.db (tx.statement hashtext s.db) := inv.replied isOpen
  simp only [Ingesting.advance]
  split
  next wanted stage reply =>
    split
    next free => exact ⟨inv.goOn isOpen reply free, .silent rfl⟩
    next => exact ⟨inv, .silent rfl⟩
  next db' outcome reply =>
    rw [reply] at replied
    rcases replied with ⟨requesters, rfl, result⟩ | ⟨ticket, row, isStage, step, isStored⟩
    · refine ⟨inv.commitNothing requesters tx.id _, fun mail outcome' logged => ?_⟩
      obtain ⟨-, rfl⟩ : tx.mail = mail ∧ outcome = outcome' := by simpa using logged
      rcases result with rfl | ⟨row, rfl⟩
      · exact ⟨rfl, rfl, rfl, rfl⟩
      · exact ⟨rfl, rfl, rfl, rfl⟩
    · refine ⟨inv.commitDelivered isOpen isStage step _, fun mail outcome' logged => ?_⟩
      obtain ⟨rfl, rfl⟩ : tx.mail = mail ∧ outcome = outcome' := by simpa using logged
      rw [isStored]
      refine ⟨tx.route, (route_congr step.addresses _).trans (inv.ok tx isOpen).routed, row,
        ?_, rfl, rfl, step.business⟩
      simp [step.messages]
  next => exact ⟨inv.close tx.id, .silent rfl⟩

/-- Every step keeps the invariant, and a commit delivers. -/
theorem Inv.next (action : IngestAction) :
    (next hashtext sv s action).Inv hashtext tenantOf before ∧
      s.Delivers (next hashtext sv s action) := by
  cases action with
  | begin_ mail ticketId now =>
    refine ⟨inv.begin_ mail ticketId now, .silent ?_⟩
    simp only [Ingesting.next, Ingesting.begin_]
    split
    · rfl
    · split
      · rfl
      · rfl
  | advance id =>
    simp only [Ingesting.next]
    split
    next => exact ⟨inv, .silent rfl⟩
    next tx found => exact inv.advance (List.mem_of_find?_eq_some found)
  | abort id => exact ⟨inv.close id, .silent rfl⟩

end

/-! ### A delivery on its own -/

section Alone

variable {log : List (Mail × Outcome)}

theorem next_goOn {wanted : List LockKey} {stage : Stage}
    (reply : tx.statement hashtext db = .goOn wanted stage) :
    next hashtext sv ⟨db, [tx], log⟩ (.advance tx.id) = ⟨db, [{ tx with stage }], log⟩ := by
  have free : wanted.all (Locks.free Tx.id (Tx.locks hashtext) [tx] tx.id) = true := by
    simp [Locks.free]
  simp [next, tx?, Ingesting.advance, reply, free, updateWhere]

theorem next_commit {db' : SupportDb} {outcome : Outcome}
    (reply : tx.statement hashtext db = .commit db' outcome) :
    next hashtext sv ⟨db, [tx], log⟩ (.advance tx.id) = ⟨db', [], log ++ [(tx.mail, outcome)]⟩ := by
  simp [next, tx?, Ingesting.advance, reply, Ingesting.close]

theorem run_idle (id : UUID) (n : Nat) :
    (List.replicate n (.advance id)).foldl (next hashtext sv) ⟨db, [], log⟩ = ⟨db, [], log⟩ := by
  induction n with
  | zero => rfl
  | succ n ih => exact ih

/-- The statements of one transaction, `n` of them. -/
def run (hashtext : UUID → String → Int) (sv : Service) (n : Nat) (s : Ingesting) : Ingesting :=
  (List.replicate n (.advance 1)).foldl (next hashtext sv) s

theorem run_goOn {n : Nat} (first : tx.id = 1) {wanted : List LockKey} {stage : Stage}
    (reply : tx.statement hashtext db = .goOn wanted stage) :
    run hashtext sv (n + 1) ⟨db, [tx], log⟩ = run hashtext sv n ⟨db, [{ tx with stage }], log⟩ := by
  rw [run, List.replicate_succ, List.foldl_cons, ← first, next_goOn reply, run, first]

theorem run_commit {n : Nat} (first : tx.id = 1) {db' : SupportDb} {outcome : Outcome}
    (reply : tx.statement hashtext db = .commit db' outcome) :
    run hashtext sv (n + 1) ⟨db, [tx], log⟩ = ⟨db', [], log ++ [(tx.mail, outcome)]⟩ := by
  rw [run, List.replicate_succ, List.foldl_cons, ← first, next_commit reply, run_idle]

/-- `Service.ingest` is what a delivery does when nothing else is open. -/
theorem ingest_alone {mail : Mail} {ticketId : UUID} {now : Timestamp} {db' : SupportDb}
    {outcome : Outcome} (ok : sv.ingest db mail ticketId now = .ok (db', outcome)) :
    run hashtext sv 9 (next hashtext sv (Ingesting.start db) (.begin_ mail ticketId now)) =
      ⟨db', [], [(mail, outcome)]⟩ := by
  simp only [Service.ingest] at ok
  split at ok
  next => cases ok
  next r routed =>
  split at ok
  next => cases ok
  next after outcome' ingested =>
  cases ok
  simp only [ingestInboundMessage] at ingested
  split at ingested
  next inScope =>
    split at ingested
    next => cases ingested
    next capped =>
    have capped : checkAttachments mail.attachments = .ok () := capped
    have inScope : db.inScope r mail.recipient = true := inScope
    let tx (stage : Stage) : Tx := ⟨1, mail, r, sv.delivery r mail ticketId, now, stage⟩
    have begun : next hashtext sv (Ingesting.start db) (.begin_ mail ticketId now) =
        ⟨db, [tx .arrived], []⟩ := by
      simp [next, Ingesting.begin_, Ingesting.start, routed, inScope, capped, Except.isOk,
        Except.toBool, freshKey, tx]
    have goOn {n : Nat} {old new : Stage} {wanted : List LockKey}
        (reply : (tx old).statement hashtext db = .goOn wanted new) :
        run hashtext sv (n + 1) ⟨db, [tx old], []⟩ = run hashtext sv n ⟨db, [tx new], []⟩ :=
          run_goOn rfl reply
    have commit {n : Nat} {last : Stage} {db' : SupportDb} {outcome : Outcome}
        (reply : (tx last).statement hashtext db = .commit db' outcome) :
        run hashtext sv (n + 1) ⟨db, [tx last], []⟩ = ⟨db', [], [(mail, outcome)]⟩ := run_commit rfl reply
    have arrived : (tx .arrived).statement hashtext db =
        .goOn ((tx .arrived).advisory hashtext) .locked := rfl
    rw [begun, goOn arrived]
    split at ingested
    next m found =>
      cases ingested
      have repeated : (tx .locked).statement hashtext db = .goOn [] (.repeated m) := by
        simp only [Tx.statement, tx, found]
      rw [goOn repeated]
      exact commit rfl
    next none_found =>
    have unseen : (tx .locked).statement hashtext db = .goOn [] .unseen := by
      simp only [Tx.statement, tx, none_found]
    have upserted : (tx .unseen).statement hashtext db =
        .goOn [(tx .unseen).requester] .upserted := rfl
    rw [goOn unseen, goOn upserted]
    split at ingested
    next suppresses =>
      cases ingested
      have suppressed : (tx .upserted).statement hashtext db = .goOn [] .suppressed := by
        simp only [Tx.statement, tx, suppresses, ↓reduceIte]
      rw [goOn suppressed]
      exact commit rfl
    next allows =>
    have allowed : (tx .upserted).statement hashtext db = .goOn [] .allowed := by
      simp only [Tx.statement, tx, allows, Bool.false_eq_true, ↓reduceIte]
    have threaded : (tx .allowed).statement hashtext db =
        .goOn [] (.threaded (db.threadByHeaders r (sv.delivery r mail ticketId))) := rfl
    have placed :
        (tx (.threaded (db.threadByHeaders r (sv.delivery r mail ticketId)))).statement
          hashtext db = .goOn [] (.placed (db.thread r (sv.delivery r mail ticketId))) := rfl
    have ticketed (ticket : Option UUID) :
        (tx (.placed ticket)).statement hashtext db =
          .goOn [(tx .unseen).ticketKey ticket] (.ticketed ticket) := rfl
    have inserted (ticket : Option UUID) :
        (tx (.ticketed ticket)).statement hashtext db =
          .goOn [(tx .unseen).message] (.inserted ticket) := rfl
    rw [goOn allowed, goOn threaded, goOn placed, goOn (ticketed _), goOn (inserted _)]
    -- The upsert of the requester does not change what the threading reads.
    obtain ⟨requesters, frame⟩ := db.upsertRequester_frame r (sv.delivery r mail ticketId) now
    have sameThread : (db.upsertRequester r (sv.delivery r mail ticketId) now).1.thread r
        (sv.delivery r mail ticketId) = db.thread r (sv.delivery r mail ticketId) := by
      rw [frame]
      rfl
    rw [sameThread] at ingested
    apply commit
    simp only [Tx.statement, tx, ingested]
  next => cases ingested

end Alone

/-! ### Runs -/

/-- However the statements of any number of deliveries are interleaved: each message is stored once,
no opened ticket is empty, there is one event for each ticket and one for each message, and what is
a duplicate or suppressed adds nothing. -/
theorem ingest_safe (hashtext : UUID → String → Int) (sv : Service) {tenantOf : UUID → UUID}
    {before : SupportDb} (consistent : before.Consistent tenantOf) (actions : List IngestAction) :
    Along (next hashtext sv)
      (fun s action => SupportDb.Sound before (next hashtext sv s action).db ∧
        s.Delivers (next hashtext sv s action))
      (Ingesting.start before) actions := by
  have first : (Ingesting.start before).Inv hashtext tenantOf before := Inv.start consistent
  have step (s : Ingesting) (action : IngestAction) (inv : s.Inv hashtext tenantOf before) :
      (next hashtext sv s action).Inv hashtext tenantOf before ∧ s.Delivers (next hashtext sv s action) :=
    inv.next action
  exact Along.of_kept (fun s action inv => (step s action inv).1)
    (fun s action inv => ⟨(step s action inv).1.sound, (step s action inv).2⟩) first actions

end Ingesting

end

namespace Sample

/-- One address, of business 7 in tenant 1, and no mail yet. -/
def helpDesk : SupportDb := ⟨[⟨7, 1, "help@desk.test", none⟩], [], [], [], [], []⟩

theorem helpDesk_consistent : helpDesk.Consistent fun _ => 1 := by
  refine ⟨by decide, by decide, by decide, ?_, ?_⟩
  · simp [helpDesk]
  · simp [helpDesk]

def plainService : Service := ⟨id, fun _ => none, fun _ => "token", fun _ _ _ _ => "digest", 2⟩

def question : Mail :=
  ⟨"help@desk.test", "", none, "ann@home.test", "ann@home.test", "Ann", "Printer", "m1", "", [], "",
    fun _ => "", []⟩

theorem question_alone : ∃ stored, plainService.ingest helpDesk question 100 1 = .ok stored ∧
    Ingesting.run (fun _ _ => 0) plainService 9 (Ingesting.next (fun _ _ => 0) plainService
      (Ingesting.start helpDesk) (.begin_ question 100 1)) = ⟨stored.1, [], [(question, stored.2)]⟩ :=
  ⟨_, rfl, Ingesting.ingest_alone rfl⟩

/-- A mail and its redelivery, whose transaction waits for the first. -/
def redelivered : List IngestAction :=
  [.begin_ question 100 1, .begin_ question 101 2, .advance 2, .advance 1] ++
    List.replicate 8 (.advance 2) ++ List.replicate 9 (.advance 1)

theorem redelivery_is_noop :
    helpDesk.Consistent (fun _ => 1) ∧
      Along (Ingesting.next (fun _ _ => 0) plainService)
        (fun s action =>
          SupportDb.Sound helpDesk (Ingesting.next (fun _ _ => 0) plainService s action).db ∧
          s.Delivers (Ingesting.next (fun _ _ => 0) plainService s action))
        (Ingesting.start helpDesk) redelivered :=
  ⟨helpDesk_consistent, Ingesting.ingest_safe _ _ helpDesk_consistent redelivered⟩

/-- In that run the redelivery is a duplicate. -/
example :
    ((redelivered.foldl (Ingesting.next (fun _ _ => 0) plainService)
      (Ingesting.start helpDesk)).log.map
    (·.2)).map (fun outcome => match outcome with | .stored .. => true | _ => false) = [true, false] := by
  decide +kernel

end Sample

end Manyforge.Inbox
