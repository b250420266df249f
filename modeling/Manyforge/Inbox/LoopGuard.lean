import Manyforge.Inbox.IngestRuns
import Manyforge.Lib.Window

/-!
# The loop guard

Mail to one business, one after the other. The guard is meant to store at most `maxAuto`
auto-generated messages of a sender within an hour. It counts those on the tickets that the sender
has opened; but a message can be threaded into a ticket of somebody else, and there it counts for
the other one. The table has no column for the sender, so who sent the stored messages is kept
beside it here.
-/
namespace Manyforge.Inbox

open Table Transition

structure Sent where
  sender : String
  isAutoReply : Bool
  at_ : Timestamp

structure Guarding where
  db : SupportDb
  clock : Timestamp
  sent : List Sent

/-- A mail that comes in `wait` after the one before. -/
structure Arrival where
  wait : Nat
  mail : Mail
  ticketId : UUID

/-- The call stores a message unless it is a duplicate or suppressed: the recipient is in scope, the
attachments pass the checks, and the id for a new ticket is not taken. -/
def SupportDb.accepts (db : SupportDb) (r : Route) (d : Delivery) : Bool :=
  db.inScope r d.address && (checkAttachments d.attachments).isOk &&
    d.attachments.all (0 < ·.size) &&
    ((db.thread r d).isSome || db.tickets.all (·.id != d.ticketId))

/-- What the loop guard counts. -/
def SupportDb.recentAuto (db : SupportDb) (r : Route) (d : Delivery) (now : Timestamp) : Nat :=
  (db.upsertRequester r d now).1.messages.countP
    ((db.upsertRequester r d now).1.counted r (db.upsertRequester r d now).2 now)

namespace Guarding

variable (sv : Service) (r : Route) (maxAuto : Int)

def delivery (a : Arrival) : Delivery :=
  { sv.delivery r a.mail a.ticketId with loopMaxAutoReplies := maxAuto }

variable (s : Guarding) (a : Arrival)

def now : Timestamp := s.clock + a.wait

def ingest : Except IngestError (SupportDb × Outcome) :=
  s.db.ingestInboundMessage r (delivery sv r maxAuto a) (s.now a)

/-- The message, once it is stored. -/
def arrived : Sent :=
  ⟨(delivery sv r maxAuto a).senderEmail, (delivery sv r maxAuto a).isAutoReply, s.now a⟩

def next : Guarding :=
  match s.ingest sv r maxAuto a with
  | .error _ => { s with clock := s.now a }
  | .ok (after, outcome) =>
    ⟨after.enqueue r outcome, s.now a,
      match outcome with
      | .stored .. => s.sent ++ [s.arrived sv r maxAuto a]
      | .duplicate _ | .suppressed => s.sent⟩

/-- The auto-generated messages of a sender. -/
def auto (sender : String) : List Sent := s.sent.filter fun m => m.isAutoReply && m.sender == sender

/-- How many of them were stored in the hour that ends at `t`. -/
def inHour (sender : String) (t : Timestamp) : Nat := Window.count Sent.at_ hour (s.auto sender) t

/-- No hour has more than `maxAuto` messages. -/
def Bounded : Prop := 0 < maxAuto → ∀ sender t, (s.inHour sender t : Int) ≤ maxAuto

/-- What is to hold of a step: the bound holds after it, once the bound is reached nothing is added,
and other mail is not suppressed. -/
structure Limited (s : Guarding) (a : Arrival) : Prop where
  bounded : Bounded maxAuto (next sv r maxAuto s a)
  nothing : 0 < maxAuto → (delivery sv r maxAuto a).isAutoReply = true →
    maxAuto ≤ s.inHour (delivery sv r maxAuto a).senderEmail (s.now a) →
    (next sv r maxAuto s a).db.tickets = s.db.tickets ∧
      (next sv r maxAuto s a).db.messages = s.db.messages
  other : (delivery sv r maxAuto a).isAutoReply = false →
    ∀ after, s.ingest sv r maxAuto a ≠ .ok (after, .suppressed)

/-- Where the guard counts fewer than `maxAuto` on the sender's tickets, the sender has sent
fewer. -/
def Counted : Prop :=
  0 < maxAuto → (delivery sv r maxAuto a).isAutoReply = true →
    s.db.accepts r (delivery sv r maxAuto a) = true →
      s.db.duplicate? r (delivery sv r maxAuto a).messageId = none →
    (s.db.recentAuto r (delivery sv r maxAuto a) (s.now a) : Int) < maxAuto →
    (s.inHour (delivery sv r maxAuto a).senderEmail (s.now a) : Int) < maxAuto
  deriving Decidable

end Guarding

/-! ### What a call does -/

namespace SupportDb

variable {db : SupportDb} {r : Route} {d : Delivery} {now : Timestamp} {tenantOf : UUID → UUID}

theorem store_stored_iff (now : Timestamp)
    (unseen : ∀ m ∈ db.messages, m.businessId = r.businessId → m.messageId ≠ d.messageId)
    (requesterId : UUID) (ticket : Option UUID) :
    (∃ after ticketId messageId created,
        db.store r d requesterId ticket now = .ok (after, .stored ticketId messageId created)) ↔
      d.attachments.all (0 < ·.size) = true ∧
        (ticket.isSome || db.tickets.all (·.id != d.ticketId)) = true := by
  have free : (db.messages.any fun m =>
        m.businessId == r.businessId && m.messageId == d.messageId) = false := by
    simpa using unseen
  have sizes : d.attachments.all (0 < ·.size) = !d.attachments.any (·.size ≤ 0) := by
    apply Bool.eq_iff_iff.mpr
    simp
  have fresh : db.tickets.all (·.id != d.ticketId) = !db.tickets.any (·.id == d.ticketId) := by
    apply Bool.eq_iff_iff.mpr
    simp
  rw [sizes, fresh]
  cases ticket with
  | none =>
    cases taken : db.tickets.any (·.id == d.ticketId) with
    | true => simp [store, placeTicket, taken]
    | false =>
      cases small : d.attachments.any (·.size ≤ 0) with
      | true | false => simp [store, placeTicket, insertMessage, insertAttachments, taken, free, small]
  | some id =>
    cases small : d.attachments.any (·.size ≤ 0) with
    | true | false => simp [store, placeTicket, insertMessage, insertAttachments, free, small]

theorem suppresses_iff :
    (db.upsertRequester r d now).1.suppresses r d (db.upsertRequester r d now).2 now = true ↔
    d.isAutoReply = true ∧ 0 < d.loopMaxAutoReplies ∧ d.loopMaxAutoReplies ≤ db.recentAuto r d now := by
  simp [suppresses, recentAuto, and_assoc]

theorem ingest_stored_iff (consistent : db.Consistent tenantOf)
    (tenant : r.tenantRootId = tenantOf r.businessId) :
    (∃ after ticketId messageId created,
        db.ingestInboundMessage r d now = .ok (after, .stored ticketId messageId created)) ↔
      db.accepts r d = true ∧ db.duplicate? r d.messageId = none ∧
        ¬ (d.isAutoReply = true ∧ 0 < d.loopMaxAutoReplies ∧
          d.loopMaxAutoReplies ≤ db.recentAuto r d now) := by
  simp only [ingestInboundMessage, accepts]
  cases inScope : db.inScope r d.address with
  | false => simp
  | true =>
    cases capped : checkAttachments d.attachments with
    | error e => simp [Except.isOk, Except.toBool]
    | ok _ =>
      cases found : db.duplicate? r d.messageId with
      | some m => simp
      | none =>
        have unseen := unseen_of_duplicate? consistent tenant found
        by_cases suppressed :
          (db.upsertRequester r d now).1.suppresses r d (db.upsertRequester r d now).2 now = true
        · simp [suppressed, suppresses_iff.mp suppressed]
        · -- The upsert changes nothing that the rest reads.
          obtain ⟨requesters, frame⟩ := db.upsertRequester_frame r d now
          have sameThread : (db.upsertRequester r d now).1.thread r d = db.thread r d := by
            rw [frame]; rfl
          have unseen' : ∀ m ∈ (db.upsertRequester r d now).1.messages, m.businessId =
              r.businessId → m.messageId ≠ d.messageId := by rw [frame]; exact unseen
          have stored := store_stored_iff now unseen' (db.upsertRequester r d now).2 (db.thread r d)
          have sameTickets : (db.upsertRequester r d now).1.tickets = db.tickets := by rw [frame]
          rw [sameTickets] at stored
          have passes := suppresses_iff.not.mp suppressed
          simp only [suppressed, Bool.false_eq_true, if_false, if_true, sameThread, stored, passes]
          simp [Except.isOk, Except.toBool]

theorem ingest_cases (consistent : db.Consistent tenantOf)
    (tenant : r.tenantRootId = tenantOf r.businessId) (d : Delivery) (now : Timestamp) :
    (∃ e, db.ingestInboundMessage r d now = .error e) ∨
      (∃ requesters outcome, db.ingestInboundMessage r d now = .ok ({ db with requesters }, outcome) ∧
        (outcome = .suppressed ∧ d.isAutoReply = true ∨ ∃ row, outcome = .duplicate row)) ∨
      ∃ after ticket row, db.ingestInboundMessage r d now =
        .ok (after, .stored row.ticketId row.id ticket.isNone) ∧
        Delivered db r d ticket (after.enqueue r (.stored row.ticketId row.id ticket.isNone)) row ∧
        ∀ m ∈ db.messages, m.businessId = r.businessId → m.messageId ≠ d.messageId := by
  simp only [ingestInboundMessage]
  split
  next =>
    split
    next e _ => exact .inl ⟨e, rfl⟩
    next =>
    obtain ⟨requesters, frame⟩ := db.upsertRequester_frame r d now
    split
    next m _ => exact .inr (.inl ⟨db.requesters, _, rfl, .inr ⟨_, rfl⟩⟩)
    next found =>
    split
    next suppressed =>
      have auto := (suppresses_iff.mp suppressed).1
      exact .inr (.inl ⟨requesters, _, by rw [frame], .inl ⟨rfl, auto⟩⟩)
    next =>
    have unseen := unseen_of_duplicate? consistent tenant found
    rw [frame]
    cases result : SupportDb.store { db with requesters } r d (db.upsertRequester r d now).2
        (SupportDb.thread { db with requesters } r d) now with
    | error e => exact .inl ⟨e, rfl⟩
    | ok reply =>
      obtain ⟨after, outcome⟩ := reply
      have unseen' : ∀ m ∈ SupportDb.messages { db with requesters }, m.businessId =
          r.businessId → m.messageId ≠ d.messageId := unseen
      obtain ⟨row, step, rfl⟩ := store_delivered unseen' result
      have step : Delivered db r d _ _ row := { step with }
      exact .inr (.inr ⟨after, _, row, rfl, step, unseen⟩)
  next => exact .inl ⟨_, rfl⟩

end SupportDb

/-! ### Runs -/

namespace Guarding

variable {sv : Service} {r : Route} {maxAuto : Int} {tenantOf : UUID → UUID} {s : Guarding}
  {a : Arrival}

structure Inv (maxAuto : Int) (tenantOf : UUID → UUID) (s : Guarding) : Prop where
  consistent : s.db.Consistent tenantOf
  past : ∀ m ∈ s.sent, m.at_ ≤ s.clock
  bounded : Bounded maxAuto s

def Stores (sv : Service) (r : Route) (maxAuto : Int) (s : Guarding) (a : Arrival) : Prop :=
  ∃ after ticketId messageId created, s.ingest sv r maxAuto a =
    .ok (after, .stored ticketId messageId created)

section Step

variable (inv : Inv maxAuto tenantOf s) (tenant : r.tenantRootId = tenantOf r.businessId)
include inv tenant

theorem counted_iff : Counted sv r maxAuto s a ↔
    (0 < maxAuto → (delivery sv r maxAuto a).isAutoReply = true → Stores sv r maxAuto s a →
      (s.inHour (delivery sv r maxAuto a).senderEmail (s.now a) : Int) < maxAuto) := by
  refine forall_congr' fun positive => forall_congr' fun auto => ?_
  have stores : Stores sv r maxAuto s a ↔ _ := SupportDb.ingest_stored_iff inv.consistent tenant
  rw [stores]
  have limit : (delivery sv r maxAuto a).loopMaxAutoReplies = maxAuto := rfl
  simp only [limit, auto, positive, true_and, not_le, and_imp]

theorem next_quiet (quiet : ¬ Stores sv r maxAuto s a) :
    (∃ requesters, next sv r maxAuto s a = ⟨{ s.db with requesters }, s.now a, s.sent⟩) ∧
      ((delivery sv r maxAuto a).isAutoReply = false →
        ∀ after, s.ingest sv r maxAuto a ≠ .ok (after, .suppressed)) := by
  rcases SupportDb.ingest_cases inv.consistent tenant (delivery sv r maxAuto a) (s.now a) with
    ⟨e, failed⟩ | ⟨requesters, outcome, returned, why⟩ | ⟨after, ticket, row, returned, -, -⟩
  · exact ⟨⟨s.db.requesters, by simp [next, ingest, failed]⟩, by simp [ingest, failed]⟩
  · rcases why with ⟨rfl, auto⟩ | ⟨row, rfl⟩
    · exact ⟨⟨requesters, by simp [next, ingest, returned, SupportDb.enqueue]⟩, by simp [auto]⟩
    · exact ⟨⟨requesters, by simp [next, ingest, returned, SupportDb.enqueue]⟩,
        by simp [ingest, returned]⟩
  · exact absurd ⟨after, _, _, _, returned⟩ quiet

theorem next_stores (stores : Stores sv r maxAuto s a) :
    ∃ ticket row, SupportDb.Delivered s.db r (delivery sv r maxAuto a) ticket
      (next sv r maxAuto s a).db row ∧ (next sv r maxAuto s a).clock = s.now a ∧
      (next sv r maxAuto s a).sent = s.sent ++ [s.arrived sv r maxAuto a] ∧
      ∀ m ∈ s.db.messages, m.businessId = r.businessId →
        m.messageId ≠ (delivery sv r maxAuto a).messageId := by
  obtain ⟨final, ticketId, messageId, created, isStored⟩ := stores
  rcases SupportDb.ingest_cases inv.consistent tenant (delivery sv r maxAuto a) (s.now a) with
    ⟨e, failed⟩ | ⟨requesters, outcome, returned, why⟩ | ⟨after, ticket, row, returned, step, unseen⟩
  · cases isStored.symm.trans failed
  · cases isStored.symm.trans returned
    rcases why with ⟨impossible, -⟩ | ⟨row, impossible⟩
    · cases impossible
    · cases impossible
  · have isNext : next sv r maxAuto s a =
        ⟨after.enqueue r (.stored row.ticketId row.id ticket.isNone), s.now a,
        s.sent ++ [s.arrived sv r maxAuto a]⟩ := by
      simp [next, ingest, returned]
    rw [isNext]
    exact ⟨ticket, row, step, rfl, rfl, unseen⟩

omit inv tenant in
theorem clock_le : s.clock ≤ s.now a := by
  simp only [now]
  exact Int.le_add_of_nonneg_right (Int.natCast_nonneg _)

/-- One more message of the sender keeps the bound exactly if the hour that ends now has room. -/
theorem bounded_iff (stores : Stores sv r maxAuto s a) : Bounded maxAuto (next sv r maxAuto s a) ↔
    (0 < maxAuto → (delivery sv r maxAuto a).isAutoReply = true →
      (s.inHour (delivery sv r maxAuto a).senderEmail (s.now a) : Int) < maxAuto) := by
  obtain ⟨-, -, -, -, sent, -⟩ := next_stores inv tenant stores
  refine forall_congr' fun positive => ?_
  have grown (sender : String) : (next sv r maxAuto s a).auto sender = s.auto sender ++
      if (delivery sv r maxAuto a).isAutoReply = true ∧ (delivery sv r maxAuto a).senderEmail = sender
        then [s.arrived sv r maxAuto a] else [] := by
    simp only [auto, sent, List.filter_append, List.filter_singleton]
    simp [arrived]
  have past (sender : String) (m : Sent) (isSent : m ∈ s.auto sender) :
      m.at_ ≤ (s.arrived sv r maxAuto a).at_ :=
    (inv.past m (List.mem_filter.mp isSent).1).trans clock_le
  have bounded := inv.bounded positive
  by_cases auto : (delivery sv r maxAuto a).isAutoReply = true
  · -- Only the sender's own windows can overflow.
    have own := grown (delivery sv r maxAuto a).senderEmail
    rw [if_pos ⟨auto, rfl⟩] at own
    have room :
        (∀ t, ((next sv r maxAuto s a).inHour (delivery sv r maxAuto a).senderEmail t : Int) ≤
          maxAuto) ↔
        (s.inHour (delivery sv r maxAuto a).senderEmail (s.now a) : Int) < maxAuto := by
      simp only [inHour, own]
      exact Window.forall_count_append_iff (by decide) (past _) (bounded _)
    simp only [auto, forall_const]
    rw [← room]
    constructor
    · exact fun after => after _
    · intro after sender t
      by_cases isOwn : (delivery sv r maxAuto a).senderEmail = sender
      · exact isOwn ▸ after t
      · have other := grown sender
        rw [if_neg fun both => isOwn both.2, List.append_nil] at other
        rw [inHour, other]
        exact bounded sender t
  · refine iff_of_true (fun sender t => ?_) fun isAuto => absurd isAuto auto
    have same := grown sender
    rw [if_neg fun both => auto both.1, List.append_nil] at same
    rw [inHour, same]
    exact bounded sender t

/-- A step is as it should be exactly where the guard's count does not fall short of the sender's
own. -/
theorem limited_iff : Limited sv r maxAuto s a ↔ Counted sv r maxAuto s a := by
  rw [counted_iff inv tenant]
  by_cases stores : Stores sv r maxAuto s a
  · constructor
    · intro limited positive auto _
      exact (bounded_iff inv tenant stores).mp limited.bounded positive auto
    · intro counted
      refine ⟨(bounded_iff inv tenant stores).mpr fun positive auto =>
        counted positive auto stores, ?_, ?_⟩
      · -- The sender is below the bound.
        intro positive auto reached
        exact absurd (counted positive auto stores) (not_lt.mpr reached)
      · obtain ⟨_, _, _, _, isStored⟩ := stores
        simp [isStored]
  · obtain ⟨⟨requesters, same⟩, other⟩ := next_quiet inv tenant stores
    refine iff_of_true ⟨?_, ?_, other⟩ fun _ _ isStored => absurd isStored stores
    · rw [same]
      exact inv.bounded
    · rw [same]
      exact fun _ _ _ => ⟨rfl, rfl⟩

/-- A sender keeps to the limit while the guard counts in full. -/
theorem Inv.next (counted : Counted sv r maxAuto s a) :
    Inv maxAuto tenantOf (Guarding.next sv r maxAuto s a) := by
  refine ⟨?_, ?_, ((limited_iff inv tenant).mpr counted).bounded⟩
  · by_cases stores : Stores sv r maxAuto s a
    · obtain ⟨ticket, row, step, -, -, unseen⟩ := next_stores inv tenant stores
      exact inv.consistent.delivered step tenant unseen
    · obtain ⟨⟨requesters, same⟩, -⟩ := next_quiet inv tenant stores
      rw [same]
      exact { inv.consistent with }
  · have past (m : Sent) (isSent : m ∈ s.sent) : m.at_ ≤ s.now a := (inv.past m isSent).trans clock_le
    by_cases stores : Stores sv r maxAuto s a
    · obtain ⟨-, -, -, clock, sent, -⟩ := next_stores inv tenant stores
      rw [clock, sent]
      exact forall_inserted past le_rfl
    · obtain ⟨⟨requesters, same⟩, -⟩ := next_quiet inv tenant stores
      rw [same]
      exact past

end Step

/-- The mail-loop bound. -/
theorem loop_bounded_iff (sv : Service) (r : Route) (maxAuto : Int) (tenantOf : UUID → UUID)
    (db : SupportDb) (clock : Timestamp) (arrivals : List Arrival)
    (consistent : db.Consistent tenantOf) (tenant : r.tenantRootId = tenantOf r.businessId) :
    Along (next sv r maxAuto) (Limited sv r maxAuto) ⟨db, clock, []⟩ arrivals ↔
      Along (next sv r maxAuto) (Counted sv r maxAuto) ⟨db, clock, []⟩ arrivals := by
  have start : Inv maxAuto tenantOf ⟨db, clock, []⟩ := by
    refine ⟨consistent, List.forall_mem_nil _, fun positive sender t => ?_⟩
    exact positive.le
  have kept (s : Guarding) (a : Arrival) (inv : Inv maxAuto tenantOf s)
      (counted : Counted sv r maxAuto s a) :
      Inv maxAuto tenantOf (next sv r maxAuto s a) := inv.next tenant counted
  have decided (s : Guarding) (a : Arrival) (inv : Inv maxAuto tenantOf s) :
      Limited sv r maxAuto s a ↔ Counted sv r maxAuto s a := limited_iff inv tenant
  exact Along.iff_of_cond decided kept start

end Guarding

open Guarding

namespace Sample

/-- A vacation notice of another sender, to the desk or to a message there. -/
def notice (messageID inReplyTo : String) : Mail :=
  ⟨"help@desk.test", "", none, "bot@home.test", "bot@home.test", "", "Away", messageID,
    inReplyTo, [], "", fun name => if name = "Auto-Submitted" then "auto-replied" else "", []⟩

/-- Ann's question and two notices, the second of which is one too many. -/
def notices (inReplyTo : String) : List Arrival :=
  [⟨0, question, 100⟩, ⟨1000000, notice "b1" inReplyTo, 101⟩, ⟨1000000, notice "b2" "", 102⟩]

/-- On the sender's own ticket the second notice is suppressed. -/
theorem notices_on_own_ticket :
    Along (next plainService ⟨7, 1⟩ 1) (Counted plainService ⟨7, 1⟩ 1)
      ⟨helpDesk, 0, []⟩
        (notices "") ∧
      Along (next plainService ⟨7, 1⟩ 1) (Limited plainService ⟨7, 1⟩ 1)
        ⟨helpDesk, 0, []⟩
        (notices "") := by
  have counted : Along (next plainService ⟨7, 1⟩ 1)
      (Counted plainService ⟨7, 1⟩ 1) ⟨helpDesk, 0, []⟩
      (notices "") := by decide +kernel
  exact ⟨counted,
    (loop_bounded_iff plainService ⟨7, 1⟩ 1 _ _ _ _ helpDesk_consistent rfl).mpr counted⟩

/-- The first notice answers Ann's question and goes into Ann's ticket, where it counts for Ann. -/
theorem notice_on_foreign_ticket :
    ((notices "m1").foldl (next plainService ⟨7, 1⟩ 1) ⟨helpDesk, 0, []⟩).inHour
      "bot@home.test" 2000000 = 2 ∧
      ¬ Along (next plainService ⟨7, 1⟩ 1) (Limited plainService ⟨7, 1⟩ 1)
        ⟨helpDesk, 0, []⟩
        (notices "m1") := by
  have two : ((notices "m1").foldl (next plainService ⟨7, 1⟩ 1) ⟨helpDesk, 0, []⟩).inHour
      "bot@home.test" 2000000 = 2 := by decide +kernel
  refine ⟨two, ?_⟩
  rintro ⟨-, -, last, -⟩
  have bounded := last.bounded Int.one_pos "bot@home.test" 2000000
  exact absurd (two ▸ bounded) (by decide)

end Sample

end Manyforge.Inbox
