import Manyforge.Lib.Transition
import Manyforge.Mailing.FeedbackFrame
import Manyforge.Mailing.Subscribe

/-!
# Consent over a whole history

Any sequence of public subscriptions, confirmations, unsubscribes and provider
feedback, with a clock that does not run backwards. What one call can do to the row
of an address on a list is said once, by `Turn`; the history properties follow from
it by induction on the sequence of calls.
-/
namespace Manyforge

open Table Transition Database

/-! ### Calls -/

inductive ConsentCall where
  | subscribe (r : SubscribeRequest) (newId : UUID)
  | confirm (hash : Nat)
  | unsubscribe (subscriber campaign : UUID)
  | s2sUnsubscribe (list : UUID) (email : Email)
  | webhook (r : Database.WebhookRequest) (newId : UUID) (locked : ProviderWebhook → Bool)
  | complete (id : UUID) (generation : Nat) (messageId : String) (locked : ProviderWebhook → Bool)
  | relayBounce (recipient : Email) (named : Option (Delivery → Bool))

/-- What a transaction leaves: an exception rolls it back. -/
def Database.committed {α : Type} (db : Database) : Except SqlError (Database × α) → Database
  | .ok (db', _) => db'
  | .error _ => db

def ConsentCall.perform (now : Timestamp) (db : Database) : ConsentCall → Database
  | subscribe r newId => db.committed (db.mailingPublicSubscribe now r newId)
  | confirm hash => (db.mailingConfirm now hash).1
  | unsubscribe subscriber campaign => db.unsubscribe now subscriber campaign
  | s2sUnsubscribe list email => (db.mailingS2sUnsubscribe now list email).1
  | webhook r newId locked => db.committed (db.mailingProcessProviderWebhook now r newId locked)
  | complete id generation messageId locked =>
    db.committed (db.mailingCompleteDelivery now id generation messageId locked)
  | relayBounce recipient named => db.suppressBounce now recipient named

/-- One call of the history, with the database before and after it. -/
structure Passage where
  call : ConsentCall
  now : Timestamp
  (before after : Database)

structure ConsentState where
  db : Database
  clock : Timestamp
  /-- The calls so far, the latest first. -/
  history : List Passage

def ConsentState.perform (s : ConsentState) (now : Timestamp) (call : ConsentCall) : ConsentState where
  db := call.perform now s.db
  clock := now
  history := ⟨call, now, s.db, call.perform now s.db⟩ :: s.history

inductive ConsentStep : ConsentState → ConsentState → Prop
  | call {s : ConsentState} (call : ConsentCall) (now : Timestamp) (later : s.clock ≤ now) :
      ConsentStep s (s.perform now call)

/-! ### The row of one address on one list -/

section Row

variable (list : UUID) (email : Email) (p : Passage)

def Passage.rowBefore : Option Subscriber := p.before.subscriptionOf list email

def Passage.rowAfter : Option Subscriber := p.after.subscriptionOf list email

/-- The row waits for the confirmation of a token. -/
def Holds (hash : Nat) (expiresAt : Timestamp) (row : Option Subscriber) : Prop :=
  ∃ s, row = some s ∧ s.status = .pending ∧ s.confirmTokenHash = some hash ∧
    s.confirmExpiresAt = some expiresAt

/-- The call makes the row active. -/
def Passage.Activates : Prop :=
  (p.rowBefore list email).map (·.status) ≠ some .active ∧
    (p.rowAfter list email).map (·.status) = some .active

/-- The call issues a token: the public form stores it on the row. -/
def Passage.Issues (hash : Nat) (expiresAt : Timestamp) : Prop :=
  ∃ r newId, p.call = .subscribe r newId ∧ r.listId = list ∧ r.email = email ∧
    r.confirmTokenHash = some hash ∧ r.confirmExpiresAt = some expiresAt ∧
    (p.before.resolveKey r.asPublicForm).isSome = true ∧
    (∀ row, p.rowBefore list email = some row → p.before.reopens r.asPublicForm row = true) ∧
    Holds hash expiresAt (p.rowAfter list email)

/-- Everything a call can do to the row. -/
inductive Turn (p : Passage) : Prop
  | kept (same : p.rowAfter list email = p.rowBefore list email)
  | fell (s s' : Subscriber) (was : p.rowBefore list email = some s)
      (becomes : p.rowAfter list email = some s')
      (status : s'.status = .bounced ∨ s'.status = .complained)
  | left (s s' : Subscriber) (was : p.rowBefore list email = some s)
      (becomes : p.rowAfter list email = some s') (status : s'.status = .unsubscribed)
  | joined (r : SubscribeRequest) (newId : UUID) (s' : Subscriber) (call : p.call = .subscribe r newId)
      (new : p.rowBefore list email = none) (becomes : p.rowAfter list email = some s')
        (status : s'.status = .active)
      (clear : p.before.suppressedBy s'.businessId email = false)
  | issued (hash : Nat) (expiresAt : Timestamp) (issues : p.Issues list email hash expiresAt)
  | confirmed (hash : Nat) (expiresAt : Timestamp) (s' : Subscriber) (call : p.call = .confirm hash)
      (held : Holds hash expiresAt (p.rowBefore list email)) (inTime : p.now < expiresAt)
      (becomes : p.rowAfter list email = some s') (status : s'.status = .active)
      (consumed : s'.confirmTokenHash = none)
      (clear : p.before.blockedBy s'.businessId email = false)

end Row

/-! ### What each call does -/

namespace Database

variable {db db' : Database} {now : Timestamp} {r : SubscribeRequest} {newId : UUID}

theorem subscriptionOf_updated (list : UUID) (email : Email)
    (unique : UniqueOn (·.id) db.subscribers) {row : Subscriber} (member : row ∈ db.subscribers)
    {change : Subscriber → Subscriber}
    (written : db'.subscribers = updateWhere (fun s => s.id == row.id) change db.subscribers)
    (keeps : ∀ s, (change s).listId = s.listId ∧ (change s).email = s.email) :
    db'.subscriptionOf list email = db.subscriptionOf list email ∨
      (db.subscriptionOf list email = some row ∧
        db'.subscriptionOf list email = some (change row)) := by
  have found : db'.subscriptionOf list email = (db.subscriptionOf list email).map fun s =>
      if s.id == row.id then change s else s := by
    simp only [subscriptionOf, written]
    exact find?_updateWhere _ fun s _ => by rw [(keeps s).1, (keeps s).2]
  rw [found]
  cases old : db.subscriptionOf list email with
  | none => exact .inl rfl
  | some s =>
    by_cases same : s.id = row.id
    · obtain rfl := unique.eq_of_key (List.mem_of_find?_eq_some old) member same
      exact .inr ⟨rfl, by simp⟩
    · exact .inl (by simp [same])

theorem subscriptionOf_appended (list : UUID) (email : Email) {new : Subscriber}
    (written : db'.subscribers = db.subscribers ++ [new])
    (absent : db.subscriptionOf new.listId new.email = none) :
    db'.subscriptionOf list email = db.subscriptionOf list email ∨
      (new.listId = list ∧ new.email = email ∧ db.subscriptionOf list email = none ∧
        db'.subscriptionOf list email = some new) := by
  by_cases own : new.listId = list ∧ new.email = email
  · obtain ⟨rfl, rfl⟩ := own
    refine .inr ⟨rfl, rfl, absent, ?_⟩
    simp only [subscriptionOf] at absent
    simp [subscriptionOf, written, absent]
  · have other : (new.listId == list && new.email == email) = false := by
      simpa [Bool.and_eq_false_iff, not_and_or] using own
    left
    simp [subscriptionOf, written, other]

theorem subscriptionOf_address {list : UUID} {email : Email} {row : Subscriber}
    (found : db.subscriptionOf list email = some row) : row.listId = list ∧ row.email = email :=
  (of_find?_keys found).2

/-- A public form adds a new row, or stores a token on a row that may be reopened, or does
nothing. -/
theorem publicSubscribe_cases {answer : Option SubscribeAnswer}
    (call : db.mailingPublicSubscribe now r newId = .ok (db', answer)) :
    db' = db ∨
    (∃ list, db.resolveKey r.asPublicForm = some list ∧
      db.subscriptionOf r.listId r.email = none ∧ (∀ s ∈ db.subscribers, s.id ≠ newId) ∧
      let desired := db.desiredStatus r.asPublicForm list.doubleOptIn
      lacksToken r.asPublicForm desired = false ∧
      db' = { db with
        subscribers := db.subscribers ++ [newSubscriber now r.asPublicForm desired newId] }) ∨
    (∃ list row, db.resolveKey r.asPublicForm = some list ∧
      db.subscriptionOf r.listId r.email = some row ∧ db.reopens r.asPublicForm row = true ∧
      lacksToken r.asPublicForm .pending = false ∧
      db' = { db with
        subscribers := updateWhere (fun s => s.id == row.id)
          (resubscribed now r.asPublicForm .pending) db.subscribers }) := by
  simp only [mailingPublicSubscribe, mailingKeySubscribe] at call
  split at call
  · exact .inl (Prod.mk.inj (Except.ok.inj call)).1.symm
  next list resolved =>
  -- Of the checks on the request only the one on the attributes can fail here.
  split at call; · cases call
  split at call; · cases call
  split at call; · cases call
  split at call; · cases call
  split at call; · cases call
  split at call
  next absent =>
    simp only [insertSubscriber] at call
    split at call; · cases call
    next fresh =>
    split at call; · cases call
    next token =>
    refine .inr (.inl ⟨list, resolved, absent, ?_, by simpa using token, ?_⟩)
    · simpa using fresh
    · exact (Prod.mk.inj (Except.ok.inj call)).1.symm
  next row found =>
  simp only [resubscribe] at call
  split at call; · cases call
  next token =>
  split at call
  next reopened =>
    have open_status : row.status = .unsubscribed ∨ row.status = .pending := by
      simp only [reopens, Bool.and_eq_true, Bool.or_eq_true, beq_iff_eq] at reopened
      exact reopened.1
    have pending : redesired r.asPublicForm row
        (db.desiredStatus r.asPublicForm list.doubleOptIn) = .pending :=
      if_pos ⟨rfl, open_status⟩
    rw [pending] at token call
    refine .inr (.inr ⟨list, row, resolved, found, reopened, by simpa using token, ?_⟩)
    exact (Prod.mk.inj (Except.ok.inj call)).1.symm
  next => exact .inl (Prod.mk.inj (Except.ok.inj call)).1.symm

theorem token_of_lacksToken (token : lacksToken r .pending = false) :
    ∃ hash expiresAt, r.confirmTokenHash = some hash ∧ r.confirmExpiresAt = some expiresAt := by
  simp only [lacksToken, BEq.rfl, Bool.true_and, Bool.or_eq_false_iff,
    Option.isNone_eq_false_iff, Option.isSome_iff_exists] at token
  obtain ⟨⟨hash, hashed⟩, expiresAt, expires⟩ := token
  exact ⟨hash, expiresAt, hashed, expires⟩

/-- A relay bounce writes the list of all tenants and nothing else, or marks a delivery. -/
theorem suppressBounce_cases (db : Database) (now : Timestamp) (recipient : Email)
    (named : Option (Delivery → Bool)) :
    (db.suppressBounce now recipient named = { db with
      emailSuppressions := (db.insertSuppression recipient).emailSuppressions }) ∨
      ∃ id, db.suppressBounce now recipient named = (db.mailingMarkBounced now id).1 := by
  have inserted : db.insertSuppression recipient = { db with
      emailSuppressions := (db.insertSuppression recipient).emailSuppressions } := by
    unfold insertSuppression
    split <;> rfl
  cases named with
  | none => exact .inl inserted
  | some id =>
    cases found : db.deliveries.find? id with
    | none =>
      left
      simpa [suppressBounce, mailingMarkBounced, found] using inserted
    | some d => exact .inr ⟨id, by simp [suppressBounce, mailingMarkBounced, found]⟩

theorem desiredStatus_publicForm (doubleOptIn : Bool) :
    db.desiredStatus r.asPublicForm doubleOptIn = .pending ∨
      (db.desiredStatus r.asPublicForm doubleOptIn = .active ∧
        db.suppressedBy r.businessId r.email = false) := by
  unfold desiredStatus
  split
  · exact .inl rfl
  next clear =>
  split
  · refine .inr ⟨rfl, ?_⟩
    simpa [SubscribeRequest.asPublicForm] using clear
  · exact .inl rfl

end Database

namespace Passage

variable {list : UUID} {email : Email} {p : Passage}

/-- A row that feedback touches ends as bounced or complained. -/
def Fell (s s' : Subscriber) : Prop :=
  s'.id = s.id ∧ s'.listId = s.listId ∧ s'.email = s.email ∧
    (s' = s ∨ s'.status = .bounced ∨ s'.status = .complained)

theorem Fell.refl (s : Subscriber) : Fell s s := ⟨rfl, rfl, rfl, .inl rfl⟩

theorem Fell.of_marked {s s' : Subscriber} (marked : Database.Marked s s') : Fell s s' := by
  obtain ⟨v, rfl⟩ := marked
  cases v with
  | sent | delivered => exact .refl s
  | bounced | complained =>
    by_cases complained : s.status = .complained <;>
      simp [Fell, mark, markSubscriber, complained]

theorem Fell.of_relay (s : Subscriber) : Fell s (relayMarked s) := by
  by_cases complained : s.status = .complained <;> simp [Fell, relayMarked, complained]

theorem turn_of_fell (frame : RowByRow Fell p.before.subscribers p.after.subscribers) :
    Turn list email p := by
  have related : Option.Rel Fell (p.rowBefore list email) (p.rowAfter list email) :=
    frame.find? fun a b fell => by rw [fell.2.1, fell.2.2.1]
  cases was : p.rowBefore list email with
  | none =>
    rw [was] at related
    cases becomes : p.rowAfter list email with
    | none => exact .kept (by rw [was, becomes])
    | some s' => rw [becomes] at related; cases related
  | some s =>
    rw [was] at related
    cases becomes : p.rowAfter list email with
    | none => rw [becomes] at related; cases related
    | some s' =>
      rw [becomes] at related
      cases related with
      | some fell =>
        obtain ⟨-, -, -, rfl | status⟩ := fell
        · exact .kept (by rw [was, becomes])
        · exact .fell s s' was becomes status

variable {db : Database} {now : Timestamp} (unique : UniqueOn (·.id) db.subscribers)

include unique

theorem subscribe_turn (r : SubscribeRequest) (newId : UUID) :
    Turn list email ⟨.subscribe r newId, now, db,
      db.committed (db.mailingPublicSubscribe now r newId)⟩ := by
  rcases result : db.mailingPublicSubscribe now r newId with error | ⟨db', answer⟩
  · exact .kept rfl
  rcases publicSubscribe_cases result with
    rfl | ⟨l, resolved, absent, -, token, written⟩ |
      ⟨l, row, resolved, found, reopened, token, written⟩
  · exact .kept rfl
  · -- A new row is pending with the token of the request, or active if nothing suppresses it.
    rcases subscriptionOf_appended list email (congrArg subscribers written)
        absent with kept | ⟨own_list, own_email, new, becomes⟩
    · exact .kept kept
    have desired : _ ∨ _ ∧ db.suppressedBy r.businessId r.email = false :=
      desiredStatus_publicForm l.doubleOptIn
    rcases desired with pending | ⟨active, clear⟩
    · rw [pending] at token becomes
      obtain ⟨hash, expiresAt, hashed, expires⟩ := token_of_lacksToken token
      refine .issued hash expiresAt ⟨r, newId, rfl, own_list, own_email, hashed, expires,
        by simp [resolved], ?_, _, becomes, rfl, hashed, expires⟩
      intro row found
      exact absurd (new.symm.trans found) (by simp)
    · rw [active] at becomes
      refine .joined r newId _ rfl new becomes rfl ?_
      rw [← own_email]
      exact clear
  · rcases subscriptionOf_updated list email unique (List.mem_of_find?_eq_some found)
        (congrArg subscribers written) fun _ => ⟨rfl, rfl⟩ with kept | ⟨was, becomes⟩
    · exact .kept kept
    -- The row found by the request's address is the row of this address.
    have by_request := subscriptionOf_address found
    have by_address := subscriptionOf_address was
    have address : r.listId = list ∧ r.email = email :=
      ⟨by_request.1.symm.trans by_address.1, by_request.2.symm.trans by_address.2⟩
    obtain ⟨hash, expiresAt, hashed, expires⟩ := token_of_lacksToken token
    refine .issued hash expiresAt ⟨r, newId, rfl, address.1, address.2, hashed, expires,
      by simp [resolved], ?_, _, becomes, rfl, hashed, expires⟩
    intro other found'
    obtain rfl : row = other := Option.some.inj (was.symm.trans found')
    exact reopened

theorem confirm_turn (hash : Nat) :
    Turn list email ⟨.confirm hash, now, db, (db.mailingConfirm now hash).1⟩ := by
  cases found : db.subscribers.find? (db.confirmable now hash) with
  | none => exact .kept (by simp only [rowAfter, rowBefore, mailingConfirm, found])
  | some row =>
    have written : (db.mailingConfirm now hash).1.subscribers =
        updateWhere (fun s => s.id == row.id) (confirmedRow now) db.subscribers := by
      simp only [mailingConfirm, found]
    rcases subscriptionOf_updated list email unique (List.mem_of_find?_eq_some found)
        written fun _ => ⟨rfl, rfl⟩ with kept | ⟨was, becomes⟩
    · exact .kept kept
    have chosen := List.find?_some found
    simp only [confirmable, Bool.and_eq_true, beq_iff_eq, Option.any_eq_true,
      decide_eq_true_eq, Bool.not_eq_true'] at chosen
    obtain ⟨⟨⟨⟨-, hashed⟩, pending⟩, expiresAt, expires, inTime⟩, clear⟩ := chosen
    have address := (subscriptionOf_address was).2
    exact .confirmed hash expiresAt _ rfl ⟨row, was, pending, hashed, expires⟩ inTime becomes rfl
      rfl (address ▸ clear)

theorem unsubscribed_turn {call : ConsentCall} {db' : Database} {subscriber : UUID}
    {campaign : Option UUID} {reason : Option String} (written : db'.subscribers =
      (db.mailingUnsubscribe now subscriber campaign reason).1.subscribers) :
    Turn list email ⟨call, now, db, db'⟩ := by
  have untouched (same : db'.subscribers = db.subscribers) :
      Turn list email ⟨call, now, db, db'⟩ :=
    .kept (by simp only [rowAfter, rowBefore, subscriptionOf, same])
  unfold mailingUnsubscribe at written
  split at written
  · exact untouched written
  next row found =>
  simp only at written
  split at written
  · exact untouched written
  · rcases subscriptionOf_updated list email unique (List.mem_of_find?_eq_some found)
      written fun _ => ⟨rfl, rfl⟩ with kept | ⟨was, becomes⟩
    · exact .kept kept
    · exact .left row _ was becomes rfl

end Passage

/-! ### Keys -/

structure Database.Keyed (db : Database) : Prop where
  subscribers : UniqueOn (·.id) db.subscribers
  deliveries : UniqueOn (·.id) db.deliveries

namespace ConsentCall

open Passage

variable {db : Database} {now : Timestamp}

/-- Feedback leaves every subscriber in place, and the keys of the deliveries. -/
structure Feeds (db db' : Database) : Prop where
  subscribers : RowByRow Fell db.subscribers db'.subscribers
  deliveries : UniqueOn (·.id) db'.deliveries

theorem Feeds.refl (keyed : db.Keyed) : Feeds db db := ⟨.refl Fell.refl _, keyed.deliveries⟩

theorem Feeds.of_feedsBack {db' : Database} (frame : db.FeedsBack db')
    (unique : UniqueOn (·.id) db.deliveries) : Feeds db db' :=
  ⟨frame.subscribers.mono fun _ _ => Fell.of_marked, frame.unique unique⟩

theorem Feeds.keyed {db' : Database} (feeds : Feeds db db') (keyed : db.Keyed) : db'.Keyed :=
  ⟨feeds.subscribers.uniqueOn (fun _ _ fell => fell.1) keyed.subscribers, feeds.deliveries⟩

section

variable (keyed : db.Keyed)

include keyed

theorem webhook_feeds (r : Database.WebhookRequest) (newId : UUID) (locked : ProviderWebhook → Bool) :
    Feeds db ((webhook r newId locked).perform now db) := by
  simp only [perform]
  rcases result : db.mailingProcessProviderWebhook now r newId locked with error | ⟨db', outcome⟩
  · exact .refl keyed
  · have frame := processProviderWebhook_feedsBack keyed.deliveries result
    exact .of_feedsBack frame keyed.deliveries

theorem complete_feeds (id : UUID) (generation : Nat) (messageId : String)
    (locked : ProviderWebhook → Bool) :
    Feeds db ((complete id generation messageId locked).perform now db) := by
  simp only [perform]
  rcases result : db.mailingCompleteDelivery now id generation messageId locked with
    error | ⟨db', answer⟩
  · exact .refl keyed
  · rcases completeDelivery_feedsBack keyed.deliveries result with
      ⟨-, rfl⟩ | ⟨-, frame⟩
    · exact .refl keyed
    · -- The completion itself writes the delivery only.
      have sent : UniqueOn (·.id) (updateWhere (db.heldBy id generation)
          (sentRow messageId) db.deliveries) :=
        keyed.deliveries.updateWhere fun _ _ => rfl
      exact ⟨frame.subscribers.mono fun _ _ => Fell.of_marked, frame.unique sent⟩

theorem markBounced_feeds (named : Delivery → Bool) :
    Feeds db (db.mailingMarkBounced now named).1 := by
  unfold mailingMarkBounced
  split
  · exact .refl keyed
  · refine ⟨.updateWhere Fell.refl fun s _ _ => Fell.of_relay s, ?_⟩
    refine keyed.deliveries.updateWhere fun d _ => ?_
    unfold relayBounced
    split <;> rfl

theorem relayBounce_feeds (recipient : Email) (named : Option (Delivery → Bool)) :
    Feeds db ((relayBounce recipient named).perform now db) := by
  rcases db.suppressBounce_cases now recipient named with same | ⟨id, same⟩
  · rw [perform, same]
    exact ⟨.refl Fell.refl _, keyed.deliveries⟩
  · rw [perform, same]
    exact markBounced_feeds keyed id

theorem subscribe_keyed (r : SubscribeRequest) (newId : UUID) :
    ((subscribe r newId).perform now db).Keyed := by
  simp only [perform]
  rcases result : db.mailingPublicSubscribe now r newId with error | ⟨db', answer⟩
  · exact keyed
  rcases publicSubscribe_cases result with
    rfl | ⟨l, -, -, fresh, -, rfl⟩ | ⟨l, row, -, -, -, -, rfl⟩
  · exact keyed
  · exact ⟨keyed.subscribers.append_fresh fresh, keyed.deliveries⟩
  · exact ⟨keyed.subscribers.updateWhere fun _ _ => rfl, keyed.deliveries⟩

theorem unsubscribed_keyed (subscriber : UUID) (campaign : Option UUID) (reason : Option String) :
    (db.mailingUnsubscribe now subscriber campaign reason).1.Keyed := by
  unfold mailingUnsubscribe
  split
  · exact keyed
  · refine ⟨?_, keyed.deliveries⟩
    simp only
    split
    · exact keyed.subscribers
    · exact keyed.subscribers.updateWhere fun _ _ => rfl

omit keyed in
theorem recordUnsubscribe_keeps (db : Database) (now : Timestamp) (subscriber campaign : UUID) :
    (db.mailingRecordUnsubscribe now subscriber campaign).1.subscribers = db.subscribers ∧
      (db.mailingRecordUnsubscribe now subscriber campaign).1.deliveries = db.deliveries := by
  unfold mailingRecordUnsubscribe
  split <;> exact ⟨rfl, rfl⟩

theorem perform_keyed (call : ConsentCall) : (call.perform now db).Keyed := by
  cases call with
  | subscribe r newId => exact subscribe_keyed keyed r newId
  | confirm hash =>
    simp only [perform, mailingConfirm]
    split
    · exact keyed
    · exact ⟨keyed.subscribers.updateWhere fun _ _ => rfl, keyed.deliveries⟩
  | unsubscribe subscriber campaign =>
    have left : (db.mailingUnsubscribe now subscriber (some campaign) (some "link")).1.Keyed :=
      unsubscribed_keyed keyed _ _ _
    obtain ⟨subscribers, deliveries⟩ := recordUnsubscribe_keeps
      (db.mailingUnsubscribe now subscriber (some campaign) (some "link")).1 now subscriber campaign
    exact ⟨by rw [perform, Database.unsubscribe, subscribers]; exact left.subscribers,
      by rw [perform, Database.unsubscribe, deliveries]; exact left.deliveries⟩
  | s2sUnsubscribe list email =>
    simp only [perform, mailingS2sUnsubscribe]
    split
    · exact keyed
    · exact unsubscribed_keyed keyed _ _ _
  | webhook r newId locked => exact (webhook_feeds keyed r newId locked).keyed keyed
  | complete id generation messageId locked =>
    exact (complete_feeds keyed id generation messageId locked).keyed keyed
  | relayBounce recipient named => exact (relayBounce_feeds keyed recipient named).keyed keyed

end

/-- Every call is one of the turns. -/
theorem perform_turn (list : UUID) (email : Email) (keyed : db.Keyed) (call : ConsentCall) :
    Turn list email ⟨call, now, db, call.perform now db⟩ := by
  cases call with
  | subscribe r newId => exact subscribe_turn keyed.subscribers r newId
  | confirm hash => exact confirm_turn keyed.subscribers hash
  | unsubscribe subscriber campaign =>
    exact unsubscribed_turn keyed.subscribers (recordUnsubscribe_keeps _ now _ campaign).1
  | s2sUnsubscribe l e =>
    simp only [perform, mailingS2sUnsubscribe]
    split
    · exact .kept rfl
    · exact unsubscribed_turn keyed.subscribers rfl
  | webhook r newId locked => exact turn_of_fell (webhook_feeds keyed r newId locked).subscribers
  | complete id generation messageId locked =>
    exact turn_of_fell (complete_feeds keyed id generation messageId locked).subscribers
  | relayBounce recipient named =>
    exact turn_of_fell (relayBounce_feeds keyed recipient named).subscribers

end ConsentCall

end Manyforge
