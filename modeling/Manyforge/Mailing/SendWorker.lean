import Manyforge.Lib.Transition
import Manyforge.Mailing.FeedbackFrame
import Manyforge.Mailing.Queue

/-!
# The send worker

`SendWorker.deliver` as a program: a tree of calls to the database and to the
provider, branching on their answers. Any number of workers run such programs on
one database; a worker can stop anywhere, and a call whose answer is lost may or
may not have been carried out.
-/
namespace Manyforge

open Table Transition

/-! ### The program of one delivery -/

open Database (ClaimedDelivery)

/-- The calls of a worker. `none` answers a renewal whose call failed. -/
inductive Program where
  | done
  | release (id : UUID) (generation : Nat) (notBefore : Timestamp) (next : Program)
  | fail (id : UUID) (generation : Nat) (error status : String) (notBefore : Timestamp)
      (next : Program)
  | renew (id : UUID) (generation : Nat) (next : Option Bool → Program)
  | send (delivery : ClaimedDelivery) (next : Except String String → Program)
  | complete (id : UUID) (generation : Nat) (messageId : String) (next : Program)

structure Classification where
  status : String
  notBefore : Timestamp

/-- What the rest of the process answers while a delivery is prepared: the limiter, the profile and
provider registry, the compiler and renderer, and the classification of an error. -/
structure DeliverEnv where
  now : Timestamp
  limiterAllows : Bool
  resolveProfile : Except String Unit
  dependencies : Bool
  (resolveProvider compile render : Except String Unit)
  classify : String → Nat → Timestamp → Classification
  safeProviderMessage : String → String

variable (env : DeliverEnv) (d : ClaimedDelivery)

/-- `SendWorker.fail`. -/
def failDelivery (error : String) (next : Program) : Program :=
  let classification := env.classify error d.delivery.attempts env.now
  .fail d.delivery.id d.delivery.claimGeneration (env.safeProviderMessage error)
    classification.status classification.notBefore next

/-- The end of `SendWorker.deliver`, once the lease is renewed. -/
def sendDelivery (next : Program) : Program :=
  .send d fun
    | .error error => failDelivery env d error next
    | .ok providerId => .complete d.delivery.id d.delivery.claimGeneration providerId next

/-- `SendWorker.deliver`, followed by `next`. -/
def deliver (next : Program) : Program :=
  if env.limiterAllows = false then
    .release d.delivery.id d.delivery.claimGeneration (env.now + seconds 1) next
  else match env.resolveProfile with
    | .error error => failDelivery env d error next
    | .ok _ =>
      if env.dependencies = false then
        failDelivery env d "mailing delivery dependencies are unavailable" next
      else match env.resolveProvider with
        | .error error => failDelivery env d error next
        | .ok _ => match env.compile with
          | .error error => failDelivery env d error next
          | .ok _ => match env.render with
            | .error error => failDelivery env d error next
            | .ok _ =>
              .renew d.delivery.id d.delivery.claimGeneration fun
                | none => next
                | some false => next
                | some true => sendDelivery env d next

/-- The loop of `SendWorker.Tick` over what it claimed. -/
def deliverAll (claimed : List (DeliverEnv × ClaimedDelivery)) : Program :=
  claimed.foldr (fun (env, d) next => deliver env d next) .done

/-- Every send follows at once a renewal of the same delivery that answered true; `permit` is the
renewal that has just been made. -/
def Program.Safe : Option (UUID × Nat) → Program → Prop
  | _, done => True
  | _, release _ _ _ next => next.Safe none
  | _, fail _ _ _ _ _ next => next.Safe none
  | _, renew id generation next => ∀ answer,
      (next answer).Safe (if answer = some true then some (id, generation) else none)
  | permit, send d next => permit = some (d.delivery.id, d.delivery.claimGeneration) ∧
      ∀ result, (next result).Safe none
  | _, complete _ _ _ next => next.Safe none

/-- `deliver` sends only right after a renewal. -/
theorem deliver_safe {next : Program} (rest : ∀ permit, next.Safe permit)
    (permit : Option (UUID × Nat)) : (deliver env d next).Safe permit := by
  unfold deliver
  split
  · exact rest none
  split
  · exact rest none
  split
  · exact rest none
  split
  · exact rest none
  split
  · exact rest none
  split
  · exact rest none
  · rintro (_ | _ | _)
    · exact rest none
    · exact rest none
    · refine ⟨rfl, ?_⟩
      rintro (_ | _)
      · exact rest none
      · exact rest none

theorem deliverAll_safe (claimed : List (DeliverEnv × ClaimedDelivery))
    (permit : Option (UUID × Nat)) : (deliverAll claimed).Safe permit := by
  induction claimed generalizing permit with
  | nil => trivial
  | cons first rest ih => exact deliver_safe first.1 first.2 ih permit

/-! ### Workers on one database -/

/-- What a worker did. A renewal records the database it was made in and what it answered. -/
inductive WorkerCall where
  | claim
  | release (id : UUID) (generation : Nat)
  | fail (id : UUID) (generation : Nat)
  | renew (id : UUID) (generation : Nat) (db : Database) (answer : Option Bool)
  | send (delivery : ClaimedDelivery)
  | complete (id : UUID) (generation : Nat)

/-- The delivery and generation a call carries. -/
def WorkerCall.holds : WorkerCall → Option (UUID × Nat)
  | release id generation => some (id, generation)
  | fail id generation => some (id, generation)
  | renew id generation _ _ => some (id, generation)
  | complete id generation => some (id, generation)
  | _ => none

def WorkerCall.completes : WorkerCall → Bool
  | complete .. => true
  | _ => false

structure WorkerEvent where
  worker : Nat
  call : WorkerCall

structure SendState where
  db : Database
  workers : Nat → Program
  /-- The calls of all workers, newest first. -/
  log : List WorkerEvent

def SendState.set (s : SendState) (w : Nat) (program : Program) (db : Database) (call : WorkerCall) :
    SendState where
  db := db
  workers v := if v = w then program else s.workers v
  log := ⟨w, call⟩ :: s.log

/-- One call of a program. -/
inductive Calls (db : Database) : Program → WorkerCall → Database → Program → Prop
  | release {id generation notBefore next} (now : Timestamp) :
      Calls db (.release id generation notBefore next) (.release id generation)
        (db.mailingReleaseDelivery now id generation (some notBefore)).1 next
  | fail {id generation error status notBefore next db' answer} (now : Timestamp)
      (ran : db.mailingFailDelivery now id generation error status (some notBefore) =
        .ok (db', answer)) :
      Calls db (.fail id generation error status notBefore next) (.fail id generation) db' next
  | renew {id generation next} (now : Timestamp) (lease : Int) :
      Calls db (.renew id generation next)
        (.renew id generation db (some (db.mailingRenewDelivery now id generation lease).2))
        (db.mailingRenewDelivery now id generation lease).1
        (next (some (db.mailingRenewDelivery now id generation lease).2))
  | renewUnanswered {id generation next} (now : Timestamp) (lease : Int) :
      Calls db (.renew id generation next) (.renew id generation db none)
        (db.mailingRenewDelivery now id generation lease).1 (next none)
  | renewLost {id generation next} :
      Calls db (.renew id generation next) (.renew id generation db none) db (next none)
  | send {d next} (result : Except String String) :
      Calls db (.send d next) (.send d) db (next result)
  | complete {id generation messageId next db' answer} (now : Timestamp)
      (locked : ProviderWebhook → Bool)
      (ran : db.mailingCompleteDelivery now id generation messageId locked = .ok (db', answer)) :
      Calls db (.complete id generation messageId next) (.complete id generation) db' next
  | releaseLost {id generation notBefore next} :
      Calls db (.release id generation notBefore next) (.release id generation) db next
  | failLost {id generation error status notBefore next} :
      Calls db (.fail id generation error status notBefore next) (.fail id generation) db next
  | completeLost {id generation messageId next} :
      Calls db (.complete id generation messageId next) (.complete id generation) db next

/-- The workers, the campaign API, the provider's webhooks and the rest of the program, which adds
queued deliveries and is otherwise free in every other table. -/
inductive SendStep : SendState → SendState → Prop
  | claim (s : SendState) (w : Nat) (call : Database.ClaimCall) (envs : List DeliverEnv)
      (idle : s.workers w = .done) :
      SendStep s (s.set w (deliverAll (envs.zip (s.db.mailingClaimDeliveries call).2))
        (s.db.mailingClaimDeliveries call).1 .claim)
  | work (s : SendState) (w : Nat) {call : WorkerCall} {db' : Database} {program : Program}
      (calls : Calls s.db (s.workers w) call db' program) : SendStep s (s.set w program db' call)
  | crash (s : SendState) (w : Nat) :
      SendStep s { s with workers := fun v => if v = w then .done else s.workers v }
  | cancel (s : SendState) {now : Timestamp} {campaign : UUID} {authorized : UUID → Bool}
      {db' : Database} {answer : Bool}
      (ran : s.db.mailingCancelCampaign now campaign authorized = .ok (db', answer)) :
      SendStep s { s with db := db' }
  | webhook (s : SendState) {now : Timestamp} {r : Database.WebhookRequest} {newId : UUID}
      {locked : ProviderWebhook → Bool} {db' : Database} {outcome : Database.WebhookOutcome}
      (ran : s.db.mailingProcessProviderWebhook now r newId locked = .ok (db', outcome)) :
      SendStep s { s with db := db' }
  | enqueue (s : SendState) {row : Delivery} (queued : row.status = .queued)
      (unsent : row.providerMessageId = none) (fresh : ∀ d ∈ s.db.deliveries, d.id ≠ row.id) :
      SendStep s { s with db := { s.db with deliveries := s.db.deliveries ++ [row] } }
  | world (s : SendState) {db' : Database} (deliveries : db'.deliveries = s.db.deliveries) :
      SendStep s { s with db := db' }

/-! ### Rows -/

/-- The message of the delivery has left, whatever was learned about it since. -/
def Delivery.AlreadySent (d : Delivery) : Prop := ∃ v : Severity, d.status = v.status

def DeliveryStatus.Terminal (status : DeliveryStatus) : Prop := status ≠ .queued ∧ status ≠ .sending

theorem Delivery.AlreadySent.terminal {d : Delivery} (sent : d.AlreadySent) : d.status.Terminal := by
  obtain ⟨v, status⟩ := sent
  rw [status]
  cases v <;> exact ⟨by decide, by decide⟩

/-- What can become of a row: its id stays, it is not taken up again once it is terminal, and it
has a provider's message id only if its message has left. -/
structure Delivery.Moves (d d' : Delivery) : Prop where
  id : d'.id = d.id
  terminal : d.status.Terminal → d'.status.Terminal
  sent : (d.providerMessageId.isSome = true → d.AlreadySent) →
    d'.providerMessageId.isSome = true → d'.AlreadySent

theorem Delivery.Moves.refl (d : Delivery) : d.Moves d :=
  ⟨rfl, fun ended => ended, fun held => held⟩

theorem Delivery.Moves.trans (a b c : Delivery) (first : a.Moves b) (second : b.Moves c) :
    a.Moves c :=
  ⟨second.id.trans first.id, fun ended => second.terminal (first.terminal ended),
    fun held => second.sent (first.sent held)⟩

theorem Delivery.Moves.ofOpen {d d' : Delivery} (same : d'.id = d.id)
    (message : d'.providerMessageId = d.providerMessageId)
    (waits : d.status = .queued ∨ d.status = .sending) : d.Moves d' := by
  have unended : ¬ d.status.Terminal := by
    rintro ⟨notQueued, notSending⟩
    exact waits.elim notQueued notSending
  exact ⟨same, fun ended => absurd ended unended, fun held sent =>
    absurd (held (message ▸ sent)).terminal unended⟩

theorem fedBack_moves {d d' : Delivery} (fed : Database.FedBack d d') : d.Moves d' := by
  obtain ⟨same, status⟩ := fed
  have message : d'.providerMessageId = d.providerMessageId := by rw [same]
  have learned : (d'.status = .delivered ∨ d'.status = .bounced ∨ d'.status = .complained) →
      d'.AlreadySent := by
    rintro (status | status | status)
    · exact ⟨.delivered, status⟩
    · exact ⟨.bounced, status⟩
    · exact ⟨.complained, status⟩
  refine ⟨by rw [same], fun ended => ?_, fun held sent => ?_⟩
  · rcases status with kept | ⟨_, changed⟩
    · rw [kept]; exact ended
    · exact (learned changed).terminal
  · rcases status with kept | ⟨_, changed⟩
    · obtain ⟨v, status⟩ := held (message ▸ sent)
      exact ⟨v, kept.trans status⟩
    · exact learned changed

namespace Database

variable {db db' : Database}

theorem claim_moves (unique : UniqueOn (·.id) db.deliveries) (call : ClaimCall) :
    RowByRow Delivery.Moves db.deliveries (db.mailingClaimDeliveries call).1.deliveries := by
  have moves : ∀ d ∈ db.deliveries, d.Moves (db.claimRow call d) := by
    intro d member
    rcases claimRow_cases unique member with kept | ⟨change, candidate, changed⟩
    · rw [kept]; exact .refl d
    · rw [changed]
      refine .ofOpen (by cases change <;> rfl) (by cases change <;> rfl) ?_
      exact (claimCandidate_open candidate).imp id And.left
  exact List.forall₂_map_right_iff.mpr (List.forall₂_same.mpr moves)

theorem heldBy_iff {id : UUID} {generation : Nat} {d : Delivery} :
    db.heldBy id generation d = true ↔ d.id = id ∧ d.status = .sending ∧
      d.claimGeneration = generation ∧ db.rootWriteAllowed d.tenantRootId = true := by
  simp [heldBy, and_assoc]

/-- The row is the one the call holds. -/
def Held (id : UUID) (generation : Nat) (d : Delivery) : Prop :=
  d.id = id ∧ d.status = .sending ∧ d.claimGeneration = generation

/-- What a call with a generation may do to a row: move the row it holds, and, when it completes the
delivery it holds, apply feedback to one whose message has left. -/
def CallMoves (id : UUID) (generation : Nat) (completes : Prop) (d d' : Delivery) : Prop :=
  d' = d ∨ (Held id generation d ∧ d.Moves d') ∨
    (completes ∧ d.providerMessageId.isSome = true ∧ FedBack d d')

theorem CallMoves.moves {id : UUID} {generation : Nat} {completes : Prop} (d d' : Delivery)
    (moves : CallMoves id generation completes d d') : d.Moves d' := by
  rcases moves with rfl | ⟨_, moves⟩ | ⟨_, _, fed⟩
  · exact .refl d'
  · exact moves
  · exact fedBack_moves fed

theorem updateHeld_moves (db : Database) (id : UUID) (generation : Nat) (completes : Prop)
    (also : Delivery → Bool) {change : Delivery → Delivery} (same : ∀ d, (change d).id = d.id)
    (message : ∀ d, (change d).providerMessageId = d.providerMessageId) :
    RowByRow (CallMoves id generation completes) db.deliveries
      (db.updateHeld id generation also change).1.deliveries := by
  refine (db.updateHeld_rows id generation also change).mono ?_
  rintro d d' (rfl | ⟨held, _, rfl⟩)
  · exact .inl rfl
  · obtain ⟨own, sending, current, _⟩ := heldBy_iff.mp held
    exact .inr (.inl ⟨⟨own, sending, current⟩, .ofOpen (same d) (message d) (.inr sending)⟩)

theorem sentRow_moves (messageId : String) {d : Delivery} (sending : d.status = .sending) :
    d.Moves (sentRow messageId d) :=
  ⟨rfl, fun ended => absurd sending ended.2, fun _ _ => ⟨.sent, rfl⟩⟩

theorem complete_moves {now : Timestamp} {id : UUID} {generation : Nat} {messageId : String}
    {locked : ProviderWebhook → Bool} {answer : Bool} (unique : UniqueOn (·.id) db.deliveries)
    (ran : db.mailingCompleteDelivery now id generation messageId locked = .ok (db', answer)) :
    RowByRow (CallMoves id generation (∃ own ∈ db.deliveries, Held id generation own))
      db.deliveries db'.deliveries := by
  rcases completeDelivery_feedsBack unique ran with ⟨_, rfl⟩ | ⟨⟨own, member, holds⟩, frame⟩
  · exact .refl (fun _ => .inl rfl) _
  · -- First the row is marked as sent, then feedback is applied to it and to others.
    have first : RowByRow (fun d d' => d' = d ∨ (Held id generation d ∧ d.Moves d'))
        db.deliveries (updateWhere (db.heldBy id generation) (sentRow messageId) db.deliveries) := by
      refine .updateWhere (fun _ => .inl rfl) fun d _ held => .inr ?_
      obtain ⟨own, sending, current, _⟩ := heldBy_iff.mp held
      exact ⟨⟨own, sending, current⟩, sentRow_moves messageId sending⟩
    refine first.comp ?_ frame.deliveries
    rintro a b c (rfl | ⟨held, moves⟩) fed
    · by_cases kept : c = b
      · exact .inl kept
      · obtain ⟨itself, sending, current, _⟩ := heldBy_iff.mp holds
        refine .inr (.inr ⟨⟨own, member, itself, sending, current⟩, ?_, fed⟩)
        rcases fed.2 with same | ⟨sent, _⟩
        · exact absurd (by rw [fed.1, same]) kept
        · exact sent
    · exact .inr (.inl ⟨held, moves.trans _ _ _ (fedBack_moves fed)⟩)

theorem cancel_moves {now : Timestamp} {campaign : UUID} {authorized : UUID → Bool} {answer : Bool}
    (ran : db.mailingCancelCampaign now campaign authorized = .ok (db', answer)) :
    RowByRow Delivery.Moves db.deliveries db'.deliveries := by
  simp only [mailingCancelCampaign] at ran
  split at ran
  · obtain ⟨rfl, _⟩ := Prod.mk.inj (Except.ok.inj ran)
    exact .refl Delivery.Moves.refl _
  · split at ran
    · cases ran
    · obtain ⟨rfl, _⟩ := Prod.mk.inj (Except.ok.inj ran)
      refine .updateWhere Delivery.Moves.refl fun d _ waits => .ofOpen rfl rfl (.inl ?_)
      simp only [Bool.and_eq_true, beq_iff_eq] at waits
      exact waits.2

end Database

/-! ### Runs -/

/-- What a step does to the table: every row moves, and rows that are added are queued. -/
structure QueueMoves (rows rows' : List Delivery) : Prop where
  moves : ∀ d ∈ rows, ∃ d' ∈ rows', d.Moves d'
  origin : ∀ d' ∈ rows', (∃ d ∈ rows, d.Moves d') ∨ d'.providerMessageId = none
  unique : UniqueOn (·.id) rows → UniqueOn (·.id) rows'

theorem QueueMoves.ofRows {rows rows' : List Delivery} (moves : RowByRow Delivery.Moves rows rows') :
    QueueMoves rows rows' :=
  ⟨fun _ member => moves.exists_after member, fun _ member => .inl (moves.exists_before member),
    moves.uniqueOn fun _ _ moved => moved.id⟩

theorem QueueMoves.refl (rows : List Delivery) : QueueMoves rows rows :=
  .ofRows (.refl Delivery.Moves.refl rows)

theorem Calls.rows {db db' : Database} {program next : Program} {call : WorkerCall}
    (unique : UniqueOn (·.id) db.deliveries) (calls : Calls db program call db' next) :
    (call.holds = none ∧ db' = db) ∨ ∃ id generation, call.holds = some (id, generation) ∧
      RowByRow (Database.CallMoves id generation (call.completes = true ∧
        ∃ own ∈ db.deliveries, Database.Held id generation own)) db.deliveries db'.deliveries := by
  have same (id : UUID) (generation : Nat) (completes : Prop) :
      RowByRow (Database.CallMoves id generation completes) db.deliveries db.deliveries :=
    .refl (fun _ => .inl rfl) _
  cases calls with
  | release now | renew now lease | renewUnanswered now lease =>
    exact .inr ⟨_, _, rfl, db.updateHeld_moves _ _ _ _ (fun _ => rfl) fun _ => rfl⟩
  | fail now ran =>
    simp only [Database.mailingFailDelivery] at ran
    split at ran
    · cases ran
    · obtain ⟨rfl, _⟩ := Prod.mk.inj (Except.ok.inj ran)
      exact .inr ⟨_, _, rfl, db.updateHeld_moves _ _ _ _ (fun _ => rfl) fun _ => rfl⟩
  | renewLost | releaseLost | failLost | completeLost => exact .inr ⟨_, _, rfl, same _ _ _⟩
  | send result => exact .inl ⟨rfl, rfl⟩
  | complete now locked ran =>
    refine .inr ⟨_, _, rfl, (Database.complete_moves unique ran).mono fun _ _ => ?_⟩
    exact .imp id (.imp id (.imp (.intro rfl) id))

theorem SendStep.queueMoves {s t : SendState} (unique : UniqueOn (·.id) s.db.deliveries)
    (step : SendStep s t) : QueueMoves s.db.deliveries t.db.deliveries := by
  cases step with
  | claim w call envs idle => exact .ofRows (Database.claim_moves unique call)
  | work w calls =>
    rcases calls.rows unique with ⟨_, rfl⟩ | ⟨_, _, _, rows⟩
    · exact .refl _
    · exact .ofRows (rows.mono Database.CallMoves.moves)
  | crash w => exact .refl _
  | cancel ran => exact .ofRows (Database.cancel_moves ran)
  | webhook ran =>
    exact .ofRows ((Database.processProviderWebhook_feedsBack unique ran).deliveries.mono
      fun _ _ => fedBack_moves)
  | @enqueue row queued unsent fresh =>
    refine ⟨fun d member => ⟨d, List.mem_append_left _ member, .refl d⟩, fun d' member => ?_,
      fun unique => unique.append_fresh fresh⟩
    rcases List.mem_append.mp member with old | new
    · exact .inl ⟨d', old, .refl d'⟩
    · rw [List.mem_singleton] at new
      exact .inr (new ▸ unsent)
  | world deliveries =>
    simp only [deliveries]
    exact .refl _

/-- The delivery may be sent: its source runs, its subscriber is active, its address is not
suppressed. -/
structure Database.Sendable (db : Database) (id : UUID) (generation : Nat) (d : Delivery) : Prop where
  member : d ∈ db.deliveries
  held : Database.Held id generation d
  campaign : d.sourceKind = .campaign → ∃ c ∈ db.campaigns, d.campaignId = some c.id ∧
    c.status = .sending
  automation : d.sourceKind = .automation → ∃ e ∈ db.enrollments,
    d.automationEnrollmentId = some e.id ∧ (e.status = .active ∨ e.status = .completed) ∧
      ∃ a ∈ db.automations, a.id = e.automationId ∧ a.status = .active
  subscriber : ∃ s ∈ db.subscribers, s.id = d.subscriberId ∧ s.status = .active
  unsuppressed : db.suppressed d.businessId d.email = false

theorem renew_sendable {db : Database} {now : Timestamp} {id : UUID} {generation : Nat}
    {lease : Int} (renewed : (db.mailingRenewDelivery now id generation lease).2 = true) :
    ∃ d, db.Sendable id generation d := by
  obtain ⟨d, member, chosen⟩ := List.any_eq_true.mp renewed
  simp only [Bool.and_eq_true] at chosen
  obtain ⟨held, sendable⟩ := chosen
  obtain ⟨own, sending, current, _⟩ := Database.heldBy_iff.mp held
  simp only [Database.deliverySendable, Bool.and_eq_true, Bool.or_eq_true, Bool.not_eq_true',
    List.any_eq_true, Option.any_eq_true, beq_iff_eq] at sendable
  obtain ⟨⟨⟨⟨_, subscriber⟩, _⟩, source⟩, unsuppressed⟩ := sendable
  refine ⟨d, member, ⟨own, sending, current⟩, fun kind => ?_, fun kind => ?_, ?_, unsuppressed⟩
  · rcases source with ⟨other, _⟩ | ⟨_, cid, isCampaign, c, c_mem, ⟨⟨c_id, _⟩, _⟩, running⟩
    · simp [kind] at other
    · exact ⟨c, c_mem, by rw [c_id]; exact isCampaign, running⟩
  · rcases source with ⟨_, e, e_mem, found⟩ | ⟨other, _⟩
    · obtain ⟨⟨⟨⟨⟨⟨⟨⟨e_id, _⟩, _⟩, _⟩, _⟩, _⟩, open_⟩, a, a_mem, ⟨⟨a_id, _⟩, _⟩, active⟩, _⟩ := found
      exact ⟨e, e_mem, e_id, open_, a, a_mem, a_id, active⟩
    · simp [kind] at other
  · obtain ⟨x, x_mem, ⟨⟨⟨x_id, _⟩, _⟩, active⟩, _⟩ := subscriber
    exact ⟨x, x_mem, x_id, active⟩

end Manyforge
