import Manyforge.Automations.Stepper
import Manyforge.Mailing.Fanout
import Manyforge.Mailing.SendWorker

/-!
# The fencing of the delivery queue

Over every run of any number of workers: which rows a worker's call can change, that
a delivery is never taken up again once it is settled, and what a provider send was
preceded by.
-/
namespace Manyforge

open Table Transition

variable (log : List WorkerEvent) (s t : SendState)

/-- The renewal a worker has just made, if that is the last thing it did and it succeeded. -/
def permitOf (w : Nat) : Option (UUID × Nat) :=
  match log.find? fun event => event.worker == w with
  | some ⟨_, .renew id generation _ (some true)⟩ => some (id, generation)
  | _ => none

/-- Each send of a worker comes directly after its renewal of the same delivery, and at that time
the delivery could be sent. -/
def SendsRenewed : Prop :=
  ∀ newer older w d, log = newer ++ ⟨w, .send d⟩ :: older →
    ∃ db row, (older.find? fun event => event.worker == w) =
        some ⟨w, .renew d.delivery.id d.delivery.claimGeneration db (some true)⟩ ∧
      db.Sendable d.delivery.id d.delivery.claimGeneration row

structure SendInv (s : SendState) : Prop where
  unique : UniqueOn (·.id) s.db.deliveries
  sent : ∀ d ∈ s.db.deliveries, d.providerMessageId.isSome = true → d.AlreadySent
  safe : ∀ w, (s.workers w).Safe (permitOf s.log w)
  renewed : ∀ event ∈ s.log, ∀ id generation db, event.call = .renew id generation db (some true) →
    ∃ row, db.Sendable id generation row
  sends : SendsRenewed s.log

theorem permitOf_cons_other {log : List WorkerEvent} {w v : Nat} (other : v ≠ w) (call : WorkerCall) :
    permitOf (⟨w, call⟩ :: log) v = permitOf log v := by
  have : ((WorkerEvent.mk w call).worker == v) = false := by simpa using Ne.symm other
  simp [permitOf, this]

theorem permitOf_cons_self (w : Nat) (call : WorkerCall) :
    permitOf (⟨w, call⟩ :: log) w = match call with
      | .renew id generation _ (some true) => some (id, generation)
      | _ => none := by
  simp only [permitOf, List.find?_cons, BEq.rfl]
  cases call with
  | renew id generation db answer => rcases answer with _ | _ | _ <;> rfl
  | _ => rfl

theorem permitOf_some {log : List WorkerEvent} {w : Nat} {id : UUID} {generation : Nat}
    (permit : permitOf log w = some (id, generation)) :
    ∃ db, (log.find? fun event => event.worker == w) =
      some ⟨w, .renew id generation db (some true)⟩ := by
  unfold permitOf at permit
  split at permit
  next v id' generation' db found =>
    obtain ⟨rfl, rfl⟩ := Prod.mk.inj (Option.some.inj permit)
    have same : v = w := by simpa using List.find?_some found
    exact ⟨db, same ▸ found⟩
  next => cases permit

theorem SendsRenewed.cons {log : List WorkerEvent} (sends : SendsRenewed log) {event : WorkerEvent}
    (new : ∀ d, event.call = .send d → ∃ db row,
      (log.find? fun other => other.worker == event.worker) = some ⟨event.worker,
        .renew d.delivery.id d.delivery.claimGeneration db (some true)⟩ ∧
      db.Sendable d.delivery.id d.delivery.claimGeneration row) : SendsRenewed (event :: log) := by
  intro newer older w d split
  cases newer with
  | nil =>
    obtain ⟨rfl, rfl⟩ := List.cons.inj split
    exact new d rfl
  | cons first rest => exact sends rest older w d (List.cons.inj split).2

theorem Calls.safe {db db' : Database} {program next : Program} {call : WorkerCall}
    {permit : Option (UUID × Nat)} (calls : Calls db program call db' next)
    (safe : program.Safe permit) (log : List WorkerEvent) (w : Nat) :
    next.Safe (permitOf (⟨w, call⟩ :: log) w) := by
  rw [permitOf_cons_self]
  cases calls with
  | @renew id generation _ now lease =>
    have := safe (some (db.mailingRenewDelivery now id generation lease).2)
    cases answer : (db.mailingRenewDelivery now id generation lease).2 <;> rw [answer] at this <;>
      simpa using this
  | renewUnanswered now lease | renewLost => exact safe none
  | send result => exact safe.2 result
  | _ => exact safe

/-- Every step keeps each send behind a renewal. -/
theorem sendInv_preserved : Preserved SendStep SendInv := by
  intro s t step inv
  have moved := step.queueMoves inv.unique
  have unique := moved.unique inv.unique
  have sent : ∀ d ∈ t.db.deliveries, d.providerMessageId.isSome = true → d.AlreadySent := by
    intro d' member isSent
    rcases moved.origin d' member with ⟨d, old, moves⟩ | unsent
    · exact moves.sent (inv.sent d old) isSent
    · simp [unsent] at isSent
  cases step with
  | claim w call envs idle =>
    refine ⟨unique, sent, fun v => ?_, ?_, inv.sends.cons fun d isSend => by cases isSend⟩
    · by_cases own : v = w
      · subst own
        simp only [SendState.set, ↓reduceIte]
        exact deliverAll_safe _ _
      · simp only [SendState.set, own, ↓reduceIte, permitOf_cons_other own]
        exact inv.safe v
    · intro event member id generation db isRenewal
      rcases List.mem_cons.mp member with rfl | old
      · cases isRenewal
      · exact inv.renewed event old id generation db isRenewal
  | @work w call db' program calls =>
    refine ⟨unique, sent, fun v => ?_, ?_, inv.sends.cons ?_⟩
    · by_cases own : v = w
      · subst own
        simp only [SendState.set, ↓reduceIte]
        exact calls.safe (inv.safe v) _ _
      · simp only [SendState.set, own, ↓reduceIte, permitOf_cons_other own]
        exact inv.safe v
    · intro event member id generation db isRenewal
      rcases List.mem_cons.mp member with rfl | old
      · -- Only an answered renewal can have answered true, and it found the delivery sendable.
        generalize s.workers w = current at calls
        cases calls with
        | renew now lease =>
          simp only [WorkerCall.renew.injEq, Option.some.injEq] at isRenewal
          obtain ⟨rfl, rfl, rfl, renewed⟩ := isRenewal
          exact renew_sendable renewed
        | renewUnanswered now lease | renewLost => simp at isRenewal
        | _ => cases isRenewal
      · exact inv.renewed event old id generation db isRenewal
    · intro d isSend
      have safe := inv.safe w
      generalize s.workers w = current at calls safe
      cases calls with
      | send result =>
        obtain rfl := WorkerCall.send.inj isSend
        obtain ⟨db, found⟩ := permitOf_some safe.1
        obtain ⟨row, sendable⟩ :=
          inv.renewed _ (List.mem_of_find?_eq_some found) _ _ _ rfl
        exact ⟨db, row, found, sendable⟩
      | _ => cases isSend
  | crash w =>
    refine ⟨unique, sent, fun v => ?_, inv.renewed, inv.sends⟩
    by_cases own : v = w
    · simp only [own, ↓reduceIte]
      trivial
    · simp only [own, ↓reduceIte]
      exact inv.safe v
  | cancel ran | webhook ran | enqueue queued unsent fresh | world deliveries =>
    exact ⟨unique, sent, inv.safe, inv.renewed, inv.sends⟩

structure SendStart (s : SendState) : Prop where
  unique : UniqueOn (·.id) s.db.deliveries
  sent : ∀ d ∈ s.db.deliveries, d.providerMessageId.isSome = true → d.AlreadySent
  idle : ∀ w, s.workers w = .done
  unlogged : s.log = []

theorem SendStart.inv {s : SendState} (start : SendStart s) : SendInv s where
  unique := start.unique
  sent := start.sent
  safe w := by rw [start.idle w]; trivial
  renewed event member := by rw [start.unlogged] at member; cases member
  sends newer older w d split := by rw [start.unlogged] at split; simp at split

/-- A call that carries a generation changes the row it holds under that generation. -/
def ChangesHeldOnly : Prop :=
  ∀ event, t.log = event :: s.log → ∀ id generation, event.call.holds = some (id, generation) →
    ∀ d ∈ s.db.deliveries, ∀ d' ∈ t.db.deliveries, d'.id = d.id → d' ≠ d →
      Database.Held id generation d

/-- The same, but completing the delivery that the call holds also applies stored feedback to other
deliveries whose messages have left, which changes their status and nothing else. -/
def ChangesHeldOrSent : Prop :=
  ∀ event, t.log = event :: s.log → ∀ id generation, event.call.holds = some (id, generation) →
    ∀ d ∈ s.db.deliveries, ∀ d' ∈ t.db.deliveries, d'.id = d.id → d' ≠ d →
      Database.Held id generation d ∨
        (event.call.completes = true ∧ (∃ own ∈ s.db.deliveries, Database.Held id generation own) ∧
          d.AlreadySent ∧ Database.FedBack d d')

/-- A delivery that is settled stays settled. -/
def NeverReopened : Prop :=
  ∀ d ∈ s.db.deliveries, d.status.Terminal → ∀ d' ∈ t.db.deliveries, d'.id = d.id →
    d'.status.Terminal

theorem changesHeldOrSent (step : SendStep s t) (inv : SendInv s) : ChangesHeldOrSent s t := by
  intro event logged id generation holds d member d' member' same changed
  cases step with
  | claim w call envs idle =>
    obtain ⟨rfl, _⟩ := List.cons.inj logged
    cases holds
  | work w calls =>
    obtain ⟨rfl, _⟩ := List.cons.inj logged
    rcases calls.rows inv.unique with ⟨none, _⟩ | ⟨id', generation', holds', rows⟩
    · simp [none] at holds
    · obtain ⟨rfl, rfl⟩ : id' = id ∧ generation' = generation := by
        simpa using holds'.symm.trans holds
      -- The row `d'` comes from is `d`, because ids are unique.
      obtain ⟨d'', member'', moves⟩ := rows.exists_before member'
      have own := (moves.moves).id
      obtain rfl := inv.unique.eq_of_key member'' member (own.symm.trans same)
      rcases moves with kept | ⟨held, _⟩ | ⟨⟨completes, holds⟩, sent, fed⟩
      · exact absurd kept changed
      · exact .inl held
      · exact .inr ⟨completes, holds, inv.sent _ member sent, fed⟩
  | _ => exact absurd logged.symm (by simp)

theorem queueMoves_reopened {s t : SendState} (inv : SendInv t)
    (moves : ∀ d ∈ s.db.deliveries, ∃ d' ∈ t.db.deliveries, d.Moves d') : NeverReopened s t := by
  intro d member ended d' member' same
  obtain ⟨d'', member'', moved⟩ := moves d member
  obtain rfl := inv.unique.eq_of_key member'' member' (moved.id.trans same.symm)
  exact moved.terminal ended

/-- Only a delivery whose message has left ever has a provider's message id. -/
theorem message_id_after_send {start s : SendState} (starts : SendStart start)
    (run : Reaches SendStep start s) :
    ∀ d ∈ s.db.deliveries, d.providerMessageId.isSome = true → d.AlreadySent :=
  (sendInv_preserved.reaches run starts.inv).sent

namespace Sample

def listed (id : UUID) (email : Email) : Subscriber :=
  ⟨id, 1, 1, 20, email, .active, none, none, none, none, none⟩

def campaign : Campaign :=
  ⟨35, 1, 1, 20, some 40, [], .sending, none, some 0, none, none, true, 2, 0⟩

def campaignDelivery (id subscriber : UUID) (email : Email) : Delivery :=
  Database.newCampaignDelivery 0 campaign (fun _ => id) (listed subscriber email)

def profile : SendingProfile := ⟨40, 1, 1, .resend, .verified, .ready⟩

def campaigned : Database :=
  { database with
    subscribers := [listed 50 "ada@example.com", listed 51 "bob@example.com"]
    campaigns := [campaign]
    deliveries := [campaignDelivery 90 50 "ada@example.com", campaignDelivery 91 51 "bob@example.com"] }

def claimCall : Database.ClaimCall := ⟨0, 10, seconds 120, fun _ => false, fun _ => .claim⟩

def claimedRow (id subscriber : UUID) (email : Email) : Database.ClaimedDelivery :=
  ⟨Database.ClaimChange.claim.apply 0 (seconds 120) (campaignDelivery id subscriber email), profile⟩

def ada : Database.ClaimedDelivery := claimedRow 90 50 "ada@example.com"

def bob : Database.ClaimedDelivery := claimedRow 91 51 "bob@example.com"

theorem claims_both : (campaigned.mailingClaimDeliveries claimCall).2 = [ada, bob] := by decide

def deliverEnv : DeliverEnv :=
  ⟨0, true, .ok (), true, .ok (), .ok (), .ok (), fun _ _ _ => ⟨"failed", 0⟩, id⟩

/-- The provider reports that the message with id `m` bounced for both recipients. -/
def bounces : Database.WebhookRequest :=
  ⟨40, .resend, "evt-9", 100, 200,
    [⟨"m", "ada@example.com", .bounce, none⟩, ⟨"m", "bob@example.com", .bounce, none⟩]⟩

/-- One worker claims both deliveries and sends them one after the other; the provider gives both
messages one id, and its report arrives between the two completions. -/
def dbClaimed : Database := (campaigned.mailingClaimDeliveries claimCall).1

def dbRenewed : Database := (dbClaimed.mailingRenewDelivery 0 90 1 (seconds 120)).1

def firstComplete := dbRenewed.mailingCompleteDelivery 0 90 1 "m" fun _ => false

def dbCompleted : Database := resultOf dbRenewed firstComplete

def bounceCall := dbCompleted.mailingProcessProviderWebhook 0 bounces 95 fun _ => false

def dbReported : Database := resultOf dbCompleted bounceCall

def dbRenewedBob : Database := (dbReported.mailingRenewDelivery 0 91 1 (seconds 120)).1

def secondComplete := dbRenewedBob.mailingCompleteDelivery 0 91 1 "m" fun _ => false

def dbFinal : Database := resultOf dbRenewedBob secondComplete

def idle : SendState := ⟨campaigned, fun _ => .done, []⟩

def thenBob : Program := deliver deliverEnv bob .done

def working : SendState := idle.set 0 (deliver deliverEnv ada thenBob) dbClaimed .claim

def renewedAda : SendState :=
  working.set 0 (sendDelivery deliverEnv ada thenBob) dbRenewed (.renew 90 1 dbClaimed (some true))

def sentAda : SendState := renewedAda.set 0 (.complete 90 1 "m" thenBob) dbRenewed (.send ada)

def completedAda : SendState := sentAda.set 0 thenBob dbCompleted (.complete 90 1)

def bounced : SendState := { completedAda with db := dbReported }

def renewedBob : SendState :=
  bounced.set 0 (sendDelivery deliverEnv bob .done) dbRenewedBob (.renew 91 1 dbReported (some true))

def sentBob : SendState := renewedBob.set 0 (.complete 91 1 "m" .done) dbRenewedBob (.send bob)

def completedBob : SendState := sentBob.set 0 .done dbFinal (.complete 91 1)

theorem idle_starts : SendStart idle where
  unique := by decide
  sent d member isSent := by
    have unsent : ∀ d ∈ idle.db.deliveries, d.providerMessageId.isSome = false := by decide
    simp [unsent d member] at isSent
  idle _ := rfl
  unlogged := rfl

theorem worker_claims : SendStep idle working := by
  have step := SendStep.claim idle 0 claimCall [deliverEnv, deliverEnv] rfl
  rw [show (idle.db.mailingClaimDeliveries claimCall).2 = [ada, bob] from claims_both] at step
  exact step

theorem worker_renews {s : SendState} {d : Database.ClaimedDelivery} {next : Program}
    (program : s.workers 0 = deliver deliverEnv d next)
    (answer : (s.db.mailingRenewDelivery 0 d.delivery.id d.delivery.claimGeneration
      (seconds 120)).2 = true) :
    SendStep s (s.set 0 (sendDelivery deliverEnv d next)
      (s.db.mailingRenewDelivery 0 d.delivery.id d.delivery.claimGeneration (seconds 120)).1
      (.renew d.delivery.id d.delivery.claimGeneration s.db (some true))) := by
  have calls : Calls s.db (deliver deliverEnv d next) _ _ _ := .renew 0 (seconds 120)
  rw [answer, ← program] at calls
  exact .work s 0 calls

theorem worker_sends (s : SendState) (d : Database.ClaimedDelivery) (next : Program)
    (program : s.workers 0 = sendDelivery deliverEnv d next) :
    SendStep s (s.set 0 (.complete d.delivery.id d.delivery.claimGeneration "m" next) s.db
      (.send d)) := by
  have calls : Calls s.db (sendDelivery deliverEnv d next) _ _ _ := .send (.ok "m")
  rw [← program] at calls
  exact .work s 0 calls

theorem fencing_run : Run SendStep idle [working, renewedAda, sentAda, completedAda, bounced,
    renewedBob, sentBob, completedBob] := by
  refine List.isChain_cons_cons.mpr ⟨worker_claims, ?_⟩
  refine List.isChain_cons_cons.mpr ⟨worker_renews rfl (by decide), ?_⟩
  refine List.isChain_cons_cons.mpr ⟨worker_sends renewedAda ada thenBob rfl, ?_⟩
  refine List.isChain_cons_cons.mpr ⟨.work sentAda 0 (.complete 0 (fun _ => false)
    (eq_ok_of_answer dbRenewed (by decide : answerOf firstComplete = some true))), ?_⟩
  refine List.isChain_cons_cons.mpr ⟨.webhook completedAda
    (eq_ok_of_answer dbCompleted (by decide : answerOf bounceCall = some .pending)), ?_⟩
  refine List.isChain_cons_cons.mpr ⟨worker_renews rfl (by decide), ?_⟩
  refine List.isChain_cons_cons.mpr ⟨worker_sends renewedBob bob .done rfl, ?_⟩
  exact List.isChain_cons_cons.mpr ⟨.work sentBob 0 (.complete 0 (fun _ => false)
    (eq_ok_of_answer dbRenewedBob (by decide : answerOf secondComplete = some true))),
    List.isChain_singleton _⟩

theorem ada_left : (completedBob.db.deliveries.head (by decide)).AlreadySent :=
  message_id_after_send idle_starts (fencing_run.reaches _ (by simp)) _ (List.head_mem _) rfl

end Sample

end Manyforge
