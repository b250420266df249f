import Manyforge.Automations.Stepper
import Manyforge.Mailing.Consent

/-!
# Consent safety

A token that a row holds was stored by a public subscription, and the row has held
it ever since (`held_since`). That nobody is mailed again after an unsubscribe without
a confirmation of a newer token, and that no token counts twice, are consequences.
-/
namespace Manyforge

open Table Transition

/-- The history ends in `db`, and each call started where the one before it ended. -/
def Linked : Database → List Passage → Prop
  | _, [] => True
  | db, p :: older => p.after = db ∧ Linked p.before older

theorem Linked.split {db : Database} {newer older : List Passage} {p : Passage}
    (linked : Linked db (newer ++ p :: older)) : Linked p.before older := by
  induction newer generalizing db with
  | nil => exact linked.2
  | cons first rest ih => exact ih linked.2

section History

variable {list : UUID} {email : Email} {db : Database} {history : List Passage}

theorem Holds.pending {hash : Nat} {expiresAt : Timestamp} {row : Option Subscriber}
    (holds : Holds hash expiresAt row) : row.map (·.status) = some .pending := by
  obtain ⟨s, rfl, pending, -⟩ := holds
  simp [pending]

theorem Holds.inj {hash hash' : Nat} {expiresAt expiresAt' : Timestamp} {row : Option Subscriber}
    (holds : Holds hash expiresAt row) (holds' : Holds hash' expiresAt' row) :
    hash = hash' ∧ expiresAt = expiresAt' := by
  obtain ⟨s, rfl, -, hashed, expires⟩ := holds
  obtain ⟨s', same, -, hashed', expires'⟩ := holds'
  obtain rfl := Option.some.inj same
  exact ⟨Option.some.inj (hashed.symm.trans hashed'), Option.some.inj (expires.symm.trans expires')⟩

theorem Turn.held {p : Passage} {hash : Nat} {expiresAt : Timestamp} (turn : Turn list email p)
    (holds : Holds hash expiresAt (p.rowAfter list email)) :
    Holds hash expiresAt (p.rowBefore list email) ∨ p.Issues list email hash expiresAt := by
  have pending := holds.pending
  cases turn with
  | kept same => exact .inl (same ▸ holds)
  | fell s s' was becomes status =>
    rcases status with status | status <;> simp [becomes, status] at pending
  | left s s' was becomes status | joined r newId s' call new becomes status clear =>
    simp [becomes, status] at pending
  | issued hash' expiresAt' issues =>
    obtain ⟨r, newId, call, own_list, own_email, hashed, expires, resolved, reopened, stored⟩ := issues
    obtain ⟨rfl, rfl⟩ := holds.inj stored
    exact .inr ⟨r, newId, call, own_list, own_email, hashed, expires, resolved, reopened, stored⟩
  | confirmed hash' expiresAt' s' call held inTime becomes status consumed clear =>
    simp [becomes, status] at pending

/-- The token a row holds was issued during the history and held ever since, or it has been there
all along. -/
theorem held_since (linked : Linked db history) (turns : ∀ p ∈ history, Turn list email p)
    {hash : Nat} {expiresAt : Timestamp}
    (holds : Holds hash expiresAt (db.subscriptionOf list email)) :
    (∃ mid issue rest, history = mid ++ issue :: rest ∧ issue.Issues list email hash expiresAt ∧
      ∀ o ∈ mid, Holds hash expiresAt (o.rowAfter list email)) ∨
    ∀ o ∈ history, Holds hash expiresAt (o.rowBefore list email) ∧
      Holds hash expiresAt (o.rowAfter list email) := by
  induction history generalizing db with
  | nil => exact .inr fun o member => by cases member
  | cons p older ih =>
    obtain ⟨rfl, linked⟩ := linked
    rcases (turns p List.mem_cons_self).held holds with before | issues
    · rcases ih linked (fun o member => turns o (List.mem_cons_of_mem _ member)) before with
        ⟨mid, issue, rest, rfl, issues, since⟩ | always
      · refine .inl ⟨p :: mid, issue, rest, rfl, issues, ?_⟩
        exact List.forall_mem_cons.mpr ⟨holds, since⟩
      · exact .inr (List.forall_mem_cons.mpr ⟨⟨before, holds⟩, always⟩)
    · exact .inl ⟨[], p, older, rfl, issues, fun o member => by cases member⟩

theorem never_listed (linked : Linked db history) (turns : ∀ p ∈ history, Turn list email p)
    (absent : db.subscriptionOf list email = none) :
    ∀ o ∈ history, o.rowBefore list email = none := by
  induction history generalizing db with
  | nil => exact fun o member => by cases member
  | cons p older ih =>
    obtain ⟨rfl, linked⟩ := linked
    have before : p.rowBefore list email = none := by
      have gone : p.rowAfter list email = none := absent
      cases turns p List.mem_cons_self with
      | kept same => exact same ▸ gone
      | fell s s' was becomes status | left s s' was becomes status => simp [gone] at becomes
      | joined r newId s' call new becomes status clear => exact new
      | issued hash expiresAt issues =>
        obtain ⟨-, -, -, -, -, -, -, -, -, s, becomes, -⟩ := issues
        simp [gone] at becomes
      | confirmed hash expiresAt s' call held inTime becomes status consumed clear =>
        simp [gone] at becomes
    refine List.forall_mem_cons.mpr ⟨before, ih linked ?_ before⟩
    exact fun o member => turns o (List.mem_cons_of_mem _ member)

/-- A row becomes active when it is new, or by its live token. -/
theorem Turn.activates {p : Passage} (turn : Turn list email p) (activates : p.Activates list email) :
    (p.rowBefore list email = none ∧ ∃ r newId s', p.call = .subscribe r newId ∧
      p.rowAfter list email = some s' ∧ p.before.suppressedBy s'.businessId email = false) ∨
    ∃ hash expiresAt s', p.call = .confirm hash ∧ Holds hash expiresAt (p.rowBefore list email) ∧
      p.now < expiresAt ∧ p.rowAfter list email = some s' ∧ s'.confirmTokenHash = none ∧
      p.before.blockedBy s'.businessId email = false := by
  obtain ⟨inactive, active⟩ := activates
  cases turn with
  | kept same => exact absurd (same ▸ active) inactive
  | fell s s' was becomes status =>
    rcases status with status | status <;> simp [becomes, status] at active
  | left s s' was becomes status => simp [becomes, status] at active
  | joined r newId s' call new becomes status clear => 
    exact .inl ⟨new, r, newId, s', call, becomes, clear⟩
  | issued hash expiresAt issues =>
    obtain ⟨-, -, -, -, -, -, -, -, -, stored⟩ := issues
    simp [stored.pending] at active
  | confirmed hash expiresAt s' call held inTime becomes status consumed clear =>
    exact .inr ⟨hash, expiresAt, s', call, held, inTime, becomes, consumed, clear⟩

section Activation

variable {p : Passage} {older : List Passage} (linked : Linked p.before older)
  (turns : ∀ o ∈ older, Turn list email o) (turn : Turn list email p)
  (activates : p.Activates list email)

include turn activates

include linked turns in
theorem activated_by_newer_token {o : Passage} (member : o ∈ p :: older)
    (unsubscribed : (o.rowBefore list email).map (·.status) = some .unsubscribed) :
    ∃ hash expiresAt mid issue rest,
      older = mid ++ issue :: rest ∧ issue.Issues list email hash expiresAt ∧
      (∀ o ∈ mid, (o.rowAfter list email).map (·.status) ≠ some .unsubscribed) ∧
      p.call = .confirm hash ∧ Holds hash expiresAt (p.rowBefore list email) ∧
      p.now < expiresAt ∧ (p.rowAfter list email).map (·.confirmTokenHash) = some none := by
  rcases turn.activates activates with
    ⟨absent, -⟩ | ⟨hash, expiresAt, s', call, held, inTime, becomes, gone, -⟩
  · -- A row that is only now added cannot have been unsubscribed.
    rcases List.mem_cons.mp member with rfl | earlier
    · simp [absent] at unsubscribed
    · simp [never_listed linked turns absent o earlier] at unsubscribed
  · rcases held_since linked turns held with ⟨mid, issue, rest, rfl, issues, since⟩ | always
    · refine ⟨hash, expiresAt, mid, issue, rest, rfl, issues, ?_, call, held, inTime, ?_⟩
      · intro between inside
        simp [(since between inside).pending]
      · simp [becomes, gone]
    · -- A token held all along leaves no room for an unsubscribe.
      rcases List.mem_cons.mp member with rfl | earlier
      · simp [held.pending] at unsubscribed
      · simp [(always o earlier).1.pending] at unsubscribed

include linked turns in
theorem reissued_between {hash : Nat} {mid rest : List Passage} {q : Passage}
    (split : older = mid ++ q :: rest) (call : p.call = .confirm hash)
    (activated : q.Activates list email) :
    ∃ issue ∈ mid, ∃ expiresAt, issue.Issues list email hash expiresAt := by
  rcases turn.activates activates with
    ⟨-, r, newId, s', subscribes, -⟩ | ⟨hash', expiresAt, s', confirms, held, -⟩
  · rw [call] at subscribes
    cases subscribes
  obtain rfl : hash = hash' := by
    rw [call] at confirms
    exact ConsentCall.confirm.inj confirms
  -- The row of `q` is active afterwards, so the token was not yet held then.
  have not_held : ¬ Holds hash expiresAt (q.rowAfter list email) := by
    intro holds
    have := holds.pending
    rw [activated.2] at this
    cases this
  rcases held_since linked turns held with ⟨mid', issue, rest', split', issues, since⟩ | always
  · refine ⟨issue, ?_, expiresAt, issues⟩
    have other : issue ≠ q := by
      rintro rfl
      obtain ⟨-, -, -, -, -, -, -, -, -, stored⟩ := issues
      exact not_held stored
    rcases List.append_eq_append_iff.mp (split'.symm.trans split) with
      ⟨between, mid_eq, tail_eq⟩ | ⟨between, mid_eq, tail_eq⟩
    · cases between with
      | nil => exact absurd (List.cons.inj tail_eq).1 other
      | cons first others =>
        obtain ⟨rfl, -⟩ := List.cons.inj tail_eq
        simp [mid_eq]
    · cases between with
      | nil => exact absurd (List.cons.inj tail_eq).1.symm other
      | cons first others =>
        obtain ⟨rfl, -⟩ := List.cons.inj tail_eq
        exact absurd (since q (by simp [mid_eq])) not_held
  · exact absurd (always q (by simp [split])).2 not_held

theorem activated_unblocked {row : Subscriber} (becomes : p.rowAfter list email = some row) :
    p.before.blockedBy row.businessId email = false := by
  rcases turn.activates activates with
    ⟨-, -, -, s', -, becomes', clear⟩ | ⟨-, -, s', -, -, -, becomes', -, clear⟩ <;>
    obtain rfl := Option.some.inj (becomes.symm.trans becomes')
  · -- Where nothing suppresses the address, nothing blocks it.
    simp only [Database.suppressedBy, Database.blockedBy, List.any_eq_false, Bool.and_eq_true,
      not_and] at *
    exact fun ms member found => absurd found.2 (clear ms member found.1)
  · exact clear

end Activation

end History

/-! ### Runs -/

structure ConsentInv (list : UUID) (email : Email) (s : ConsentState) : Prop where
  keyed : s.db.Keyed
  linked : Linked s.db s.history
  turns : ∀ p ∈ s.history, Turn list email p

theorem consentInv_preserved (list : UUID) (email : Email) :
    Preserved ConsentStep (ConsentInv list email) := by
  intro s t step inv
  cases step with
  | call call now later =>
    refine ⟨call.perform_keyed inv.keyed, ⟨rfl, inv.linked⟩, ?_⟩
    exact List.forall_mem_cons.mpr ⟨call.perform_turn list email inv.keyed, inv.turns⟩

/-- In every history of public subscriptions, confirmations, unsubscribes and provider feedback, for
every address on every list. A call that makes the row active after it has been unsubscribed is a
confirmation, in time, of the token the row holds; the token was issued after the last unsubscribe
and is gone afterwards. A token that confirms was issued after every earlier activation, so one
issue activates once. And no call makes the row active while the business has a suppression of the
address for a bounce or a complaint. -/
theorem consent_safety (list : UUID) (email : Email) {start s : ConsentState}
    (keyed : start.db.Keyed) (new : start.history = []) (run : Reaches ConsentStep start s)
    {newer older : List Passage} {p : Passage} (at_call : s.history = newer ++ p :: older)
    (activates : p.Activates list email) :
    ((∃ o ∈ p :: older, (o.rowBefore list email).map (·.status) = some .unsubscribed) →
      ∃ hash expiresAt mid issue rest,
        older = mid ++ issue :: rest ∧ issue.Issues list email hash expiresAt ∧
        (∀ o ∈ mid, (o.rowAfter list email).map (·.status) ≠ some .unsubscribed) ∧
        p.call = .confirm hash ∧ Holds hash expiresAt (p.rowBefore list email) ∧
        p.now < expiresAt ∧
        (p.rowAfter list email).map (·.confirmTokenHash) = some none) ∧
    (∀ hash mid q rest, older = mid ++ q :: rest → p.call = .confirm hash →
      q.Activates list email →
      ∃ issue ∈ mid, ∃ expiresAt, issue.Issues list email hash expiresAt) ∧
    (∀ row, p.rowAfter list email = some row → ∀ ms ∈ p.before.suppressions,
      ms.businessId = row.businessId → ms.email = email →
      ms.reason ≠ .bounce ∧ ms.reason ≠ .complaint) := by
  have inv : ConsentInv list email s := by
    refine (consentInv_preserved list email).reaches run ⟨keyed, ?_, ?_⟩ <;> rw [new]
    · trivial
    · exact fun p member => by cases member
  have turns := inv.turns
  have linked := inv.linked
  rw [at_call] at turns linked
  have turns_older : ∀ o ∈ older, Turn list email o := fun o member => turns o (by simp [member])
  have turn : Turn list email p := turns p (by simp)
  refine ⟨?_, ?_, ?_⟩
  · rintro ⟨o, member, unsubscribed⟩
    exact activated_by_newer_token linked.split turns_older turn activates member unsubscribed
  · intro hash mid q rest split call activated
    exact reissued_between linked.split turns_older turn activates split call activated
  · intro row becomes ms member business address
    have clear := activated_unblocked turn activates becomes
    simp only [Database.blockedBy, List.any_eq_false, Bool.and_eq_true, beq_iff_eq, bne_iff_ne,
      not_and, not_not] at clear
    simp [clear ms member ⟨business, address⟩]

namespace Sample

def form : Database := { database with listKeys := [⟨21, 1, 1, 20, .enabled⟩] }

def subscription : SubscribeRequest :=
  ⟨21, 20, 1, 1, "ada@example.com", none, .publicForm, none, false, some 7, some 100⟩

/-- An unsubscribe and a new subscription. -/
def waiting : ConsentState :=
  (ConsentState.mk form 0 []).perform 1 (.unsubscribe 50 0) |>.perform 2 (.subscribe subscription 51)

/-- The confirmation of the new subscription was preceded by the issue of its token. -/
theorem consent_safety_reactivated :
    ∃ hash expiresAt, ∃ issue ∈ waiting.history,
      issue.Issues 20 "ada@example.com" hash expiresAt ∧ ConsentCall.confirm 7 = .confirm hash := by
  have run : Reaches ConsentStep ⟨form, 0, []⟩ (waiting.perform 3 (.confirm 7)) :=
    ((Relation.ReflTransGen.single (.call (.unsubscribe 50 0) 1 (by decide))).tail
      (.call (.subscribe subscription 51) 2 (by decide))).tail (.call (.confirm 7) 3 (by decide))
  have at_call : (waiting.perform 3 (.confirm 7)).history =
      [] ++ ⟨.confirm 7, 3, waiting.db, _⟩ :: waiting.history := rfl
  have safe := consent_safety 20 "ada@example.com" ⟨by decide, by decide⟩ rfl run at_call
    (by unfold Passage.Activates; decide)
  obtain ⟨hash, expiresAt, mid, issue, rest, split, issues, -, call, -⟩ :=
    safe.1 ⟨_, List.mem_cons_of_mem _ List.mem_cons_self, by decide⟩
  exact ⟨hash, expiresAt, issue, by simp [split], issues, call⟩

/-- A new address subscribes, and a mail of another part of the program to it bounces. -/
def bouncedElsewhere : ConsentState :=
  (ConsentState.mk form 0 []).perform 1
      (.subscribe { subscription with email := "bob@example.com" } 51) |>.perform 2
    (.relayBounce "bob@example.com" none)

/-- The confirmation makes the subscriber active although the address is on the bounce list of all
tenants. -/
theorem confirmed_on_bounce_list :
    Reaches ConsentStep ⟨form, 0, []⟩ (bouncedElsewhere.perform 3 (.confirm 7)) ∧
    "bob@example.com" ∈ bouncedElsewhere.db.emailSuppressions ∧
    (Passage.mk (.confirm 7) 3 bouncedElsewhere.db
      (bouncedElsewhere.perform 3 (.confirm 7)).db).Activates 20 "bob@example.com" := by
  refine ⟨?_, by decide, by unfold Passage.Activates; decide⟩
  exact ((Relation.ReflTransGen.single (.call (.subscribe _ 51) 1 (by decide))).tail
    (.call (.relayBounce "bob@example.com" none) 2 (by decide))).tail
    (.call (.confirm 7) 3 (by decide))

end Sample

end Manyforge
