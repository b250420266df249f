import Manyforge.Lib.JoinAction
import Manyforge.Mailing.Feedback

/-!
# How severe feedback is

Provider events are ordered by severity. The writes of one event to a delivery's
status, to the suppression of its address and to its subscriber are actions of that
order in the sense of `JoinAction.Acts`: a second event leaves what the more severe
of the two would have left.
-/
namespace Manyforge

open Table JoinAction

/-- What has been learned about a message that was sent. -/
inductive Severity where
  | sent | delivered | bounced | complained
  deriving DecidableEq

namespace Severity

def rank : Severity → Nat
  | sent => 0
  | delivered => 1
  | bounced => 2
  | complained => 3

theorem rank_injective : Function.Injective rank := by
  intro a b same
  cases a <;> cases b <;> first | rfl | cases same

instance : LinearOrder Severity := LinearOrder.lift' rank rank_injective

instance : OrderBot Severity where
  bot := sent
  bot_le a := by cases a <;> decide

def status : Severity → DeliveryStatus
  | sent => .sent
  | delivered => .delivered
  | bounced => .bounced
  | complained => .complained

end Severity

/-- The kinds a provider reports; the others come from the tracking endpoints. -/
def TrackKind.FromProvider (kind : TrackKind) : Prop :=
  kind = .delivered ∨ kind = .bounce ∨ kind = .complaint
  deriving Decidable

def TrackKind.severity : TrackKind → Severity
  | delivered => .delivered
  | bounce => .bounced
  | complaint => .complained
  | _ => .sent

def worst (kinds : List TrackKind) : Severity := total TrackKind.severity kinds

namespace Database

variable (d : Delivery) {kind : TrackKind}

theorem mergeDeliveryStatus_severity (reported : kind.FromProvider) (s : Severity) :
    mergeDeliveryStatus (feedbackStatus kind) s.status = (s ⊔ kind.severity).status := by
  rcases reported with rfl | rfl | rfl <;> cases s <;> decide

/-! ### Suppressions -/

/-- What feedback of some severity about a delivery leaves in the suppression table. -/
def suppress : Severity → List MailingSuppression → List MailingSuppression
  | .complained => upsertSuppression (providerSuppression d .complaint)
  | .bounced => upsertSuppression (providerSuppression d .bounce)
  | _ => id

theorem suppress_severity (reported : kind.FromProvider) (rows : List MailingSuppression) :
    (if kind = .bounce ∨ kind = .complaint then upsertSuppression (providerSuppression d kind) rows
      else rows) = suppress d kind.severity rows := by
  rcases reported with rfl | rfl | rfl <;> rfl

/-- The suppressions of an address. -/
def concerns (business : UUID) (email : Email) (s : MailingSuppression) : Bool :=
  s.businessId == business && s.email == email

/-- Writing a second row for the same address amounts to one write, of the second row or of the
first if it was a complaint. -/
theorem upsertSuppression_twice (first second : MailingSuppression)
    (same_business : first.businessId = second.businessId)
    (same_root : first.tenantRootId = second.tenantRootId) (same_email : first.email = second.email)
    (same_source : first.source = second.source) (rows : List MailingSuppression) :
    upsertSuppression second (upsertSuppression first rows) =
      upsertSuppression (if first.reason = .complaint then first else second) rows := by
  obtain ⟨business, root, email, reason, source⟩ := first
  obtain ⟨business', root', email', reason', source'⟩ := second
  subst same_business same_root same_email same_source
  by_cases present : (rows.any fun s => s.businessId == business && s.email == email) = true
  · -- Both writes find the row.
    have again : ((updateWhere (fun s => s.businessId == business && s.email == email)
        (fun s => if s.reason = .complaint then s
          else { s with reason := reason, source := source }) rows).any
        fun s => s.businessId == business && s.email == email) = true := by
      obtain ⟨s, member, found⟩ := List.any_eq_true.mp present
      refine List.any_eq_true.mpr ⟨_, mem_updateWhere.mpr ⟨s, member, rfl⟩, ?_⟩
      simp only [found, ↓reduceIte]
      split <;> exact found
    unfold upsertSuppression
    simp only [present, ↓reduceIte, again]
    by_cases complaint : reason = .complaint <;>
      simp only [complaint, present, ↓reduceIte, updateWhere, List.map_map] <;>
      refine List.map_congr_left fun s _ => ?_ <;>
      simp only [Function.comp_apply] <;> grind
  · -- The first write inserts the row the second one finds.
    have absent : ∀ s ∈ rows, (s.businessId == business && s.email == email) = false := by
      simpa using present
    unfold upsertSuppression
    simp only [present, Bool.false_eq_true, ↓reduceIte, List.any_append, List.any_cons, BEq.rfl,
      Bool.and_self, Bool.true_or, Bool.or_true]
    have kept : updateWhere (fun s => s.businessId == business && s.email == email)
        (fun s => if s.reason = .complaint then s
          else { s with reason := reason', source := source }) rows = rows :=
      updateWhere_eq_self absent
    simp only [updateWhere] at kept
    simp only [updateWhere, List.map_append, kept]
    by_cases complaint : reason = .complaint <;> simp [complaint, present]

theorem suppress_acts : Acts (suppress d) where
  bot _ := rfl
  join a b rows := by
    have twice (k k' : TrackKind) := upsertSuppression_twice (providerSuppression d k)
      (providerSuppression d k') rfl rfl rfl rfl rows
    cases a <;> cases b <;> first
      | rfl
      | exact twice .bounce .bounce
      | exact twice .bounce .complaint
      | exact twice .complaint .bounce
      | exact twice .complaint .complaint

theorem suppress_filter (s : Severity) (rows : List MailingSuppression) :
    (suppress d s rows).filter (concerns d.businessId d.email) =
      suppress d s (rows.filter (concerns d.businessId d.email)) := by
  have upsert (kind : TrackKind) :
      (upsertSuppression (providerSuppression d kind) rows).filter (concerns d.businessId d.email) =
        upsertSuppression (providerSuppression d kind)
          (rows.filter (concerns d.businessId d.email)) := by
    unfold upsertSuppression
    have seen : ((rows.filter (concerns d.businessId d.email)).any fun s =>
        s.businessId == (providerSuppression d kind).businessId &&
          s.email == (providerSuppression d kind).email) =
        rows.any fun s => s.businessId == (providerSuppression d kind).businessId &&
          s.email == (providerSuppression d kind).email := by
      rw [List.any_filter]
      simp [concerns, providerSuppression]
    rw [seen]
    split
    · refine filter_updateWhere rows fun row _ => ?_
      by_cases complaint : row.reason = .complaint <;> simp [complaint, concerns]
    · simp [List.filter_append, concerns, providerSuppression]
  cases s
  · rfl
  · rfl
  · exact upsert .bounce
  · exact upsert .complaint

/-! ### Subscribers -/

def mark : Severity → Subscriber → Subscriber
  | .complained => markSubscriber .complaint
  | .bounced => markSubscriber .bounce
  | _ => id

theorem mark_severity (subscriber : UUID) (reported : kind.FromProvider) (rows : List Subscriber) :
    (if kind = .bounce ∨ kind = .complaint then
      updateWhere (fun s => s.id == subscriber) (markSubscriber kind) rows else rows) =
      updateWhere (fun s => s.id == subscriber) (mark kind.severity) rows := by
  rcases reported with rfl | rfl | rfl
  · simp [updateWhere, TrackKind.severity, mark]
  · rfl
  · rfl

theorem mark_acts : Acts mark where
  bot _ := rfl
  join a b s := by
    obtain ⟨id, business, root, list, email, status, reason, hash, expires, confirmed, left⟩ := s
    cases a <;> cases b <;> cases status <;> rfl

@[simp] theorem mark_id (v : Severity) (s : Subscriber) : (mark v s).id = s.id := by
  cases v <;> rfl

theorem map_mark_acts : Acts fun v => List.map (mark v) where
  bot rows := List.map_id rows
  join a b rows := by simp [Function.comp_def, mark_acts.join]

end Database

end Manyforge
