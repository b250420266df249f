import Manyforge.Automations.Stepper
import Manyforge.Mailing.Consent
import Manyforge.Mailing.Fanout

/-!
# Fan-out reaches everybody once

Batches of one campaign, claims and crashes, while subscribers, tags and suppressions
change, also between the two statements of a batch. The batch holds the lock of the
campaign's row, so there is at most one at a time.
-/
namespace Manyforge

open Table Transition Database
open Keyset (page advance above page_covers)
open ConsentCall (perform subscribe)

/-! ### The system -/

structure FanoutState where
  db : Database
  /-- The batch that is not yet committed, with the snapshot its recipients were selected from. -/
  batch : Option (Database × Database.FanoutPlan)

section System

variable (lower : String → String) (id : UUID)

def Database.HasDelivery (db : Database) (subscriber : UUID) : Prop :=
  (DeliverySource.campaign, id, subscriber) ∈ db.deliveries.map (·.sourceKey)

/-- A transaction of the rest of the program, on a campaign that has been scheduled: it may do
anything to the subscribers, their tags and suppressions. Deliveries are not deleted, and neither
the target of the campaign nor its fan-out is edited; while a batch holds the row, nothing in it
is. -/
structure Database.KeepsFanout (held : Bool) (db db' : Database) : Prop where
  campaign : ∀ c, db.campaignOf id = some c → ∃ c', db'.campaignOf id = some c' ∧
    c'.fanoutCursor = c.fanoutCursor ∧ c'.fanoutDone = c.fanoutDone ∧ (held = true → c' = c)
  unique : UniqueOn Delivery.sourceKey db.deliveries → UniqueOn Delivery.sourceKey db'.deliveries
  deliveries : ∀ subscriber, db.HasDelivery id subscriber → db'.HasDelivery id subscriber

inductive FanoutStep : FanoutState → FanoutState → Prop
  | select {s : FanoutState} (batch : Option Int) (domain : Option String)
      (plan : Database.FanoutPlan) (idle : s.batch = none)
      (call : fanoutSelect lower s.db id batch domain = .ok (.inserting plan)) :
      FanoutStep s ⟨s.db, some (s.db, plan)⟩
  | advance {s : FanoutState} (now : Timestamp) (newId : UUID → UUID) (seen : Database)
      (plan : Database.FanoutPlan) (opened : s.batch = some (seen, plan)) :
      FanoutStep s ⟨(fanoutAdvance lower s.db now plan newId).1, none⟩
  | crash {s : FanoutState} : FanoutStep s ⟨s.db, none⟩
  | claim {s : FanoutState} (now : Timestamp) (limit : Option Int) (locked : UUID → Bool)
      (held : s.batch.isSome = true → locked id = true) :
      FanoutStep s ⟨(s.db.mailingClaimCampaignsForFanout now limit locked).1, s.batch⟩
  | other {s : FanoutState} (db' : Database) (leaves : s.db.KeepsFanout id s.batch.isSome db') :
      FanoutStep s ⟨db', s.batch⟩

def FanoutState.cursor (s : FanoutState) : Option UUID :=
  (s.db.campaignOf id).bind (·.fanoutCursor)

def FanoutState.done (s : FanoutState) : Bool := (s.db.campaignOf id).any (·.fanoutDone)

/-- The subscriber is a recipient, as the campaign's row has it now. -/
def Database.Recipient (db : Database) (subscriber : UUID) : Prop :=
  ∃ c, db.campaignOf id = some c ∧ ∃ s ∈ db.subscribers, s.id = subscriber ∧
    fanoutEligible lower db c s = true

end System

section Run

variable {lower : String → String} {id : UUID}

/-! ### What the two statements do -/

namespace Database

variable {db : Database} {now : Timestamp} {plan : FanoutPlan} {newId : UUID → UUID}

theorem campaignOf_id {c : Campaign} (found : db.campaignOf id = some c) : c.id = id := by
  simpa using List.find?_some found

/-- What is known of a batch that was selected. -/
structure Selected (lower : String → String) (id : UUID) (seen : Database) (plan : FanoutPlan) :
    Prop where
  campaign : seen.campaignOf id = some plan.campaign
  unfinished : plan.campaign.fanoutDone = false
  eligible : ∃ limit, 0 < limit ∧ plan.eligible = page (·.id)
    (fanoutEligible lower seen plan.campaign) plan.campaign.fanoutCursor limit seen.subscribers

theorem fanoutSelect_selected {batch : Option Int} {domain : Option String}
    (call : fanoutSelect lower db id batch domain = .ok (.inserting plan)) :
    Selected lower id db plan := by
  simp only [fanoutSelect] at call
  split at call; · cases call
  split at call; · cases call
  next c found =>
  split at call; · cases call
  next unfinished =>
  split at call; · cases call
  obtain rfl := FanoutStart.inserting.inj (Except.ok.inj call)
  have open_row : c.fanoutDone = false := by
    simp only [not_or, Bool.not_eq_true] at unfinished
    exact unfinished.2
  refine ⟨found, open_row, _, ?_, rfl⟩
  unfold clampLimit
  omega

theorem insertBatch_covers {subscriber : UUID} {rows : List Delivery}
    (member : subscriber ∈ plan.eligible.map (·.id)) :
    (DeliverySource.campaign, plan.campaign.id, subscriber) ∈
      (insertBatch now plan newId rows).map (·.sourceKey) := by
  obtain ⟨s, s_mem, rfl⟩ := List.mem_map.mp member
  exact key_mem_insertAll (List.mem_map_of_mem s_mem)

variable {held : Bool} {db' : Database}

theorem campaignOf_updated {chosen : Campaign → Bool} {change : Campaign → Campaign}
    (written : db'.campaigns = updateWhere chosen change db.campaigns)
    (keeps : ∀ c, (change c).id = c.id) :
    db'.campaignOf id = (db.campaignOf id).map fun c => if chosen c then change c else c := by
  simp only [campaignOf, written]
  exact find?_updateWhere _ fun c _ => by rw [keeps c]

theorem campaignOf_advance (lower : String → String) (now : Timestamp) (newId : UUID → UUID)
    (found : db.campaignOf id = some plan.campaign) :
    ∃ recipients, (fanoutAdvance lower db now plan newId).1.campaignOf id =
      some (advanceCampaign lower db now plan.last recipients plan.campaign) := by
  let recipients := ((insertBatch now plan newId db.deliveries).filter
    fun d => d.campaignId == some plan.campaign.id).length
  have written : (fanoutAdvance lower db now plan newId).1.campaigns =
      updateWhere (fun c => c.id == plan.campaign.id)
        (advanceCampaign lower db now plan.last recipients) db.campaigns := rfl
  refine ⟨recipients, ?_⟩
  rw [campaignOf_updated written fun _ => rfl, found]
  simp

theorem claimCampaigns_keepsFanout (limit : Option Int) {locked : UUID → Bool}
    (passes : held = true → locked id = true) :
    db.KeepsFanout id held (db.mailingClaimCampaignsForFanout now limit locked).1 where
  campaign c found := by
    have own := campaignOf_id found
    have written : (db.mailingClaimCampaignsForFanout now limit locked).1.campaigns =
        updateWhere (fun c => (db.mailingClaimCampaignsForFanout now limit locked).2.contains c.id)
          (startSending now) db.campaigns := rfl
    rw [campaignOf_updated written fun _ => rfl, found]
    refine ⟨_, rfl, ?_, ?_, ?_⟩
    · dsimp only; split <;> rfl
    · dsimp only; split <;> rfl
    · intro holds
      refine if_neg ?_
      simp only [mailingClaimCampaignsForFanout, List.contains_eq_mem, List.mem_map,
        decide_eq_true_eq, not_exists, not_and]
      intro c' selected same
      obtain ⟨-, -, free⟩ := mem_selectForUpdate selected
      rw [same, own, passes holds] at free
      cases free
  unique kept := kept
  deliveries _ has := has

theorem KeepsFanout.of_same (campaigns : db'.campaigns = db.campaigns)
    (keys : db'.deliveries.map (·.sourceKey) = db.deliveries.map (·.sourceKey)) :
    db.KeepsFanout id held db' where
  campaign c found := ⟨c, by rw [campaignOf, campaigns]; exact found, rfl, rfl, fun _ => rfl⟩
  unique kept := by rw [UniqueOn, keys]; exact kept
  deliveries subscriber has := by rw [HasDelivery, keys]; exact has

theorem FeedsBack.sourceKeys (frame : FeedsBack db db') :
    db'.deliveries.map (·.sourceKey) = db.deliveries.map (·.sourceKey) := by
  refine frame.deliveries.map_eq fun d d' fed => ?_
  rw [fed.1]
  rfl

theorem FeedsBack.campaigns {db' : Database} (frame : FeedsBack db db') :
    db'.campaigns = db.campaigns := by
  rw [frame.rest]

theorem unsubscribed_same (db : Database) (now : Timestamp) (subscriber : UUID)
    (campaign : Option UUID) (reason : Option String) :
    (db.mailingUnsubscribe now subscriber campaign reason).1.campaigns = db.campaigns ∧
      (db.mailingUnsubscribe now subscriber campaign reason).1.deliveries = db.deliveries := by
  unfold mailingUnsubscribe
  split <;> exact ⟨rfl, rfl⟩

theorem consentCall_keepsFanout (keyed : db.Keyed) (call : ConsentCall) :
    db.KeepsFanout id held (call.perform now db) := by
  cases call with
  | subscribe r newId =>
    simp only [perform]
    rcases result : db.mailingPublicSubscribe now r newId with error | ⟨db', answer⟩
    · exact .of_same rfl rfl
    · rcases publicSubscribe_cases result with
        rfl | ⟨-, -, -, -, -, rfl⟩ | ⟨-, -, -, -, -, -, rfl⟩ <;> exact .of_same rfl rfl
  | confirm hash =>
    simp only [perform, mailingConfirm]
    split <;> exact .of_same rfl rfl
  | unsubscribe subscriber campaign =>
    obtain ⟨campaigns, deliveries⟩ :=
      unsubscribed_same db now subscriber (some campaign) (some "link")
    simp only [perform, unsubscribe, mailingRecordUnsubscribe]
    split <;> exact .of_same campaigns (congrArg _ deliveries)
  | s2sUnsubscribe list email =>
    simp only [perform, mailingS2sUnsubscribe]
    split
    · exact .of_same rfl rfl
    · obtain ⟨campaigns, deliveries⟩ := unsubscribed_same db now _ none (some "s2s_api")
      exact .of_same campaigns (congrArg _ deliveries)
  | webhook r newId locked =>
    simp only [perform]
    rcases result : db.mailingProcessProviderWebhook now r newId locked with error | ⟨db', outcome⟩
    · exact .of_same rfl rfl
    · have frame := processProviderWebhook_feedsBack keyed.deliveries result
      exact .of_same frame.campaigns frame.sourceKeys
  | complete delivery generation messageId locked =>
    simp only [perform]
    rcases result : db.mailingCompleteDelivery now delivery generation messageId locked with
      error | ⟨db', answer⟩
    · exact .of_same rfl rfl
    · rcases completeDelivery_feedsBack keyed.deliveries result with ⟨-, rfl⟩ | ⟨-, frame⟩
      · exact .of_same rfl rfl
      · refine .of_same frame.campaigns (frame.sourceKeys.trans ?_)
        exact map_updateWhere _ _ fun _ _ => rfl
  | relayBounce recipient named =>
    rcases db.suppressBounce_cases now recipient named with same | ⟨id, same⟩
    · rw [perform, same]
      exact .of_same rfl rfl
    · rw [perform, same, mailingMarkBounced]
      split
      · exact .of_same rfl rfl
      · refine .of_same rfl (map_updateWhere _ _ fun d _ => ?_)
        unfold relayBounced
        split <;> rfl

end Database

/-! ### What holds in every state -/

structure FanoutInv (lower : String → String) (id : UUID) (s : FanoutState) : Prop where
  row : ∃ c, s.db.campaignOf id = some c
  unique : UniqueOn Delivery.sourceKey s.db.deliveries
  batch : ∀ seen plan, s.batch = some (seen, plan) →
    Database.Selected lower id seen plan ∧ s.db.campaignOf id = some plan.campaign

variable {s : FanoutState}

theorem Database.KeepsFanout.inv {db' : Database} (leaves : s.db.KeepsFanout id s.batch.isSome db')
    (inv : FanoutInv lower id s) : FanoutInv lower id ⟨db', s.batch⟩ where
  row := by
    obtain ⟨c, found⟩ := inv.row
    obtain ⟨c', found', -⟩ := leaves.campaign c found
    exact ⟨c', found'⟩
  unique := leaves.unique inv.unique
  batch seen plan opened := by
    obtain ⟨selected, found⟩ := inv.batch seen plan opened
    obtain ⟨c', found', -, -, same⟩ := leaves.campaign _ found
    rw [same (by simp [show s.batch = some (seen, plan) from opened])] at found'
    exact ⟨selected, found'⟩

theorem fanoutInv_preserved : Preserved (FanoutStep lower id) (FanoutInv lower id) := by
  intro s t step inv
  cases step with
  | select batch domain plan idle call =>
    refine ⟨inv.row, inv.unique, ?_⟩
    intro seen plan' opened
    obtain ⟨rfl, rfl⟩ := Prod.mk.inj (Option.some.inj opened)
    have selected := fanoutSelect_selected call
    exact ⟨selected, selected.campaign⟩
  | advance now newId seen plan opened =>
    obtain ⟨recipients, found⟩ :=
      campaignOf_advance lower now newId (inv.batch seen plan opened).2
    exact ⟨⟨_, found⟩, inv.unique.insertAll _, fun _ _ none => by cases none⟩
  | crash => exact ⟨inv.row, inv.unique, fun _ _ none => by cases none⟩
  | claim now limit locked held => exact (claimCampaigns_keepsFanout limit held).inv inv
  | other db' leaves => exact leaves.inv inv

/-! ### What a step does to the fan-out -/

namespace Database.KeepsFanout

variable {s : FanoutState} {held : Bool} {db' : Database}
  {batch : Option (Database × Database.FanoutPlan)}

theorem cursor_eq (leaves : s.db.KeepsFanout id held db') (inv : FanoutInv lower id s) :
    (FanoutState.mk db' batch).cursor id = s.cursor id := by
  obtain ⟨c, found⟩ := inv.row
  obtain ⟨c', found', cursor, -⟩ := leaves.campaign c found
  simp [FanoutState.cursor, found, found', cursor]

theorem done_eq (leaves : s.db.KeepsFanout id held db') (inv : FanoutInv lower id s) :
    (FanoutState.mk db' batch).done id = s.done id := by
  obtain ⟨c, found⟩ := inv.row
  obtain ⟨c', found', -, done, -⟩ := leaves.campaign c found
  simp [FanoutState.done, found, found', done]

end Database.KeepsFanout

/-- A step leaves the fan-out as it is, or commits the batch that is open. -/
theorem FanoutStep.leaves_or_advances {t : FanoutState} (step : FanoutStep lower id s t) :
    s.db.KeepsFanout id s.batch.isSome t.db ∨
    ∃ now newId seen plan, s.batch = some (seen, plan) ∧
      t = ⟨(fanoutAdvance lower s.db now plan newId).1, none⟩ := by
  cases step with
  | select batch domain plan idle call | crash => exact .inl (.of_same rfl rfl)
  | advance now newId seen plan opened => exact .inr ⟨now, newId, seen, plan, opened, rfl⟩
  | claim now limit locked held => exact .inl (claimCampaigns_keepsFanout limit held)
  | other db' leaves => exact .inl leaves

section Advance

variable {s : FanoutState} (inv : FanoutInv lower id s) {seen : Database}
  {plan : Database.FanoutPlan} (opened : s.batch = some (seen, plan)) (now : Timestamp)
  (newId : UUID → UUID)

include inv opened

theorem advanced_cursor :
    (FanoutState.mk (fanoutAdvance lower s.db now plan newId).1 none).cursor id =
      advance (s.cursor id) plan.last := by
  obtain ⟨-, found⟩ := inv.batch seen plan opened
  obtain ⟨recipients, found'⟩ := campaignOf_advance lower now newId found
  simp [FanoutState.cursor, found, found', advanceCampaign]

theorem advanced_done :
    (FanoutState.mk (fanoutAdvance lower s.db now plan newId).1 none).done id =
      plan.last.all fun last => noneLeft lower s.db last plan.campaign := by
  obtain ⟨-, found⟩ := inv.batch seen plan opened
  obtain ⟨recipients, found'⟩ := campaignOf_advance lower now newId found
  simp [FanoutState.done, found', advanceCampaign]

theorem opened_cursor : s.cursor id = plan.campaign.fanoutCursor := by
  simp [FanoutState.cursor, (inv.batch seen plan opened).2]

end Advance

/-- The cursor never goes back. -/
theorem step_cursor {t : FanoutState} (step : FanoutStep lower id s t) (inv : FanoutInv lower id s) :
    Keyset.AtLeast (s.cursor id) (t.cursor id) := by
  rcases step.leaves_or_advances with leaves | ⟨now, newId, seen, plan, opened, rfl⟩
  · rw [leaves.cursor_eq inv]
    exact .refl _
  · obtain ⟨limit, -, eligible⟩ := (inv.batch seen plan opened).1.eligible
    rw [advanced_cursor inv opened, opened_cursor inv opened, Database.FanoutPlan.last, eligible]
    exact Keyset.atLeast_advance

/-- The snapshot that decides whether a batch is the last one: that of its selection if it is
empty, else that of the update of the campaign. -/
def Database.FanoutPlan.decidedBy (plan : Database.FanoutPlan) (seen db : Database) : Database :=
  if plan.last.isNone then seen else db

/-- The last batch leaves no recipient above the cursor. -/
theorem step_done {t : FanoutState} (step : FanoutStep lower id s t) (inv : FanoutInv lower id s)
    (before : s.done id = false) (after : t.done id = true) :
    ∃ seen plan, s.batch = some (seen, plan) ∧ ∀ subscriber,
      (plan.decidedBy seen s.db).Recipient lower id subscriber →
      above (t.cursor id) subscriber = false := by
  rcases step.leaves_or_advances with leaves | ⟨now, newId, seen, plan, opened, rfl⟩
  · have same : t.done id = s.done id := leaves.done_eq inv
    rw [same, before] at after
    cases after
  obtain ⟨selected, found⟩ := inv.batch seen plan opened
  refine ⟨seen, plan, opened, ?_⟩
  rintro _ ⟨c, found', sub, member, rfl, holds⟩
  rw [advanced_done inv opened] at after
  rw [advanced_cursor inv opened, opened_cursor inv opened]
  cases last_eq : plan.last with
  | none =>
    -- Nobody was selected, so nobody was above the cursor then.
    simp only [Database.FanoutPlan.decidedBy, last_eq, Option.isNone_none,
      ↓reduceIte] at found' member holds
    obtain rfl : plan.campaign = c := Option.some.inj (selected.campaign.symm.trans found')
    obtain ⟨limit, positive, eligible⟩ := selected.eligible
    by_contra unread
    have unread : above plan.campaign.fanoutCursor sub.id = true := by
      simpa [advance] using unread
    have empty := Keyset.lastKey_eq_none.mp last_eq
    rcases page_covers positive member holds unread with read | ⟨last, found_last, -⟩
    · rw [← eligible, empty] at read
      cases read
    · rw [← eligible, empty] at found_last
      cases found_last
  | some last =>
    simp only [Database.FanoutPlan.decidedBy, last_eq, Option.isNone_some, Bool.false_eq_true,
      ↓reduceIte] at found' member holds
    obtain rfl : plan.campaign = c := Option.some.inj (found.symm.trans found')
    simp only [last_eq, Option.all_some, noneLeft, Bool.not_eq_true', List.any_eq_false,
      Bool.and_eq_true, decide_eq_true_eq, not_and] at after
    have passed := after sub member holds
    simpa [advance, above] using passed

/-! ### A subscriber who stays a recipient -/

/-- The subscriber has a delivery or is still ahead of the cursor, and an open batch has seen it. -/
structure Ahead (lower : String → String) (id subscriber : UUID) (s : FanoutState) : Prop where
  covered : s.db.HasDelivery id subscriber ∨
    (s.done id = false ∧ above (s.cursor id) subscriber = true)
  planned : ∀ seen plan, s.batch = some (seen, plan) → s.db.HasDelivery id subscriber ∨
    ∃ sub ∈ seen.subscribers, sub.id = subscriber ∧
      fanoutEligible lower seen plan.campaign sub = true

theorem Database.KeepsFanout.ahead {subscriber : UUID} {db' : Database}
    (leaves : s.db.KeepsFanout id s.batch.isSome db') (inv : FanoutInv lower id s)
    (ahead : Ahead lower id subscriber s) : Ahead lower id subscriber ⟨db', s.batch⟩ where
  covered := by
    rw [leaves.done_eq inv, leaves.cursor_eq inv]
    exact ahead.covered.imp_left (leaves.deliveries subscriber)
  planned seen plan opened := (ahead.planned seen plan opened).imp_left (leaves.deliveries subscriber)

theorem advance_ahead {subscriber : UUID} (inv : FanoutInv lower id s)
    (ahead : Ahead lower id subscriber s)
    (recipient : s.done id = false → s.db.Recipient lower id subscriber) {seen : Database}
    {plan : Database.FanoutPlan}
    (opened : s.batch = some (seen, plan)) (now : Timestamp) (newId : UUID → UUID) :
    Ahead lower id subscriber ⟨(fanoutAdvance lower s.db now plan newId).1, none⟩ := by
  refine ⟨?_, fun _ _ none => by cases none⟩
  have kept (has : s.db.HasDelivery id subscriber) :
      (fanoutAdvance lower s.db now plan newId).1.HasDelivery id subscriber :=
    key_mem_insertAll_of_mem has
  obtain ⟨selected, found⟩ := inv.batch seen plan opened
  rcases ahead.covered with has | ⟨unfinished, unread⟩
  · exact .inl (kept has)
  rcases ahead.planned seen plan opened with has | ⟨sub, member, rfl, holds⟩
  · exact .inl (kept has)
  obtain ⟨limit, positive, eligible⟩ := selected.eligible
  rw [opened_cursor inv opened] at unread
  rcases page_covers positive member holds unread with read | ⟨last, last_eq, later⟩
  · -- The batch has it.
    rw [← eligible] at read
    have covered : (DeliverySource.campaign, plan.campaign.id, sub.id) ∈
        (insertBatch now plan newId s.db.deliveries).map (·.sourceKey) :=
      insertBatch_covers read
    rw [campaignOf_id found] at covered
    exact .inl covered
  · -- The batch ends before it, and the update sees that somebody is left.
    rw [← eligible] at last_eq
    change plan.last = some last at last_eq
    obtain ⟨c, found', sub', member', same, holds'⟩ := recipient unfinished
    obtain rfl : plan.campaign = c := Option.some.inj (found.symm.trans found')
    refine .inr ⟨?_, ?_⟩
    · rw [advanced_done inv opened, last_eq]
      simp only [Option.all_some, noneLeft, Bool.not_eq_false', List.any_eq_true,
        Bool.and_eq_true, decide_eq_true_eq]
      exact ⟨sub', member', holds', same ▸ later⟩
    · rw [advanced_cursor inv opened, last_eq]
      simpa [advance] using later

/-- A recipient stays served or ahead of the cursor. -/
theorem ahead_preserved (subscriber : UUID) :
    Preserved (fun s t => FanoutStep lower id s t ∧
        (s.done id = false → s.db.Recipient lower id subscriber))
      (fun s => FanoutInv lower id s ∧ Ahead lower id subscriber s) := by
  rintro s t ⟨step, recipient⟩ ⟨inv, ahead⟩
  refine ⟨fanoutInv_preserved s t step inv, ?_⟩
  cases step with
  | select batch domain plan idle call =>
    refine ⟨ahead.covered, ?_⟩
    intro seen plan' opened
    obtain ⟨rfl, rfl⟩ := Prod.mk.inj (Option.some.inj opened)
    have selected := fanoutSelect_selected call
    have unfinished : s.done id = false := by
      simp [FanoutState.done, selected.campaign, selected.unfinished]
    obtain ⟨c, found, sub, member, same, holds⟩ := recipient unfinished
    obtain rfl : plan.campaign = c := Option.some.inj (selected.campaign.symm.trans found)
    exact .inr ⟨sub, member, same, holds⟩
  | advance now newId seen plan opened => exact advance_ahead inv ahead recipient opened now newId
  | crash => exact ⟨ahead.covered, fun _ _ none => by cases none⟩
  | claim now limit locked held => exact (claimCampaigns_keepsFanout limit held).ahead inv ahead
  | other db' leaves => exact leaves.ahead inv ahead

/-! ### Runs -/

/-- The deliveries of the campaign for a subscriber. -/
def Database.deliveriesFor (db : Database) (id subscriber : UUID) : List Delivery :=
  db.deliveries.filter fun d => d.sourceKey == (.campaign, id, subscriber)

theorem deliveriesFor_le_one {db : Database} (unique : UniqueOn Delivery.sourceKey db.deliveries)
    (subscriber : UUID) : (db.deliveriesFor id subscriber).length ≤ 1 := by
  refine unique.filter_length_le_one fun a _ b _ chosen chosen' => ?_
  simp only [beq_iff_eq] at chosen chosen'
  rw [chosen, chosen']

theorem deliveriesFor_positive {db : Database} {subscriber : UUID}
    (has : db.HasDelivery id subscriber) : 0 < (db.deliveriesFor id subscriber).length := by
  obtain ⟨d, member, same⟩ := List.mem_map.mp has
  exact List.length_pos_of_mem (List.mem_filter.mpr ⟨member, by simpa using same⟩)

/-- The campaign as it is when its fan-out starts. -/
structure FanoutState.Starts (id : UUID) (s : FanoutState) : Prop where
  campaign : ∃ c, s.db.campaignOf id = some c ∧ c.fanoutCursor = none ∧ c.fanoutDone = false
  unique : UniqueOn Delivery.sourceKey s.db.deliveries
  idle : s.batch = none

theorem FanoutState.Starts.inv (starts : s.Starts id) : FanoutInv lower id s := by
  obtain ⟨c, found, -⟩ := starts.campaign
  exact ⟨⟨c, found⟩, starts.unique, fun _ _ opened => by simp [starts.idle] at opened⟩

theorem FanoutState.Starts.ahead (starts : s.Starts id) (subscriber : UUID) :
    Ahead lower id subscriber s := by
  obtain ⟨c, found, cursor, unfinished⟩ := starts.campaign
  refine ⟨.inr ⟨?_, ?_⟩, fun _ _ opened => by simp [starts.idle] at opened⟩
  · simp [FanoutState.done, found, unfinished]
  · simp [FanoutState.cursor, found, cursor]

/-- In every run of batches of any sizes, claims, crashes and transactions of the rest of the
program: the cursor never goes back; nobody gets two deliveries; the batch that ends the fan-out
left nobody above the cursor, in the snapshot that decided it; and whoever is a recipient in every
state until the fan-out is done has exactly one delivery then and from then on. -/
theorem fanout_complete {start : FanoutState} (starts : start.Starts id)
    {visited : List FanoutState} (run : Run (FanoutStep lower id) start visited) :
    (start :: visited).Pairwise (fun s t => Keyset.AtLeast (s.cursor id) (t.cursor id)) ∧
    (∀ s ∈ start :: visited, ∀ subscriber, (s.db.deliveriesFor id subscriber).length ≤ 1) ∧
    List.IsChain (fun s t => s.done id = false → t.done id = true →
      ∃ seen plan, s.batch = some (seen, plan) ∧ ∀ subscriber,
        (plan.decidedBy seen s.db).Recipient lower id subscriber →
        above (t.cursor id) subscriber = false) (start :: visited) ∧
    (∀ subscriber, (∀ s ∈ start :: visited, s.done id = false →
        s.db.Recipient lower id subscriber) →
      ∀ t ∈ start :: visited, t.done id = true →
        (t.db.deliveriesFor id subscriber).length = 1) := by
  have inv : FanoutInv lower id start := starts.inv
  refine ⟨?_, ?_, ?_, ?_⟩
  · exact run.pairwise fanoutInv_preserved (fun s => .refl _) (fun _ _ _ => .trans)
      (fun s t => step_cursor) inv
  · intro s member subscriber
    exact deliveriesFor_le_one (fanoutInv_preserved.reaches (run.reaches s member) inv).unique _
  · exact run.isChain fanoutInv_preserved (fun s t => step_done) inv
  · intro subscriber recipient t member finished
    have restricted := run.restrict recipient
    obtain ⟨inv', ahead⟩ := (ahead_preserved subscriber).reaches (restricted.reaches t member)
      ⟨inv, starts.ahead subscriber⟩
    have has : t.db.HasDelivery id subscriber := by
      rcases ahead.covered with has | ⟨unfinished, -⟩
      · exact has
      · simp [finished] at unfinished
    have least := deliveriesFor_positive has
    have most : (t.db.deliveriesFor id subscriber).length ≤ 1 :=
      deliveriesFor_le_one inv'.unique subscriber
    omega

end Run

namespace Sample

def newsletter : Campaign :=
  ⟨100, 1, 1, 20, some 40, [], .sending, some 0, some 0, none, none, false, 0, 0⟩

def newsletterDatabase : Database :=
  { database with
    lists := [⟨20, 1, 1, false, .active⟩], listKeys := [⟨21, 1, 1, 20, .enabled⟩]
    campaigns := [newsletter] }

/-- A list of two subscribers, for batches of one. -/
def twoListed : Database :=
  { newsletterDatabase with
    subscribers := newsletterDatabase.subscribers ++
      [⟨51, 1, 1, 20, "bob@example.com", .active, none, none, none, none, none⟩] }

def firstBatch : Database.FanoutPlan := ⟨newsletter, twoListed.subscribers.take 1⟩

def halfway : Database := (fanoutAdvance id twoListed 0 firstBatch fun s => s + 40).1

def secondBatch : Database.FanoutPlan :=
  ⟨halfway.campaigns.headD newsletter, twoListed.subscribers.drop 1⟩

def newsletterSent : FanoutState :=
  ⟨(fanoutAdvance id halfway 1 secondBatch fun s => s + 40).1, none⟩

/-- Batches of one, with a crash before the second is committed, reach both subscribers once. -/
theorem fanout_complete_newsletter :
    (newsletterSent.db.deliveriesFor 100 50).length = 1 ∧
      (newsletterSent.db.deliveriesFor 100 51).length = 1 := by
  have first : FanoutStep id 100 ⟨twoListed, none⟩ ⟨twoListed, some (twoListed, firstBatch)⟩ :=
    .select (some 1) (some "example.com") firstBatch rfl rfl
  have second : FanoutStep id 100 ⟨halfway, none⟩ ⟨halfway, some (halfway, secondBatch)⟩ :=
    .select (some 1) (some "example.com") secondBatch rfl rfl
  have run : Run (FanoutStep id 100) ⟨twoListed, none⟩
      [⟨twoListed, some (twoListed, firstBatch)⟩, ⟨halfway, none⟩,
        ⟨halfway, some (halfway, secondBatch)⟩, ⟨halfway, none⟩,
        ⟨halfway, some (halfway, secondBatch)⟩, newsletterSent] :=
    .cons_cons first (.cons_cons (.advance 0 (fun s => s + 40) twoListed firstBatch rfl)
      (.cons_cons second (.cons_cons .crash (.cons_cons second
        (.cons_cons (.advance 1 (fun s => s + 40) halfway secondBatch rfl)
          (List.isChain_singleton _))))))
  have starts : (FanoutState.mk twoListed none).Starts 100 :=
    ⟨⟨newsletter, rfl, rfl, rfl⟩, by decide, rfl⟩
  have reached (subscriber : UUID) (before : twoListed.Recipient id 100 subscriber)
      (after : halfway.Recipient id 100 subscriber) :
      (newsletterSent.db.deliveriesFor 100 subscriber).length = 1 := by
    refine (fanout_complete starts run).2.2.2 subscriber ?_ newsletterSent (by simp) (by decide)
    intro s member unfinished
    simp only [List.mem_cons, List.not_mem_nil, or_false] at member
    rcases member with rfl | rfl | rfl | rfl | rfl | rfl | rfl
    · exact before
    · exact before
    · exact after
    · exact after
    · exact after
    · exact after
    · exact absurd unfinished (by decide)
  constructor
  · exact reached 50 ⟨_, rfl, _, List.mem_cons_self, rfl, by decide⟩
      ⟨_, rfl, _, List.mem_cons_self, rfl, by decide⟩
  · exact reached 51 ⟨_, rfl, _, List.mem_cons_of_mem _ List.mem_cons_self, rfl, by decide⟩
      ⟨_, rfl, _, List.mem_cons_of_mem _ List.mem_cons_self, rfl, by decide⟩

def nobodyListed : Database := { newsletterDatabase with subscribers := [] }

/-- What a subscription leaves that is committed between the two statements of a batch. -/
def lateSubscriber : Database :=
  (subscribe ⟨21, 20, 1, 1, "bob@example.com", none, .publicForm, none, false, some 7, some 9⟩
    51).perform 0 nobodyListed

/-- An empty batch marks the fan-out as done although a recipient above the cursor has joined
since its selection. -/
theorem done_with_late_subscriber :
    ∃ s t, Reaches (FanoutStep id 100) ⟨nobodyListed, none⟩ s ∧ FanoutStep id 100 s t ∧
      s.done 100 = false ∧ t.done 100 = true ∧
      ∃ subscriber, t.db.Recipient id 100 subscriber ∧
        above (t.cursor 100) subscriber = true := by
  have selected : FanoutStep id 100 ⟨nobodyListed, none⟩
      ⟨nobodyListed, some (nobodyListed, ⟨newsletter, []⟩)⟩ :=
    .select (some 250) (some "example.com") ⟨newsletter, []⟩ rfl rfl
  have joined : FanoutStep id 100 ⟨nobodyListed, some (nobodyListed, ⟨newsletter, []⟩)⟩
      ⟨lateSubscriber, some (nobodyListed, ⟨newsletter, []⟩)⟩ :=
    .other _ (consentCall_keepsFanout ⟨by decide, by decide⟩ _)
  refine ⟨_, _, (Relation.ReflTransGen.single selected).tail joined,
    .advance 0 (fun _ => 90) nobodyListed ⟨newsletter, []⟩ rfl, by decide, by decide, 51, ?_,
    by decide⟩
  exact ⟨_, rfl, _, List.mem_cons_self, rfl, by decide⟩

end Sample

end Manyforge
