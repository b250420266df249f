import Manyforge.Coding.ReviewWorker

/-!
# One live review for a pull-request head

`github_pr_review_ingest` inserts a review only where the head has no live one, and supersedes what
is pending for the pull request. The workers then move the rows on without looking at their
siblings: a requeue makes a row pending again, and a success gives it the head that the pull
request had by then. The reviews stay apart exactly when those two steps find no rival.
-/
namespace Manyforge.Coding

open Table Transition

/-- Two reviews of one pull request that are both pending, or both live for one head. -/
def CodeReview.Clash (r r' : CodeReview) : Prop :=
  r.id ≠ r'.id ∧ r.repoConnectorId = r'.repoConnectorId ∧ r.prNumber = r'.prNumber ∧
    (r.status = .pending ∧ r'.status = .pending ∨
      r.live = true ∧ r'.live = true ∧ r.headSha = r'.headSha)
  deriving Decidable

theorem CodeReview.Clash.symm {r r' : CodeReview} (clash : r.Clash r') : r'.Clash r := by
  obtain ⟨other, connector, pr, both⟩ := clash
  refine ⟨other.symm, connector.symm, pr.symm, both.imp And.symm ?_⟩
  rintro ⟨live, live', head⟩
  exact ⟨live', live, head.symm⟩

namespace QueueState

variable (s : QueueState)

/-- No two reviews that webhooks have caused clash. -/
def OneLive : Prop :=
  ∀ r ∈ s.db.reviews, r.id ∈ s.ingested → ∀ r' ∈ s.db.reviews, r'.id ∈ s.ingested → ¬ r.Clash r'
  deriving Decidable

/-- The other reviews of the same pull request that webhooks have caused. -/
def rivals (r : CodeReview) : List CodeReview :=
  s.db.reviews.filter fun r' => s.ingested.contains r'.id && r'.id != r.id &&
    r'.ofPullRequest r.repoConnectorId r.prNumber

/-- A success finds no live rival for the head it writes; a requeue finds no rival that is pending,
and none that is live for the head of its row. -/
def CallPermitted (attempts : Nat) (r : CodeReview) : JobCall → Prop
  | .succeed headSha .. => ∀ r' ∈ s.rivals r, ¬ (r'.live = true ∧ headSha = r'.headSha)
  | .giveUp maxAttempts _ =>
    attempts < maxAttempts → r.unsettled = true → ∀ r' ∈ s.rivals r,
      ¬ (r'.status = .pending ∨ r'.live = true ∧ r.headSha = r'.headSha)
  | _ => True

def Permitted : QueueAction → Prop
  | .call key call =>
    (∃ job ∈ s.jobs, job.key = key ∧ call.enabled job.phase = true) →
      ∀ r ∈ s.db.reviews, r.id = key.1 → r.id ∈ s.ingested → s.CallPermitted key.2 r call
  | _ => True

end QueueState

/-- The ids are unique, and what webhooks have caused is in the table. -/
structure IngestInv (s : QueueState) : Prop where
  unique : UniqueOn (·.id) s.db.reviews
  known : ∀ id ∈ s.ingested, ∃ r ∈ s.db.reviews, r.id = id

section Decidable

variable (s : QueueState)

instance (attempts : Nat) (r : CodeReview) :
    (call : JobCall) → Decidable (s.CallPermitted attempts r call)
  | .succeed .. => inferInstanceAs (Decidable (∀ r' ∈ s.rivals r, _))
  | .giveUp .. => inferInstanceAs (Decidable (_ → _ → ∀ r' ∈ s.rivals r, _))
  | .renew .. | .failWrite | .recordUsage _ => .isTrue trivial

instance : (action : QueueAction) → Decidable (s.Permitted action)
  | .call .. => inferInstanceAs (Decidable ((∃ job ∈ s.jobs, _) → ∀ r ∈ s.db.reviews, _))
  | .claim .. | .crash _ | .ingest .. | .enqueue .. | .wait _ | .allowWrites _ => .isTrue trivial

end Decidable

/-! ### Changes of rows -/

/-- A row that is no more in the way of others than before. -/
structure Recedes (r r' : CodeReview) : Prop where
  id : r'.id = r.id
  connector : r'.repoConnectorId = r.repoConnectorId
  pr : r'.prNumber = r.prNumber
  pending : r'.status = .pending → r.status = .pending
  live : r'.live = true → r.live = true ∧ r'.headSha = r.headSha

theorem Recedes.refl (r : CodeReview) : Recedes r r :=
  ⟨rfl, rfl, rfl, fun pending => pending, fun live => ⟨live, rfl⟩⟩

theorem Recedes.clash {a a' b b' : CodeReview} (left : Recedes a a') (right : Recedes b b')
    (clash : a'.Clash b') : a.Clash b := by
  obtain ⟨other, connector, pr, both⟩ := clash
  rw [left.id, right.id] at other
  rw [left.connector, right.connector] at connector
  rw [left.pr, right.pr] at pr
  refine ⟨other, connector, pr, both.imp (And.imp left.pending right.pending) ?_⟩
  rintro ⟨live, live', head⟩
  obtain ⟨live, head_a⟩ := left.live live
  obtain ⟨live', head_b⟩ := right.live live'
  exact ⟨live, live', head_a.symm.trans (head.trans head_b)⟩

namespace QueueState

variable {s : QueueState} {t : QueueState} {r r' : CodeReview} {change : CodeReview → CodeReview}

theorem OneLive.of_recedes (one : s.OneLive) (ingested : t.ingested = s.ingested)
    (rows : RowByRow Recedes s.db.reviews t.db.reviews) : t.OneLive := by
  intro r' row' known r₂' row₂' known₂ clash
  obtain ⟨r, row, left⟩ := rows.exists_before row'
  obtain ⟨r₂, row₂, right⟩ := rows.exists_before row₂'
  rw [ingested, left.id] at known
  rw [ingested, right.id] at known₂
  exact one r row known r₂ row₂ known₂ (left.clash right clash)

theorem mem_rivals : r' ∈ s.rivals r ↔
    r' ∈ s.db.reviews ∧ r'.id ∈ s.ingested ∧ r'.id ≠ r.id ∧
      r'.repoConnectorId = r.repoConnectorId ∧ r'.prNumber = r.prNumber := by
  simp [rivals, CodeReview.ofPullRequest, and_assoc]

/-- A change of one row that keeps it the same review. -/
structure Rewrites (r : CodeReview) (change : CodeReview → CodeReview) : Prop where
  id : (change r).id = r.id
  connector : (change r).repoConnectorId = r.repoConnectorId
  pr : (change r).prNumber = r.prNumber

/-- After a change of one review, the reviews stay apart exactly when the changed one clashes with
none of its rivals. -/
theorem OneLive.update_iff {r : CodeReview}
    (one : s.OneLive) (unique : UniqueOn (·.id) s.db.reviews) (row : r ∈ s.db.reviews)
    (known : r.id ∈ s.ingested) (rewrites : Rewrites r change) (ingested : t.ingested = s.ingested)
    (reviews : t.db.reviews = updateWhere (fun r' => r'.id == r.id) change s.db.reviews) :
    t.OneLive ↔ ∀ r' ∈ s.rivals r, ¬ (change r).Clash r' := by
  have changed : change r ∈ t.db.reviews := by
    rw [reviews]
    exact mem_updateWhere.mpr ⟨r, row, by simp⟩
  have after : ∀ r' ∈ t.db.reviews, r' = change r ∨ r' ∈ s.db.reviews ∧ r'.id ≠ r.id := by
    intro r' row'
    rw [reviews] at row'
    obtain ⟨old, old_row, ⟨same, rfl⟩ | ⟨other, rfl⟩⟩ := updated_or_kept row'
    · obtain rfl := unique.eq_of_key old_row row (beq_iff_eq.mp same)
      exact .inl rfl
    · exact .inr ⟨old_row, by simpa using other⟩
  constructor
  · intro one' r' rival clash
    obtain ⟨row', known', other, -⟩ := mem_rivals.mp rival
    have kept : r' ∈ t.db.reviews := by
      rw [reviews]
      exact mem_updateWhere.mpr ⟨r', row', by simp [other]⟩
    refine one' _ changed ?_ r' kept ?_ clash
    · rw [ingested, rewrites.id]
      exact known
    · rw [ingested]
      exact known'
  · intro apart
    -- A clash with the changed row is a clash with one of its rivals.
    have against : ∀ r' ∈ t.db.reviews, r'.id ∈ s.ingested → ¬ (change r).Clash r' := by
      intro r' row' known' clash
      rcases after r' row' with rfl | ⟨old, other⟩
      · exact clash.1 rfl
      · obtain ⟨-, connector, pr, -⟩ := id clash
        exact apart r' (mem_rivals.mpr ⟨old, known', other, by rw [← connector, rewrites.connector],
          by rw [← pr, rewrites.pr]⟩) clash
    intro a a_row a_known b b_row b_known clash
    rw [ingested] at a_known b_known
    rcases after a a_row with rfl | ⟨a_old, -⟩
    · exact against b b_row b_known clash
    rcases after b b_row with rfl | ⟨b_old, -⟩
    · exact against a a_row a_known clash.symm
    · exact one a a_old a_known b b_old b_known clash

theorem OneLive.of_unknown {id : UUID}
    (one : s.OneLive) (unknown : id ∉ s.ingested ∨ ∀ r ∈ s.db.reviews, r.id ≠ id)
    (kept : ∀ r, (change r).id = r.id) (ingested : t.ingested = s.ingested)
    (reviews : t.db.reviews = updateWhere (fun r' => r'.id == id) change s.db.reviews) :
    t.OneLive := by
  have after : ∀ r' ∈ t.db.reviews, r'.id ∈ t.ingested → r' ∈ s.db.reviews ∧ r'.id ∈ s.ingested := by
    intro r' row' known
    rw [ingested] at known
    rw [reviews] at row'
    obtain ⟨old, old_row, rfl⟩ := mem_updateWhere.mp row'
    by_cases same : old.id = id
    · rcases unknown with unknown | absent
      · simp only [same, BEq.rfl, ↓reduceIte, kept] at known
        exact absurd known unknown
      · exact absurd same (absent old old_row)
    · simp only [beq_iff_eq, same, ↓reduceIte] at known ⊢
      exact ⟨old_row, known⟩
  intro a a_row a_known b b_row b_known
  obtain ⟨a_old, a_known⟩ := after a a_row a_known
  obtain ⟨b_old, b_known⟩ := after b b_row b_known
  exact one a a_old a_known b b_old b_known

/-! ### The steps -/

theorem rewrites_row (s : QueueState) (job : WorkerJob) (call : JobCall) (r : CodeReview) :
    Rewrites r (fun r => call.row s.clock job r) :=
  have identity := JobCall.row_identity s.clock job r call
  ⟨identity.1, identity.2.2.1, identity.2.2.2⟩

theorem clash_rival (rewrites : Rewrites r change) (rival : r' ∈ s.rivals r) : (change r).Clash r' ↔
      ((change r).status = .pending ∧ r'.status = .pending ∨
        (change r).live = true ∧ r'.live = true ∧ (change r).headSha = r'.headSha) := by
  obtain ⟨-, -, other, connector, pr⟩ := mem_rivals.mp rival
  simp only [CodeReview.Clash, rewrites.id, rewrites.connector, rewrites.pr, connector,
    pr, true_and, ne_eq, Ne.symm other, not_false_eq_true]

theorem Recedes.apart (one : s.OneLive) (row : r ∈ s.db.reviews) (known : r.id ∈ s.ingested)
    {r₁ : CodeReview} (recedes : Recedes r r₁) (rival : r' ∈ s.rivals r) : ¬ r₁.Clash r' := by
  obtain ⟨row', known', -⟩ := mem_rivals.mp rival
  exact fun clash => one r row known r' row' known' (recedes.clash (.refl r') clash)

theorem recedes_row {clock : Timestamp} {job : WorkerJob} {call : JobCall} {r : CodeReview}
    (success : ∀ headSha result usage, call ≠ .succeed headSha result usage)
    (requeue : ∀ maxAttempts error, call = .giveUp maxAttempts error →
      ¬ (job.attempts < maxAttempts ∧ r.unsettled = true)) : Recedes r (call.row clock job r) := by
  cases call with
  | succeed headSha result usage => exact absurd rfl (success headSha result usage)
  | renew interval progress =>
    simp only [JobCall.row]
    split
    · exact ⟨rfl, rfl, rfl, fun pending => pending, fun live => ⟨live, rfl⟩⟩
    · exact .refl r
  | failWrite =>
    refine ⟨rfl, rfl, rfl, fun pending => ?_, fun live => ?_⟩
    · cases pending
    · simp [JobCall.row, CodeReview.withResult, CodeReview.live] at live
  | recordUsage usage => exact ⟨rfl, rfl, rfl, fun pending => pending, fun live => ⟨live, rfl⟩⟩
  | giveUp maxAttempts error =>
    have final := requeue maxAttempts error rfl
    simp only [JobCall.row]
    split
    next unsettled =>
      have exhausted : ¬ job.attempts < maxAttempts := fun less => final ⟨less, unsettled⟩
      rw [if_neg exhausted]
      refine ⟨rfl, rfl, rfl, fun pending => ?_, fun live => ?_⟩
      · cases pending
      · simp [CodeReview.failedWith, CodeReview.live] at live
    next => exact .refl r

variable (one : s.OneLive)

include one

theorem callPermitted_iff {r : CodeReview} (row : r ∈ s.db.reviews)
    (known : r.id ∈ s.ingested) (job : WorkerJob) (call : JobCall) :
    s.CallPermitted job.attempts r call ↔
      ∀ r' ∈ s.rivals r, ¬ (call.row s.clock job r).Clash r' := by
  cases call with
  | succeed headSha result usage =>
    refine forall₂_congr fun r' rival => not_congr ?_
    rw [clash_rival (rewrites_row s job (.succeed headSha result usage) r) rival]
    simp [JobCall.row, CodeReview.withResult, CodeReview.live]
  | giveUp maxAttempts error =>
    by_cases requeues : job.attempts < maxAttempts ∧ r.unsettled = true
    · obtain ⟨less, unsettled⟩ := requeues
      simp only [CallPermitted, less, unsettled, forall_const]
      refine forall₂_congr fun r' rival => not_congr ?_
      rw [clash_rival (rewrites_row s job (.giveUp maxAttempts error) r) rival]
      simp [JobCall.row, CodeReview.requeued, less, unsettled, CodeReview.live]
    · refine iff_of_true (fun less unsettled => absurd ⟨less, unsettled⟩ requeues) ?_
      intro r' rival
      refine Recedes.apart one row known (recedes_row (fun _ _ _ => by simp) ?_) rival
      rintro _ _ ⟨⟩
      exact requeues
  | _ =>
    refine iff_of_true trivial fun r' rival => ?_
    exact Recedes.apart one row known (recedes_row (by simp) (by simp)) rival

theorem call_oneLive_iff (inv : IngestInv s) (key : UUID × Nat) (call : JobCall) :
    (s.call key call).OneLive ↔ s.Permitted (.call key call) := by
  rcases s.call_cases key call with ⟨idle, same⟩ | ⟨job, member, rfl, enabled, ingested, reviews⟩
  · rw [same]
    exact iff_of_true one fun acting => absurd acting idle
  have kept (r : CodeReview) := (JobCall.row_identity s.clock job r call).1
  by_cases known : ∃ r ∈ s.db.reviews, r.id = job.reviewId ∧ r.id ∈ s.ingested
  · obtain ⟨r, row, id, known⟩ := known
    have written : (s.call job.key call).db.reviews = updateWhere (fun r' => r'.id == r.id)
        (fun r => call.row s.clock job r) s.db.reviews := by rw [reviews, id]; rfl
    rw [one.update_iff inv.unique row known (rewrites_row s job call r) ingested written,
      ← callPermitted_iff one row known job call]
    constructor
    · intro permitted _ r' row' id' _
      rw [inv.unique.eq_of_key row' row (id'.trans id.symm)]
      exact permitted
    · intro permitted
      exact permitted ⟨job, member, rfl, enabled⟩ r row id known
  · -- The row is not one of a webhook, or there is none.
    have unknown : job.reviewId ∉ s.ingested ∨ ∀ r ∈ s.db.reviews, r.id ≠ job.reviewId := by
      by_cases absent : ∃ r ∈ s.db.reviews, r.id = job.reviewId
      · obtain ⟨r, row, id⟩ := absent
        exact .inl fun caused => known ⟨r, row, id, id ▸ caused⟩
      · exact .inr fun r row id => absent ⟨r, row, id⟩
    refine iff_of_true (one.of_unknown unknown kept ingested reviews) ?_
    intro _ r row id caused
    exact absurd ⟨r, row, id, caused⟩ known

theorem claim_oneLive (interval : Timestamp) (limit : Nat) (locked : CodeReview → Bool)
    (unique : UniqueOn (·.id) s.db.reviews) : (s.claim interval limit locked).OneLive := by
  have written : (s.claim interval limit locked).db.reviews =
      updateWhere (fun r => (s.db.claimedIds s.clock limit locked).contains r.id)
        (·.claimed (s.clock + interval)) s.db.reviews := rfl
  refine one.of_recedes rfl ?_
  rw [written]
  refine .updateWhere Recedes.refl fun r row taken => ?_
  obtain ⟨selected, chosen, id⟩ := List.mem_map.mp (List.contains_iff_mem.mp taken)
  obtain ⟨row_selected, holds, -⟩ := mem_selectForUpdate chosen
  obtain rfl := unique.eq_of_key row_selected row id
  refine ⟨rfl, rfl, rfl, fun pending => ?_, fun _ => ⟨?_, rfl⟩⟩
  · cases pending
  · -- What can be claimed is pending or running, so it was live before.
    simp only [CodeReview.claimable, Bool.and_eq_true, Bool.or_eq_true, beq_iff_eq] at holds
    rcases holds.1 with ⟨pending, -⟩ | ⟨running, -⟩
    · simp [CodeReview.live, pending]
    · simp [CodeReview.live, running]

theorem ingest_oneLive (request : ReviewDb.IngestRequest)
    (newConnector newId : UUID) : (s.ingest request newConnector newId).OneLive := by
  unfold QueueState.ingest
  split
  next => exact one
  next absent =>
  rcases s.db.githubPrReviewIngest_cases s.clock request newConnector newId with
    ⟨reviews, none⟩ | ⟨connector, skipped, reviews, inserted⟩
  · simp only [OneLive, reviews, none, Option.toList_none, List.append_nil]
    exact one
  simp only [OneLive, reviews, inserted, Option.toList_some]
  have superseded : RowByRow Recedes s.db.reviews
      (s.db.supersedePending connector request.prNumber) := by
    refine .updateWhere Recedes.refl fun r _ _ => ⟨rfl, rfl, rfl, fun pending => ?_, fun live => ?_⟩
    · cases pending
    · simp [CodeReview.live] at live
  have old_id : ∀ r ∈ s.db.supersedePending connector request.prNumber, r.id ≠ newId := by
    intro r member
    obtain ⟨old, row, recedes⟩ := superseded.exists_before member
    rw [recedes.id]
    exact fresh_id absent old row
  have old_known : ∀ r ∈ s.db.supersedePending connector request.prNumber,
      r.id ∈ s.ingested ++ [newId] → r.id ∈ s.ingested := by
    intro r member known
    simpa [old_id r member] using known
  set new := ReviewDb.newReview s.clock newId request.businessId request.tenantRoot connector
    request.prNumber request.headSha "" with new_eq
  have against : ∀ r ∈ s.db.supersedePending connector request.prNumber, ¬ new.Clash r := by
    rintro r member ⟨-, same_connector, same_pr, both⟩
    simp only [new_eq, ReviewDb.newReview] at same_connector same_pr
    obtain ⟨old, row, ⟨-, rfl⟩ | ⟨other, rfl⟩⟩ := updated_or_kept member
    · simp [CodeReview.live] at both
    · have sibling : old.ofPullRequest connector request.prNumber = true := by
        simp [CodeReview.ofPullRequest, ← same_connector, ← same_pr]
      rcases both with ⟨-, is_pending⟩ | ⟨-, live, head⟩
      · simp [sibling, is_pending] at other
      · have dead := skipped old row sibling head.symm
        simp [dead] at live
  intro a a_row a_known b b_row b_known clash
  rcases mem_inserted.mp a_row with a_old | rfl
  · rcases mem_inserted.mp b_row with b_old | rfl
    · obtain ⟨a', a_row', a_recedes⟩ := superseded.exists_before a_old
      obtain ⟨b', b_row', b_recedes⟩ := superseded.exists_before b_old
      have a_known := a_recedes.id ▸ old_known a a_old a_known
      have b_known := b_recedes.id ▸ old_known b b_old b_known
      exact one a' a_row' a_known b' b_row' b_known (a_recedes.clash b_recedes clash)
    · exact against a a_old clash.symm
  · rcases mem_inserted.mp b_row with b_old | rfl
    · exact against b b_old clash
    · exact clash.1 rfl

theorem enqueue_oneLive (inv : IngestInv s) {new : CodeReview}
    (absent : ¬ s.hasReview new.id = true) :
    ({ s with db := { s.db with reviews := s.db.reviews ++ [new] } } : QueueState).OneLive := by
  have old : ∀ r ∈ s.db.reviews ++ [new], r.id ∈ s.ingested → r ∈ s.db.reviews := by
    intro r member known
    rcases List.mem_append.mp member with old | added
    · exact old
    · obtain ⟨r', row', id⟩ := inv.known r.id known
      rw [List.mem_singleton.mp added] at id
      exact absurd id (fresh_id absent r' row')
  intro a a_row a_known b b_row b_known
  exact one a (old a a_row a_known) a_known b (old b b_row b_known) b_known

/-- No reviews clash after a step exactly when it was permitted. -/
theorem next_oneLive_iff (inv : IngestInv s) (action : QueueAction) :
    (s.next action).OneLive ↔ s.Permitted action := by
  cases action with
  | call key call => exact call_oneLive_iff one inv key call
  | claim interval limit locked =>
    exact iff_of_true (claim_oneLive one interval limit locked inv.unique) trivial
  | ingest request newConnector newId =>
    exact iff_of_true (ingest_oneLive one request newConnector newId) trivial
  | enqueue id business root connector prNumber model =>
    refine iff_of_true ?_ trivial
    simp only [next]
    split
    next => exact one
    next absent =>
    have fresh : ¬ s.hasReview
        (ReviewDb.newReview s.clock id business root connector prNumber "" model).id = true :=
      absent
    exact enqueue_oneLive one inv fresh
  | crash _ | wait _ | allowWrites _ => exact iff_of_true one trivial

end QueueState

namespace IngestInv

variable {s : QueueState}

theorem of_updateWhere (inv : IngestInv s) {t : QueueState} {chosen : CodeReview → Bool}
    {change : CodeReview → CodeReview} (kept : ∀ r, (change r).id = r.id)
    (ingested : t.ingested = s.ingested)
    (reviews : t.db.reviews = updateWhere chosen change s.db.reviews) : IngestInv t where
  unique := by
    rw [reviews]
    exact inv.unique.updateWhere fun r _ => kept r
  known id member := by
    rw [ingested] at member
    obtain ⟨r, row, rfl⟩ := inv.known id member
    refine ⟨_, by rw [reviews]; exact mem_updateWhere.mpr ⟨r, row, rfl⟩, ?_⟩
    split
    · exact kept r
    · rfl

theorem next (inv : IngestInv s) (action : QueueAction) : IngestInv (s.next action) := by
  cases action with
  | claim interval limit locked =>
    have claimed (r : CodeReview) : (r.claimed (s.clock + interval)).id = r.id := rfl
    exact inv.of_updateWhere claimed rfl rfl
  | call key call =>
    rcases s.call_cases key call with ⟨-, same⟩ | ⟨job, -, -, -, ingested, reviews⟩
    · simp only [QueueState.next, same]
      exact inv
    · exact inv.of_updateWhere (fun r => (JobCall.row_identity s.clock job r call).1) ingested reviews
  | ingest request newConnector newId =>
    simp only [QueueState.next, QueueState.ingest]
    split
    next => exact inv
    next absent =>
    rcases s.db.githubPrReviewIngest_cases s.clock request newConnector newId with
      ⟨reviews, none⟩ | ⟨connector, -, reviews, inserted⟩
    · refine ⟨by rw [reviews]; exact inv.unique, ?_⟩
      simp only [reviews, none, Option.toList_none, List.append_nil]
      exact inv.known
    · have updated : UniqueOn (·.id) (s.db.supersedePending connector request.prNumber) :=
        inv.unique.updateWhere fun _ _ => rfl
      have same_id : ∀ id, (∃ r ∈ s.db.reviews, r.id = id) →
          ∃ r ∈ s.db.supersedePending connector request.prNumber, r.id = id := by
        rintro _ ⟨r, row, rfl⟩
        exact ⟨_, mem_updateWhere.mpr ⟨r, row, rfl⟩, by split <;> rfl⟩
      refine ⟨?_, fun id member => ?_⟩
      · rw [reviews]
        refine updated.append_fresh fun old member => ?_
        obtain ⟨r, row, rfl⟩ := mem_updateWhere.mp member
        split <;> exact QueueState.fresh_id absent r row
      · simp only [inserted, Option.toList_some] at member
        rw [reviews]
        rcases List.mem_append.mp member with old | new
        · obtain ⟨r, row, id⟩ := same_id id (inv.known id old)
          exact ⟨r, List.mem_append_left _ row, id⟩
        · exact ⟨_, List.mem_concat_self,
            (List.mem_singleton.mp new).symm⟩
  | enqueue id business root connector prNumber model =>
    simp only [QueueState.next]
    split
    next => exact inv
    next absent =>
    refine ⟨inv.unique.append_fresh (QueueState.fresh_id absent), fun known member => ?_⟩
    obtain ⟨r, row, same⟩ := inv.known known member
    exact ⟨r, List.mem_append_left _ row, same⟩
  | crash _ | wait _ | allowWrites _ => exact ⟨inv.unique, inv.known⟩

end IngestInv

/-- Along every run, the reviews that webhooks have caused stay apart after each action exactly when
every success and every requeue finds no rival. -/
theorem one_live_review_iff {s : QueueState} (start : IngestInv s) (one : s.OneLive)
    (actions : List QueueAction) :
    Along QueueState.next (fun s action => (s.next action).OneLive) s actions ↔
      Along QueueState.next QueueState.Permitted s actions :=
  Along.iff_of_step QueueState.OneLive
    (fun _ action inv one => QueueState.next_oneLive_iff one inv action)
    (fun _ action inv => inv.next action) start one

namespace Sample

def quiet : QueueState where
  db := { reviews := [], connectors := [], deliveries := [], writeAllowed := fun _ => true }
  clock := 1000
  jobs := []
  ingested := []

def push (delivery headSha : String) : ReviewDb.IngestRequest :=
  ⟨5, delivery, 7, 7, "acme/shop", 41, headSha⟩

theorem quiet_inv : IngestInv quiet := ⟨by decide, by decide⟩

theorem quiet_oneLive : quiet.OneLive := by decide

/-- A second push, a replayed delivery and a retry between them. -/
theorem one_live_review_pushes :
    Along QueueState.next (fun s action => (s.next action).OneLive) quiet
      [.ingest (push "d1" "c1") 9 1, .claim 900000000 2 fun _ => false, .call (1, 1) .failWrite,
        .call (1, 1) (.giveUp 3 "timeout"), .ingest (push "d2" "c2") 10 2,
        .ingest (push "d2" "c2") 11 3, .claim 900000000 2 fun _ => false,
        .call (2, 1) (.succeed "c2" emptyResult noUsage)] :=
  (one_live_review_iff quiet_inv quiet_oneLive _).mpr (by decide +kernel)

/-- A job fails; before it requeues its review, a new push arrives. -/
def pushedBetween : QueueState :=
  [QueueAction.ingest (push "d1" "c1") 9 1, .claim 900000000 2 fun _ => false,
    .call (1, 1) .failWrite, .ingest (push "d2" "c2") 10 2,
    .call (1, 1) (.giveUp 3 "timeout")].foldl QueueState.next quiet

/-- Both reviews are run at the head that the pull request has by then. -/
def reviewedTwice : QueueState :=
  [QueueAction.wait 60000000, .claim 900000000 2 fun _ => false,
    .call (2, 1) (.succeed "c2" emptyResult noUsage),
    .call (1, 2) (.succeed "c2" emptyResult noUsage)].foldl QueueState.next pushedBetween

/-- Two pending reviews of one pull request, and then two succeeded ones of one head. -/
theorem pushed_between_fail_and_requeue :
    (quiet.OneLive ∧ IngestInv quiet) ∧
      (pushedBetween.db.reviews.map fun r => (r.id, r.status)) = [(1, .pending), (2, .pending)] ∧
      (reviewedTwice.db.reviews.map fun r => (r.id, r.status, r.headSha)) =
        [(1, .succeeded, "c2"), (2, .succeeded, "c2")] ∧
      ¬ pushedBetween.OneLive ∧ ¬ reviewedTwice.OneLive :=
  ⟨⟨quiet_oneLive, quiet_inv⟩, by decide +kernel, by decide +kernel, by decide +kernel,
    by decide +kernel⟩

end Sample

end Manyforge.Coding
