import Manyforge.Coding.ReviewWorker

/-!
# The fencing of the code-review queue

No write of a job carries the claim it was made under. What keeps a job from another job's row is
its lease alone: as long as every job writes and renews within the lease that it last set, a row
that was claimed again is not written by the earlier claim, and a settled row stays as it is.
-/
namespace Manyforge.Coding

open Table Transition JobCall

/-- The row as a job that is not done finds it: its own, or claimed again after its lease. -/
structure Tracks (clock : Timestamp) (job : WorkerJob) (r : CodeReview) : Prop where
  le : job.attempts ≤ r.attempts
  running : job.attempts = r.attempts → job.phase = .running →
    r.status = .running ∧ r.leaseExpiresAt = some job.deadline
  failing : job.attempts = r.attempts → job.phase = .failing → r.status = .failed
  succeeded : job.attempts = r.attempts → job.phase = .succeeded → r.status = .succeeded
  stale : job.attempts < r.attempts →
    job.phase = .done ∨ job.phase = .running ∧ job.deadline < clock

structure QueueInv (s : QueueState) : Prop where
  unique : UniqueOn (·.id) s.db.reviews
  keys : UniqueOn WorkerJob.key s.jobs
  tracked : ∀ job ∈ s.jobs, ∃ r ∈ s.db.reviews, r.id = job.reviewId ∧ Tracks s.clock job r

/-- The calls that lie within the lease of the job. -/
def JobCall.InTime (clock : Timestamp) (job : WorkerJob) : JobCall → Prop
  | .renew .. => job.phase ≠ .done ∧ (job.phase = .running → clock ≤ job.deadline)
  | _ => job.phase = .running → clock ≤ job.deadline

variable (s : QueueState)

/-- No job writes its row, and no heartbeat renews it, after the lease that the job last set; and
no renewal comes after the job has ended. -/
def QueueState.Timely : QueueAction → Prop
  | .call key call =>
    ∀ job ∈ s.jobs, job.key = key → call.enabled job.phase = true → call.InTime s.clock job
  | _ => True

/-- The row was claimed again since the job's own claim. -/
def QueueState.Stale (job : WorkerJob) : Prop :=
  ∃ r ∈ s.db.reviews, r.id = job.reviewId ∧ job.attempts < r.attempts
  deriving Decidable

/-- A job whose row was claimed again leaves its status, result and usage as they are. -/
def QueueState.Fenced : QueueAction → Prop
  | .call key call =>
    ∀ job ∈ s.jobs, job.key = key → s.Stale job → ∀ r ∈ s.db.reviews, r.id = job.reviewId →
      ∀ r' ∈ (s.call key call).db.reviews, r'.id = r.id →
        r'.status = r.status ∧ r'.headSha = r.headSha ∧ r'.result = r.result ∧ r'.usage = r.usage
  | _ => True

def ReviewStatus.Final (status : ReviewStatus) : Prop := status = .succeeded ∨ status = .superseded
  deriving Decidable

/-- A review that has succeeded or was superseded stays so. -/
def QueueState.KeepsFinal (action : QueueAction) : Prop :=
  ∀ r ∈ s.db.reviews, r.status.Final → ∀ r' ∈ (s.next action).db.reviews, r'.id = r.id →
    r'.status = r.status
  deriving Decidable

section Decidable

variable (s : QueueState)

instance (clock : Timestamp) (job : WorkerJob) (call : JobCall) :
    Decidable (call.InTime clock job) := by
  cases call <;> dsimp only [JobCall.InTime] <;> infer_instance

instance (action : QueueAction) : Decidable (s.Timely action) := by
  cases action <;> dsimp only [QueueState.Timely] <;> infer_instance

instance : (action : QueueAction) → Decidable (s.Fenced action)
  | .call .. => inferInstanceAs (Decidable (∀ job ∈ s.jobs, _))
  | .claim .. | .crash _ | .ingest .. | .enqueue .. | .wait _ | .allowWrites _ => .isTrue trivial

end Decidable

/-! ### What each action does to the rows -/

namespace Tracks

variable {clock : Timestamp} {job : WorkerJob} {r : CodeReview} (tracks : Tracks clock job r)

include tracks

theorem later {clock' : Timestamp} (after : clock ≤ clock') : Tracks clock' job r where
  le := tracks.le
  running := tracks.running
  failing := tracks.failing
  succeeded := tracks.succeeded
  stale behind := (tracks.stale behind).imp_right fun ⟨phase, lapsed⟩ =>
    ⟨phase, lt_of_lt_of_le lapsed after⟩

theorem ended : Tracks clock { job with phase := .done } r where
  le := tracks.le
  running _ phase := by cases phase
  failing _ phase := by cases phase
  succeeded _ phase := by cases phase
  stale _ := .inl rfl

theorem done_of_pending (same : job.attempts = r.attempts) (pending : r.status = .pending) :
    job.phase = .done := by
  cases phase : job.phase with
  | running => simp [(tracks.running same phase).1] at pending
  | failing => simp [tracks.failing same phase] at pending
  | succeeded => simp [tracks.succeeded same phase] at pending
  | done => rfl

theorem superseded (pending : r.status = .pending) :
    Tracks clock job { r with status := .superseded } where
  le := tracks.le
  running same phase := by simp [tracks.done_of_pending same pending] at phase
  failing same phase := by simp [tracks.done_of_pending same pending] at phase
  succeeded same phase := by simp [tracks.done_of_pending same pending] at phase
  stale := tracks.stale

/-- A claim leaves the job of the claim before it behind, and that job's lease has lapsed. -/
theorem claimed (claimable : r.claimable clock = true) (lease : Timestamp) :
    Tracks clock job (r.claimed lease) := by
  have behind : job.attempts < (r.claimed lease).attempts := Nat.lt_succ_of_le tracks.le
  refine ⟨behind.le, fun same => absurd same behind.ne, fun same => absurd same behind.ne,
    fun same => absurd same behind.ne, fun _ => ?_⟩
  rcases Nat.lt_or_eq_of_le tracks.le with older | same
  · exact tracks.stale older
  simp only [CodeReview.claimable, Bool.or_eq_true, Bool.and_eq_true, beq_iff_eq,
    decide_eq_true_eq] at claimable
  rcases claimable with ⟨pending, -⟩ | ⟨running, expired⟩
  · exact .inl (tracks.done_of_pending same pending)
  · cases phase : job.phase with
    | running =>
      simp only [(tracks.running same phase).2, Option.any_some, decide_eq_true_eq] at expired
      exact .inr ⟨rfl, expired⟩
    | failing => simp [tracks.failing same phase] at running
    | succeeded => simp [tracks.succeeded same phase] at running
    | done => exact .inl rfl

/-- A job within its lease is the row's own: what is left behind has outlived its lease. -/
theorem current (live : job.phase ≠ .done) (inTime : job.phase = .running → clock ≤ job.deadline) :
    job.attempts = r.attempts := by
  rcases Nat.lt_or_eq_of_le tracks.le with behind | same
  · rcases tracks.stale behind with done | ⟨running, lapsed⟩
    · exact absurd done live
    · exact absurd lapsed (not_lt.mpr (inTime running))
  · exact same

end Tracks

theorem JobCall.live_of_enabled {clock : Timestamp} {job : WorkerJob} {call : JobCall}
    (enabled : call.enabled job.phase = true) (inTime : call.InTime clock job) :
    job.phase ≠ .done ∧ (job.phase = .running → clock ≤ job.deadline) := by
  cases call with
  | renew interval progress => exact inTime
  | _ =>
    refine ⟨fun done => ?_, inTime⟩
    simp [JobCall.enabled, done] at enabled

namespace Tracks

variable {clock : Timestamp} {job : WorkerJob} {r r' : CodeReview}

theorem of_behind (tracks : Tracks clock job r) (behind : job.attempts < r.attempts)
    (attempts : r'.attempts = r.attempts) : Tracks clock job r' := by
  have behind' : job.attempts < r'.attempts := attempts ▸ behind
  exact ⟨behind'.le, fun same => absurd same behind'.ne, fun same => absurd same behind'.ne,
    fun same => absurd same behind'.ne, fun _ => tracks.stale behind⟩

theorem called (tracks : Tracks clock job r) (same : job.attempts = r.attempts) (call : JobCall) :
    Tracks clock (call.advance clock job) (call.row clock job r) := by
  have attempts : (call.row clock job r).attempts = r.attempts :=
    (row_identity clock job r call).2.1
  have same' : (call.advance clock job).attempts = (call.row clock job r).attempts := by
    rw [attempts, ← same]
    cases call <;> rfl
  refine ⟨same'.le, fun _ phase => ?_, fun _ phase => ?_, fun _ phase => ?_,
    fun behind => absurd same' behind.ne⟩
  · -- The job goes on running: it has renewed its lease or recorded its usage.
    cases call with
    | renew interval progress =>
      have running := (tracks.running same phase).1
      simp [row, JobCall.advance, CodeReview.renewed, running]
    | recordUsage usage => exact tracks.running same phase
    | _ => cases phase
  · cases call with
    | renew interval progress =>
      have failed := tracks.failing same phase
      simp [row, failed]
    | failWrite => rfl
    | recordUsage usage => exact tracks.failing same phase
    | _ => cases phase
  · cases call with
    | renew interval progress =>
      have succeeded := tracks.succeeded same phase
      simp [row, succeeded]
    | succeed headSha result usage => rfl
    | recordUsage usage => exact tracks.succeeded same phase
    | _ => cases phase

theorem final_called (tracks : Tracks clock job r) (same : job.attempts = r.attempts)
    {call : JobCall} (enabled : call.enabled job.phase = true) (live : job.phase ≠ .done)
    (final : r.status.Final) : (call.row clock job r).status = r.status := by
  cases phase : job.phase with
  | running => simp [ReviewStatus.Final, (tracks.running same phase).1] at final
  | failing => simp [ReviewStatus.Final, tracks.failing same phase] at final
  | done => exact absurd phase live
  | succeeded =>
    have succeeded := tracks.succeeded same phase
    cases call with
    | renew interval progress => simp [row, succeeded]
    | giveUp maxAttempts error => simp [row, CodeReview.unsettled, succeeded]
    | _ => simp [JobCall.enabled, phase] at enabled

end Tracks

/-! ### The steps -/

namespace QueueInv

variable {s : QueueState} (inv : QueueInv s)

include inv

variable {action : QueueAction} {job : WorkerJob}

theorem tracks_row (member : job ∈ s.jobs) {r : CodeReview} (row : r ∈ s.db.reviews)
    (same : r.id = job.reviewId) : Tracks s.clock job r := by
  obtain ⟨tracked, tracked_mem, id, tracks⟩ := inv.tracked job member
  exact inv.unique.eq_of_key row tracked_mem (same.trans id.symm) ▸ tracks

theorem of_updateWhere {chosen : CodeReview → Bool} (change : CodeReview → CodeReview)
    (kept : ∀ r, (change r).id = r.id)
    (moves : ∀ job ∈ s.jobs, ∀ r ∈ s.db.reviews, r.id = job.reviewId → chosen r = true →
      Tracks s.clock job r → Tracks s.clock job (change r))
    (added : List CodeReview) (member : job ∈ s.jobs) :
    ∃ r ∈ updateWhere chosen change s.db.reviews ++ added,
      r.id = job.reviewId ∧ Tracks s.clock job r := by
  obtain ⟨r, row, id, tracks⟩ := inv.tracked job member
  refine ⟨if chosen r then change r else r,
    List.mem_append_left _ (mem_updateWhere.mpr ⟨r, row, rfl⟩), ?_⟩
  split
  next holds => exact ⟨(kept r).trans id, moves job member r row id holds tracks⟩
  next => exact ⟨id, tracks⟩

theorem claim (interval : Timestamp) (limit : Nat) (locked : CodeReview → Bool) :
    QueueInv (s.claim interval limit locked) := by
  have claimable : ∀ r ∈ s.db.reviews,
      (s.db.claimedIds s.clock limit locked).contains r.id = true → r.claimable s.clock = true := by
    intro r row taken
    obtain ⟨selected, chosen, same⟩ := List.mem_map.mp (List.contains_iff_mem.mp taken)
    obtain ⟨row', holds, -⟩ := mem_selectForUpdate chosen
    rw [inv.unique.eq_of_key row row' same.symm]
    exact (Bool.and_eq_true_iff.mp holds).1
  have unique : UniqueOn (·.id) (s.claim interval limit locked).db.reviews :=
    inv.unique.updateWhere fun _ _ => rfl
  -- A new job is the row's own, one attempt ahead of every job before it.
  have fresh : ∀ r ∈ s.db.reviews, ∀ job ∈ s.jobs, job.key ≠ (r.id, r.attempts + 1) := by
    intro r row job member same
    obtain ⟨id, attempts⟩ := Prod.mk.inj same
    have le := (inv.tracks_row member row id.symm).le
    omega
  have rows : ∀ r' ∈ (s.db.claimCodeReviews s.clock interval limit locked).2,
      ∃ r ∈ s.db.reviews, r' = r.claimed (s.clock + interval) := by
    intro r' member
    obtain ⟨updated, taken⟩ := List.mem_filter.mp member
    obtain ⟨r, row, ⟨-, rfl⟩ | ⟨out, rfl⟩⟩ := updated_or_kept updated
    · exact ⟨r, row, rfl⟩
    · exact absurd taken out
  refine ⟨unique, ?_, ?_⟩
  · rw [UniqueOn, QueueState.claim, List.map_append, List.map_map]
    refine List.Nodup.append inv.keys ?_ ?_
    · have ids : UniqueOn (·.id) (s.db.claimCodeReviews s.clock interval limit locked).2 :=
        unique.filter _
      exact List.Nodup.of_map Prod.fst (by simpa [UniqueOn, Function.comp_def, WorkerJob.key] using ids)
    · intro key old new
      obtain ⟨job, member, rfl⟩ := List.mem_map.mp old
      obtain ⟨r', claimed, same⟩ := List.mem_map.mp new
      obtain ⟨r, row, rfl⟩ := rows r' claimed
      exact fresh r row job member same.symm
  · intro job member
    rcases List.mem_append.mp member with old | new
    · have tracked := inv.of_updateWhere (·.claimed (s.clock + interval)) (fun _ => rfl)
        (fun _ _ r row _ taken tracks => tracks.claimed (claimable r row taken) _) [] old
      rw [List.append_nil] at tracked
      exact tracked
    · obtain ⟨r', claimed, rfl⟩ := List.mem_map.mp new
      obtain ⟨r, row, rfl⟩ := rows r' claimed
      refine ⟨_, (List.mem_filter.mp claimed).1, rfl, le_rfl, fun _ _ => ⟨rfl, rfl⟩, ?_, ?_, ?_⟩
      · intro _ phase; cases phase
      · intro _ phase; cases phase
      · intro behind; exact absurd behind (lt_irrefl _)

theorem find_job {key : UUID × Nat} {call : JobCall}
    (found : (s.jobs.find? fun job => job.key == key && call.enabled job.phase) = some job) :
    job ∈ s.jobs ∧ job.key = key ∧ call.enabled job.phase = true ∧
      ∀ other ∈ s.jobs, other.key = key → other = job := by
  obtain ⟨member, isKey, enabled⟩ := of_find?_key found
  exact ⟨member, isKey, enabled, fun other other_mem same =>
    inv.keys.eq_of_key other_mem member (same.trans isKey.symm)⟩

theorem call {key : UUID × Nat} {call : JobCall} (timely : s.Timely (.call key call)) :
    QueueInv (s.call key call) := by
  unfold QueueState.call
  split
  next => exact inv
  next job found =>
  obtain ⟨member, rfl, enabled, only⟩ := inv.find_job found
  obtain ⟨live, inTime⟩ := live_of_enabled enabled (timely job member rfl enabled)
  have advance_key (job : WorkerJob) : (call.advance s.clock job).key = job.key := by
    cases call <;> rfl
  refine ⟨?_, inv.keys.updateWhere fun job _ => advance_key job, ?_⟩
  · rw [run_reviews]
    exact inv.unique.updateWhere fun r _ => (row_identity s.clock job r call).1
  intro job' member'
  obtain ⟨old, old_mem, rfl⟩ := mem_updateWhere.mp member'
  obtain ⟨r, row, id, tracks⟩ := inv.tracked old old_mem
  have identity := row_identity s.clock job r call
  refine ⟨if r.id == job.reviewId then call.row s.clock job r else r, ?_, ?_⟩
  · rw [run_reviews]
    exact mem_updateWhere.mpr ⟨r, row, rfl⟩
  by_cases acting : old.key = job.key
  · obtain rfl := only old old_mem acting
    have same := tracks.current live inTime
    have advance_id : (call.advance s.clock old).reviewId = old.reviewId :=
      congrArg Prod.fst (advance_key old)
    simp only [BEq.rfl, id, ↓reduceIte]
    exact ⟨(identity.1.trans id).trans advance_id.symm, tracks.called same call⟩
  · simp only [beq_iff_eq, acting, ↓reduceIte]
    split
    next own =>
      -- Another job of this row: the acting one is the row's own, so this one was left behind.
      have same := (inv.tracks_row member row own).current live inTime
      have behind : old.attempts < r.attempts := by
        refine lt_of_le_of_ne tracks.le fun equal => acting ?_
        exact Prod.ext (id.symm.trans own) (equal.trans same.symm)
      exact ⟨identity.1.trans id, tracks.of_behind behind identity.2.1⟩
    next => exact ⟨id, tracks⟩

theorem ingest (request : ReviewDb.IngestRequest) (newConnector newId : UUID) :
    QueueInv (s.ingest request newConnector newId) := by
  unfold QueueState.ingest
  split
  next => exact inv
  next absent =>
  rcases s.db.githubPrReviewIngest_cases s.clock request newConnector newId with
    ⟨reviews, -⟩ | ⟨connector, -, reviews, -⟩
  · exact ⟨by rw [reviews]; exact inv.unique, inv.keys, by rw [reviews]; exact inv.tracked⟩
  · refine ⟨?_, inv.keys, fun job member => ?_⟩
    · have updated : UniqueOn (·.id) (s.db.supersedePending connector request.prNumber) :=
        inv.unique.updateWhere fun _ _ => rfl
      rw [reviews]
      refine updated.append_fresh fun old member => ?_
      obtain ⟨r, row, rfl⟩ := mem_updateWhere.mp member
      split <;> exact QueueState.fresh_id absent r row
    · rw [reviews]
      refine inv.of_updateWhere (fun r => { r with status := .superseded }) (fun _ => rfl)
        (fun _ _ r _ _ chosen tracks => tracks.superseded ?_) _ member
      simp only [Bool.and_eq_true, beq_iff_eq] at chosen
      exact chosen.2

/-- A timely step keeps every job in step with its row. -/
theorem next {action : QueueAction} (timely : s.Timely action) : QueueInv (s.next action) := by
  cases action with
  | claim interval limit locked => exact inv.claim interval limit locked
  | call key call => exact inv.call timely
  | ingest request newConnector newId => exact inv.ingest request newConnector newId
  | allowWrites allowed => exact ⟨inv.unique, inv.keys, inv.tracked⟩
  | crash key =>
    refine ⟨inv.unique, inv.keys.updateWhere fun _ _ => rfl, fun job member => ?_⟩
    obtain ⟨old, old_mem, rfl⟩ := mem_updateWhere.mp member
    obtain ⟨r, row, id, tracks⟩ := inv.tracked old old_mem
    refine ⟨r, row, ?_⟩
    split
    · exact ⟨id, tracks.ended⟩
    · exact ⟨id, tracks⟩
  | enqueue id business root connector prNumber model =>
    simp only [QueueState.next]
    split
    next => exact inv
    next absent =>
    refine ⟨inv.unique.append_fresh (QueueState.fresh_id absent), inv.keys, fun job member => ?_⟩
    obtain ⟨r, row, tracked⟩ := inv.tracked job member
    exact ⟨r, List.mem_append_left _ row, tracked⟩
  | wait duration =>
    refine ⟨inv.unique, inv.keys, fun job member => ?_⟩
    obtain ⟨r, row, id, tracks⟩ := inv.tracked job member
    exact ⟨r, row, id, tracks.later (Int.le_add_of_nonneg_right (Int.natCast_nonneg duration))⟩

/-- No job whose row was claimed again makes a call: it is past its lease. -/
theorem fenced (timely : s.Timely action) : s.Fenced action := by
  cases action with
  | call key call =>
    rintro job member rfl ⟨claimed, claimed_mem, claimed_id, behind⟩ r row id r' row' same
    have unmoved : (s.call job.key call).db.reviews = s.db.reviews := by
      unfold QueueState.call
      split
      next => rfl
      next acting found =>
      obtain ⟨acting_mem, key, enabled, -⟩ := inv.find_job found
      obtain rfl := inv.keys.eq_of_key acting_mem member key
      obtain ⟨live, inTime⟩ := live_of_enabled enabled (timely _ member rfl enabled)
      have current := (inv.tracks_row member claimed_mem claimed_id).current live inTime
      exact absurd current behind.ne
    rw [unmoved] at row'
    rw [inv.unique.eq_of_key row' row same]
    exact ⟨rfl, rfl, rfl, rfl⟩
  | _ => trivial

theorem final_updateWhere {chosen : CodeReview → Bool} (change : CodeReview → CodeReview)
    (kept : ∀ r, (change r).id = r.id) {r r' : CodeReview} (row : r ∈ s.db.reviews)
    (same_status : chosen r = true → (change r).status = r.status)
    (row' : r' ∈ updateWhere chosen change s.db.reviews) (same : r'.id = r.id) :
    r'.status = r.status := by
  rw [inv.unique.eq_updated (fun r _ => kept r) row row' same]
  split
  next holds => exact same_status holds
  next => rfl

/-- No timely step changes the status of a final review. -/
theorem keepsFinal (timely : s.Timely action) : s.KeepsFinal action := by
  intro r row final r' row' same
  have unchanged : ∀ {rows : List CodeReview}, rows = s.db.reviews → r' ∈ rows →
      r'.status = r.status := by
    rintro _ rfl member
    rw [inv.unique.eq_of_key member row same]
  cases action with
  | claim interval limit locked =>
    refine inv.final_updateWhere (·.claimed (s.clock + interval)) (fun _ => rfl) row
      (fun taken => ?_) row' same
    obtain ⟨selected, chosen, id⟩ := List.mem_map.mp (List.contains_iff_mem.mp taken)
    obtain ⟨row_selected, holds, -⟩ := mem_selectForUpdate chosen
    obtain rfl := inv.unique.eq_of_key row_selected row id
    rcases final with final | final <;> simp [CodeReview.claimable, final] at holds
  | call key call =>
    simp only [QueueState.next, QueueState.call] at row'
    split at row'
    next => exact unchanged rfl row'
    next job found =>
    obtain ⟨member, rfl, enabled, -⟩ := inv.find_job found
    obtain ⟨live, inTime⟩ := live_of_enabled enabled (timely job member rfl enabled)
    rw [run_reviews] at row'
    refine inv.final_updateWhere (fun r => call.row s.clock job r)
      (fun r => (row_identity s.clock job r call).1) row (fun own => ?_) row' same
    have tracks := inv.tracks_row member row (beq_iff_eq.mp own)
    exact tracks.final_called (tracks.current live inTime) enabled live final
  | ingest request newConnector newId =>
    simp only [QueueState.next, QueueState.ingest] at row'
    split at row'
    next => exact unchanged rfl row'
    next absent =>
    rcases s.db.githubPrReviewIngest_cases s.clock request newConnector newId with
      ⟨reviews, -⟩ | ⟨connector, -, reviews, -⟩
    · exact unchanged reviews row'
    · simp only [reviews] at row'
      rcases mem_inserted.mp row' with old | rfl
      · refine inv.final_updateWhere (fun r => { r with status := .superseded }) (fun _ => rfl)
          row (fun chosen => ?_) old same
        rcases final with final | final <;> simp [final] at chosen
      · exact absurd same.symm (QueueState.fresh_id absent r row)
  | enqueue id business root connector prNumber model =>
    simp only [QueueState.next] at row'
    split at row'
    next => exact unchanged rfl row'
    next absent =>
    rcases mem_inserted.mp row' with old | rfl
    · exact unchanged rfl old
    · exact absurd same.symm (QueueState.fresh_id absent r row)
  | _ => exact unchanged rfl row'

end QueueInv

/-- A queue that no worker has begun on. -/
structure QueueStart (s : QueueState) : Prop where
  unique : UniqueOn (·.id) s.db.reviews
  idle : s.jobs = []

theorem QueueStart.inv {s : QueueState} (start : QueueStart s) : QueueInv s where
  unique := start.unique
  keys := by rw [start.idle]; exact UniqueOn.nil _
  tracked job member := by rw [start.idle] at member; cases member

/-- In every run in which the jobs keep to their leases, no job changes the status, the result or
the usage of a row that was claimed again, and no row leaves `succeeded` or `superseded`. -/
theorem review_fencing {s : QueueState} (start : QueueStart s) {actions : List QueueAction}
    (timely : Along QueueState.next QueueState.Timely s actions) :
    Along QueueState.next (fun s action => s.Fenced action ∧ s.KeepsFinal action) s actions :=
  Along.of_invariant (fun _ _ inv timely => inv.next timely)
    (fun _ _ inv timely => ⟨inv.fenced timely, inv.keepsFinal timely⟩) start.inv timely

namespace Sample

def queuedReviews : QueueState where
  db :=
    { reviews := [ReviewDb.newReview 0 1 7 7 9 41 "c1" "", ReviewDb.newReview 0 2 7 7 9 42 "c2" ""]
      connectors := [⟨9, 7, 7, "acme/shop", 5⟩]
      deliveries := []
      writeAllowed := fun _ => true }
  clock := 1000
  jobs := []
  ingested := []

/-- The default lease, 900 s. -/
def lease : Timestamp := 900000000

def posted (summary : String) : ReviewResult := ⟨summary, "[]", "77", some 5, "[]", "m", none⟩

theorem queuedReviews_start : QueueStart queuedReviews := ⟨by decide, rfl⟩

theorem review_fencing_in_time :
    Along QueueState.next (fun s action => s.Fenced action ∧ s.KeepsFinal action) queuedReviews
      [.claim lease 1 fun _ => false, .wait 5000000, .call (1, 1) (.renew lease none),
        .wait 899000000, .call (1, 1) (.succeed "c1" (posted "fine") ⟨10, 5, 1⟩),
        .claim lease 1 fun _ => false, .call (2, 1) .failWrite, .wait 1000000000,
        .call (2, 1) (.giveUp 3 "timeout")] :=
  review_fencing queuedReviews_start (by decide +kernel)

/-- One worker claims both rows. It keeps renewing the first while it reviews it; the second is not
renewed before it is begun. Its lease lapses, another worker claims it and posts the review. -/
def overtaken : QueueState :=
  [QueueAction.claim lease 2 fun _ => false, .wait 600000000, .call (1, 1) (.renew lease none),
    .wait 400000000, .claim lease 2 fun _ => false,
    .call (2, 2) (.succeed "c2" (posted "two findings") ⟨10, 5, 1⟩)].foldl
    QueueState.next queuedReviews

/-- The first worker now comes to the second row, fails, and marks the review as failed. -/
theorem overtaken_job_fails_posted_review :
    QueueStart queuedReviews ∧ ¬ overtaken.Fenced (.call (2, 1) .failWrite) ∧
      ¬ overtaken.KeepsFinal (.call (2, 1) .failWrite) :=
  ⟨queuedReviews_start, by decide +kernel, by decide +kernel⟩

end Sample

end Manyforge.Coding
