import Manyforge.Coding.Queue
import Manyforge.Lib.Transition

/-!
# The workers of the code-review queue

Any number of workers over one `code_review` table. A job is one claim of one row: `processOne`
renews its lease, writes its result or its failure, and after an error requeues the row or fails
it for good. Each call commits at once or is lost, so that a worker can stop between any two.
-/
namespace Manyforge.Coding

open Table

/-- How far `processOne` has come with a job. -/
inductive JobPhase where
  | running
  /-- `fail` has marked the row as failed. -/
  | failing
  /-- The row was marked as succeeded. -/
  | succeeded
  | done
  deriving DecidableEq

structure WorkerJob where
  reviewId : UUID
  /-- The row's `attempts` as the claim returned it. -/
  attempts : Nat
  phase : JobPhase
  /-- The lease that its claim or its last renewal set. -/
  deadline : Timestamp
  deriving DecidableEq

namespace WorkerJob

def key (job : WorkerJob) : UUID × Nat := (job.reviewId, job.attempts)

end WorkerJob

inductive JobCall where
  | renew (interval : Timestamp) (progress : Option String)
  /-- The last write of `runJob`, and `finalizeSkipped`. -/
  | succeed (headSha : String) (result : ReviewResult) (usage : ReviewUsage)
  | failWrite
  /-- The usage write of `failJobWithUsage`. -/
  | recordUsage (usage : ReviewUsage)
  /-- The end of `processOne` after an error. -/
  | giveUp (maxAttempts : Nat) (error : String)

namespace JobCall

/-- The delay of a requeue, 30 s. -/
def requeueDelay : Timestamp := 30000000

def run (db : ReviewDb) (now : Timestamp) (job : WorkerJob) : JobCall → ReviewDb
  | renew interval progress => db.renewCodeReviewLease now job.reviewId interval progress
  | succeed headSha result usage =>
    db.updateCodeReviewResult job.reviewId .succeeded headSha result usage
  | failWrite => db.failWrite job.reviewId
  | recordUsage usage => db.setCodeReviewUsage job.reviewId usage
  | giveUp maxAttempts error =>
    if job.attempts < maxAttempts then db.requeueCodeReview now job.reviewId requeueDelay error
    else db.failCodeReview job.reviewId error

/-- The calls a job can make. The write of `fail` is best-effort: where it was lost the job is
still running, and records its usage or gives up from there. A renewal may land at any time, the
heartbeat is not waited for. -/
def enabled (phase : JobPhase) : JobCall → Bool
  | renew .. => true
  | succeed .. | failWrite => phase == .running
  | recordUsage _ => phase == .running || phase == .failing
  | giveUp .. => phase != .done

def advance (now : Timestamp) (job : WorkerJob) : JobCall → WorkerJob
  | renew interval _ => { job with deadline := now + interval }
  | succeed .. => { job with phase := .succeeded }
  | failWrite => { job with phase := .failing }
  | recordUsage _ => job
  | giveUp .. => { job with phase := .done }

/-- What the call makes of the job's row. -/
def row (now : Timestamp) (job : WorkerJob) (r : CodeReview) : JobCall → CodeReview
  | renew interval progress =>
    if r.status == .running then r.renewed (now + interval) progress else r
  | succeed headSha result usage => r.withResult .succeeded headSha result usage
  | failWrite => r.withResult .failed "" emptyResult noUsage
  | recordUsage usage => { r with usage }
  | giveUp maxAttempts error =>
    if r.unsettled then
      if job.attempts < maxAttempts then r.requeued (now + requeueDelay) error
      else r.failedWith error
    else r

variable (db : ReviewDb) (now : Timestamp) (job : WorkerJob)

theorem run_reviews (call : JobCall) : (call.run db now job).reviews =
    updateWhere (fun r => r.id == job.reviewId) (fun r => call.row now job r) db.reviews := by
  cases call with
  | giveUp maxAttempts error =>
    simp only [run, row]
    split <;>
      simp only [ReviewDb.requeueCodeReview, ReviewDb.failCodeReview, ReviewDb.updateReview,
        updateWhere_and]
  | renew interval progress =>
    simp only [run, row, ReviewDb.renewCodeReviewLease, ReviewDb.updateReview, updateWhere_and]
  | _ =>
    simp only [run, row, ReviewDb.updateCodeReviewResult, ReviewDb.failWrite,
      ReviewDb.setCodeReviewUsage, ReviewDb.updateReview, Bool.and_true]

theorem row_identity (r : CodeReview) (call : JobCall) :
    (call.row now job r).id = r.id ∧ (call.row now job r).attempts = r.attempts ∧
      (call.row now job r).repoConnectorId = r.repoConnectorId ∧
      (call.row now job r).prNumber = r.prNumber := by
  cases call with
  | renew interval progress =>
    simp only [row]
    split <;> exact ⟨rfl, rfl, rfl, rfl⟩
  | giveUp maxAttempts error =>
    simp only [row]
    split
    · split <;> exact ⟨rfl, rfl, rfl, rfl⟩
    · exact ⟨rfl, rfl, rfl, rfl⟩
  | _ => exact ⟨rfl, rfl, rfl, rfl⟩

end JobCall

structure QueueState where
  db : ReviewDb
  clock : Timestamp
  jobs : List WorkerJob
  /-- The reviews that `github_pr_review_ingest` inserted. -/
  ingested : List UUID

inductive QueueAction where
  | claim (interval : Timestamp) (limit : Nat) (locked : CodeReview → Bool)
  | call (key : UUID × Nat) (call : JobCall)
  | crash (key : UUID × Nat)
  | ingest (request : ReviewDb.IngestRequest) (newConnector newId : UUID)
  | enqueue (id business root connector : UUID) (prNumber : Int) (model : String)
  | wait (duration : Nat)
  | allowWrites (allowed : UUID → Bool)

namespace QueueState

variable (s : QueueState)

def hasReview (id : UUID) : Bool := s.db.reviews.any (·.id == id)

def claim (interval : Timestamp) (limit : Nat) (locked : CodeReview → Bool) : QueueState :=
  let (db, rows) := s.db.claimCodeReviews s.clock interval limit locked
  { s with
    db
    jobs := s.jobs ++ rows.map fun r => ⟨r.id, r.attempts, .running, s.clock + interval⟩ }

def setJob (key : UUID × Nat) (change : WorkerJob → WorkerJob) : List WorkerJob :=
  updateWhere (fun job => job.key == key) change s.jobs

/-- A call of the job with this key, if there is one that can make it. -/
def call (key : UUID × Nat) (call : JobCall) : QueueState :=
  match s.jobs.find? fun job => job.key == key && call.enabled job.phase with
  | none => s
  | some job =>
    { s with db := call.run s.db s.clock job, jobs := s.setJob key fun job => call.advance s.clock job }

def ingest (request : ReviewDb.IngestRequest) (newConnector newId : UUID) : QueueState :=
  -- The ids are drawn at random and the primary key refuses one that is taken.
  if s.hasReview newId then s
  else
    let (db, inserted) := s.db.githubPrReviewIngest s.clock request newConnector newId
    { s with db, ingested := s.ingested ++ inserted.toList }

def next : QueueAction → QueueState
  | .claim interval limit locked => s.claim interval limit locked
  | .call key call => s.call key call
  | .crash key => { s with jobs := s.setJob key fun job => { job with phase := .done } }
  | .ingest request newConnector newId => s.ingest request newConnector newId
  | .enqueue id business root connector prNumber model =>
    if s.hasReview id then s
    else { s with db := s.db.insertCodeReview s.clock id business root connector prNumber model }
  | .wait duration => { s with clock := s.clock + duration }
  | .allowWrites allowed => { s with db := { s.db with writeAllowed := allowed } }

variable {s}

theorem fresh_id {id : UUID} (absent : ¬ s.hasReview id = true) : ∀ r ∈ s.db.reviews, r.id ≠ id :=
  ne_of_not_any absent

theorem call_cases (key : UUID × Nat) (call : JobCall) :
    ((¬ ∃ job ∈ s.jobs, job.key = key ∧ call.enabled job.phase = true) ∧ s.call key call = s) ∨
    ∃ job ∈ s.jobs, job.key = key ∧ call.enabled job.phase = true ∧
      (s.call key call).ingested = s.ingested ∧
      (s.call key call).db.reviews =
        updateWhere (fun r => r.id == key.1) (fun r => call.row s.clock job r) s.db.reviews := by
  cases found : s.jobs.find? fun job => job.key == key && call.enabled job.phase with
  | none =>
    refine .inl ⟨?_, by simp [QueueState.call, found]⟩
    rintro ⟨job, member, same, enabled⟩
    exact List.find?_eq_none.mp found job member (by simp [same, enabled])
  | some job =>
    obtain ⟨member, rfl, enabled⟩ := of_find?_key found
    refine .inr ⟨job, member, rfl, enabled, ?_, ?_⟩
    · simp only [QueueState.call, found]
    · simp only [QueueState.call, found]
      exact JobCall.run_reviews s.db s.clock job call

end QueueState

end Manyforge.Coding
