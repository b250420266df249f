import Manyforge.Text
import Manyforge.Lib.Table

/-!
# The code-review queue

The rows of `code_review` and the statements that change them: `claim_code_reviews`,
`renew_code_review_lease`, `requeue_code_review`, `fail_code_review`,
`UpdateCodeReviewResult`, `SetCodeReviewUsage`, `InsertCodeReview` and
`github_pr_review_ingest`. Intervals are given in microseconds.
-/
namespace Manyforge.Coding

open Table

inductive ReviewStatus where
  | pending | running | succeeded | failed | superseded
  deriving DecidableEq

/-- The columns that `UpdateCodeReviewResult` fills. -/
structure ReviewResult where
  (summary findings externalReviewRef : String)
  postedAt : Option Timestamp
  (dimensionRuns model : String)
  agentRunId : Option UUID
  deriving DecidableEq

structure ReviewUsage where
  (tokensIn tokensOut costCents : Int)
  deriving DecidableEq

structure CodeReview where
  (id businessId tenantRootId repoConnectorId : UUID)
  prNumber : Int
  headSha : String
  status : ReviewStatus
  attempts : Nat
  runAfter : Timestamp
  leaseExpiresAt : Option Timestamp
  lastError : String
  progress : Option String
  createdAt : Timestamp
  result : ReviewResult
  usage : ReviewUsage
  deriving DecidableEq

structure AppConnector where
  (id businessId tenantRootId : UUID)
  repo : String
  installationId : Int

structure ReviewDb where
  reviews : List CodeReview
  connectors : List AppConnector
  /-- `github_webhook_delivery`. -/
  deliveries : List (Int × String)
  /-- `tenant_merge_root_write_allowed`. -/
  writeAllowed : UUID → Bool

def emptyResult : ReviewResult := ⟨"", "[]", "", none, "[]", "", none⟩

def noUsage : ReviewUsage := ⟨0, 0, 0⟩

namespace CodeReview

variable (r : CodeReview)

/-- The rows that `claim_code_reviews` may take. -/
def claimable (now : Timestamp) : Bool :=
  (r.status == .pending && decide (r.runAfter ≤ now)) ||
    (r.status == .running && r.leaseExpiresAt.any fun expiry => decide (expiry < now))

def claimed (lease : Timestamp) : CodeReview :=
  { r with status := .running, attempts := r.attempts + 1, leaseExpiresAt := some lease }

def renewed (lease : Timestamp) (progress : Option String) : CodeReview :=
  { r with leaseExpiresAt := some lease, progress }

/-- The guard of `requeue_code_review` and `fail_code_review`. -/
def unsettled : Bool := r.status == .running || r.status == .failed

def requeued (runAfter : Timestamp) (lastError : String) : CodeReview :=
  { r with status := .pending, runAfter, leaseExpiresAt := none, lastError }

def failedWith (lastError : String) : CodeReview :=
  { r with status := .failed, leaseExpiresAt := none, lastError }

/-- The row after `UpdateCodeReviewResult`; an empty model keeps the one that was stamped before. -/
def withResult (status : ReviewStatus) (headSha : String) (result : ReviewResult)
    (usage : ReviewUsage) : CodeReview :=
  { r with
    status, headSha, usage
    result := { result with model := nonEmptyOr result.model r.result.model }
    leaseExpiresAt := none }

def live : Bool := r.status == .pending || r.status == .running || r.status == .succeeded

def ofPullRequest (connector : UUID) (prNumber : Int) : Bool :=
  r.repoConnectorId == connector && r.prNumber == prNumber

end CodeReview

namespace ReviewDb

variable (db : ReviewDb) (now : Timestamp) (id : UUID)

/-- `UPDATE code_review … WHERE id = …`, with a further condition. -/
def updateReview (guard : CodeReview → Bool) (change : CodeReview → CodeReview) : ReviewDb :=
  { db with reviews := updateWhere (fun r => r.id == id && guard r) change db.reviews }

/-- `claim_code_reviews`; `locked` are the rows that other transactions hold. -/
def claimedIds (limit : Nat) (locked : CodeReview → Bool) : List UUID :=
  (selectForUpdate (fun r => r.claimable now && db.writeAllowed r.tenantRootId) locked
    (fun a b => a.createdAt ≤ b.createdAt) limit db.reviews).map (·.id)

def claimCodeReviews (now interval : Timestamp) (limit : Nat) (locked : CodeReview → Bool) :
    ReviewDb × List CodeReview :=
  let ids := db.claimedIds now limit locked
  let reviews := updateWhere (fun r => ids.contains r.id) (·.claimed (now + interval)) db.reviews
  ({ db with reviews }, reviews.filter fun r => ids.contains r.id)

def renewCodeReviewLease (interval : Timestamp) (progress : Option String) : ReviewDb :=
  db.updateReview id (·.status == .running) (·.renewed (now + interval) progress)

def requeueCodeReview (delay : Timestamp) (lastError : String) : ReviewDb :=
  db.updateReview id (·.unsettled) (·.requeued (now + delay) lastError)

def failCodeReview (lastError : String) : ReviewDb :=
  db.updateReview id (·.unsettled) (·.failedWith lastError)

/-- `UpdateCodeReviewResult`, which asks for the id only. -/
def updateCodeReviewResult (status : ReviewStatus) (headSha : String)
    (result : ReviewResult) (usage : ReviewUsage) : ReviewDb :=
  db.updateReview id (fun _ => true) (·.withResult status headSha result usage)

/-- The write of `fail`, which clears the head and the result. -/
def failWrite : ReviewDb :=
  db.updateCodeReviewResult id .failed "" emptyResult noUsage

def setCodeReviewUsage (usage : ReviewUsage) : ReviewDb :=
  db.updateReview id (fun _ => true) fun r => { r with usage }

def newReview (id business root connector : UUID) (prNumber : Int)
    (headSha model : String) : CodeReview where
  id := id
  businessId := business
  tenantRootId := root
  repoConnectorId := connector
  prNumber := prNumber
  headSha := headSha
  status := .pending
  attempts := 0
  runAfter := now
  leaseExpiresAt := none
  lastError := ""
  progress := none
  createdAt := now
  result := { emptyResult with model }
  usage := noUsage

/-- `InsertCodeReview`, for a review that a user asks for. -/
def insertCodeReview (id business root connector : UUID) (prNumber : Int)
    (model : String) : ReviewDb :=
  { db with reviews := db.reviews ++ [newReview now id business root connector prNumber "" model] }

/-! ### github_pr_review_ingest -/

structure IngestRequest where
  installationId : Int
  deliveryId : String
  (businessId tenantRoot : UUID)
  repo : String
  prNumber : Int
  headSha : String

variable (request : IngestRequest)

def reviewRateCap : Nat := 30

def hour : Timestamp := 3600000000

/-- The reviews of the installation in the last hour. -/
def recentReviews (installation : Int) : List CodeReview :=
  db.reviews.filter fun r => decide (now - hour < r.createdAt) &&
    db.connectors.any fun c => c.id == r.repoConnectorId && c.installationId == installation

def connectorOf (business : UUID) (repo : String) : Option AppConnector :=
  db.connectors.find? fun c => c.businessId == business && c.repo == repo

/-- The connectors once the repository has one. -/
def ensureConnector (newConnector : UUID) : ReviewDb :=
  if (db.connectorOf request.businessId request.repo).isSome then db
  else { db with
    connectors := db.connectors ++
      [⟨newConnector, request.businessId, request.tenantRoot, request.repo,
        request.installationId⟩] }

/-- The pending rows of the pull request give way to a new one. -/
def supersedePending (connector : UUID) (prNumber : Int) : List CodeReview :=
  updateWhere (fun r => r.ofPullRequest connector prNumber && r.status == .pending)
    (fun r => { r with status := .superseded }) db.reviews

/-- Steps four to six: the same-head skip, the supersede of what is pending, the insert. -/
def enqueueHead (connector newId : UUID) : ReviewDb × Option UUID :=
  if db.reviews.any fun r =>
      r.ofPullRequest connector request.prNumber && r.headSha == request.headSha && r.live
  then (db, none)
  else
    ({ db with
      reviews := db.supersedePending connector request.prNumber ++
        [newReview now newId request.businessId request.tenantRoot connector request.prNumber
          request.headSha ""] }, some newId)

def recordDelivery : ReviewDb :=
  if request.deliveryId = "" then db
  else { db with deliveries := db.deliveries ++ [(request.installationId, request.deliveryId)] }

def githubPrReviewIngest (newConnector newId : UUID) : ReviewDb × Option UUID :=
  if request.deliveryId ≠ "" ∧
      db.deliveries.contains (request.installationId, request.deliveryId) then (db, none)
  else
    let db := db.recordDelivery request
    if reviewRateCap ≤ (db.recentReviews now request.installationId).length then (db, none)
    else
      let db := db.ensureConnector request newConnector
      match db.connectorOf request.businessId request.repo with
      | none => (db, none)
      | some connector => db.enqueueHead now request connector.id newId

theorem recordDelivery_reviews : (db.recordDelivery request).reviews = db.reviews := by
  unfold recordDelivery
  split <;> rfl

theorem ensureConnector_reviews (newConnector : UUID) :
    (db.ensureConnector request newConnector).reviews = db.reviews := by
  unfold ensureConnector
  split <;> rfl

theorem githubPrReviewIngest_cases (newConnector newId : UUID) :
    ((db.githubPrReviewIngest now request newConnector newId).1.reviews = db.reviews ∧
      (db.githubPrReviewIngest now request newConnector newId).2 = none) ∨
    ∃ connector,
      (∀ r ∈ db.reviews, r.ofPullRequest connector request.prNumber = true →
        r.headSha = request.headSha → r.live = false) ∧
      (db.githubPrReviewIngest now request newConnector newId).1.reviews =
        db.supersedePending connector request.prNumber ++
          [newReview now newId request.businessId request.tenantRoot connector request.prNumber
            request.headSha ""] ∧
      (db.githubPrReviewIngest now request newConnector newId).2 = some newId := by
  unfold githubPrReviewIngest
  split
  · exact .inl ⟨rfl, rfl⟩
  simp only
  split
  · exact .inl ⟨db.recordDelivery_reviews request, rfl⟩
  have reviews : ((db.recordDelivery request).ensureConnector request newConnector).reviews =
      db.reviews := by rw [ensureConnector_reviews, recordDelivery_reviews]
  split
  · exact .inl ⟨reviews, rfl⟩
  next connector _ =>
  unfold enqueueHead supersedePending
  rw [reviews]
  split
  · exact .inl ⟨reviews, rfl⟩
  next absent =>
  refine .inr ⟨connector.id, fun r member same head => ?_, rfl, rfl⟩
  by_contra live
  exact absent (List.any_eq_true.mpr ⟨r, member, by simp [same, head, live]⟩)

end ReviewDb

end Manyforge.Coding
