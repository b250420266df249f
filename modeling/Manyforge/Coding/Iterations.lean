import Manyforge.Coding.Findings
import Manyforge.Lib.Table
import Mathlib.Data.Finset.Card

/-!
# Findings across the reviews of a pull request

Each review compares the fingerprints of its findings with those of the earlier reviews of the pull
request and stores them in the transaction that finishes the review. What the table says about one
pull request is a map from fingerprints to a status; the theorems are about that map.
-/
namespace Manyforge.Coding

open Table

/-! ### The classification -/

/-- What the loop keeps: every fingerprint once, and a count of each kind. -/
structure Classification.Counts (prior : List (String × Bool)) (c : Classification) : Prop where
  nodup : c.currentFps.Nodup
  new : c.new = (c.currentFps.filter fun fp => !prior.any fun p => p.1 == fp).length
  carryover : c.carryover = (c.currentFps.filter fun fp => prior.any fun p => p.1 == fp).length

theorem Classification.Counts.visit {prior : List (String × Bool)} {c : Classification}
    (counts : c.Counts prior) (fp : String) : (c.visit prior fp).Counts prior := by
  unfold Classification.visit
  split
  · exact counts
  · next unseen =>
    have nodup : (c.currentFps ++ [fp]).Nodup := by
      refine List.Nodup.append counts.nodup (List.nodup_singleton fp) ?_
      simpa using unseen
    split
    next known =>
      constructor
      · exact nodup
      · simp [List.filter_append, known, counts.new]
      · simp [List.filter_append, known, counts.carryover]
    next known =>
    constructor
    · exact nodup
    · simp [List.filter_append, known, counts.new]
    · simp [List.filter_append, known, counts.carryover]

variable (prior : List (String × Bool))

theorem Classification.mem_visit (c : Classification) (fp x : String) :
    x ∈ (c.visit prior fp).currentFps ↔ x ∈ c.currentFps ∨ x = fp := by
  unfold Classification.visit
  split
  next seen =>
    constructor
    · exact .inl
    · rintro (old | rfl)
      · exact old
      · exact List.contains_iff_mem.mp seen
  next =>
  split
  · simp
  · simp

theorem Classification.mem_foldl (fps : List String) (c : Classification) (x : String) :
    x ∈ (fps.foldl (visit prior) c).currentFps ↔ x ∈ c.currentFps ∨ x ∈ fps := by
  induction fps generalizing c with
  | nil => simp
  | cons fp rest ih =>
    rw [List.foldl_cons, ih, mem_visit, List.mem_cons, or_assoc]

theorem Classification.Counts.foldl {prior : List (String × Bool)} (fps : List String)
    {c : Classification}
    (counts : c.Counts prior) : (fps.foldl (Classification.visit prior) c).Counts prior := by
  induction fps generalizing c with
  | nil => exact counts
  | cons fp rest ih => exact ih (counts.visit fp)

theorem Classification.Counts.start : Classification.Counts prior ⟨0, 0, []⟩ :=
  ⟨List.nodup_nil, rfl, rfl⟩

def distinctFingerprints (rt : ReviewRuntime) (findings : List Finding) : Finset String :=
  (findings.map (crossIterationFingerprint rt)).toFinset

section Classify

variable (rt : ReviewRuntime) (prior : List (String × Bool)) (current : List Finding)

theorem classifyCrossIteration_counts :
    Classification.Counts prior ⟨(classifyCrossIteration rt prior current).1.new,
    (classifyCrossIteration rt prior current).1.carryover, (classifyCrossIteration rt prior current).2⟩ :=
  (Classification.Counts.start prior).foldl (current.map (crossIterationFingerprint rt))

theorem classifyCrossIteration_toFinset :
    (classifyCrossIteration rt prior current).2.toFinset = distinctFingerprints rt current := by
  ext fp
  rw [List.mem_toFinset, distinctFingerprints, List.mem_toFinset]
  exact (Classification.mem_foldl prior _ _ fp).trans (by simp)

theorem classifyCrossIteration_carryover : (classifyCrossIteration rt prior current).1.carryover =
    (distinctFingerprints rt current ∩ (prior.map (·.1)).toFinset).card := by
  have counts := classifyCrossIteration_counts rt prior current
  have nodup : ((classifyCrossIteration rt prior current).2.filter fun fp => prior.any fun p =>
        p.1 == fp).Nodup :=
    counts.nodup.filter _
  refine counts.carryover.trans ?_
  rw [← List.toFinset_card_of_nodup nodup, ← classifyCrossIteration_toFinset rt prior]
  congr 1
  ext fp
  simp

theorem classifyCrossIteration_total : (classifyCrossIteration rt prior current).1.new +
    (classifyCrossIteration rt prior current).1.carryover = (distinctFingerprints rt current).card := by
  have counts := classifyCrossIteration_counts rt prior current
  have parts := (classifyCrossIteration rt prior current).2.length_eq_length_filter_add
    (fun fp => prior.any fun p => p.1 == fp)
  rw [← classifyCrossIteration_toFinset rt prior, List.toFinset_card_of_nodup counts.nodup, parts,
    Nat.add_comm]
  exact congrArg₂ (· + ·) counts.carryover counts.new

end Classify

/-! ### The table -/

/-- `code_review_finding_seen.status`. -/
inductive FindingStatus
  | opened
  | resolved
  deriving DecidableEq

structure PullRequest where
  businessId : UUID
  repo : String
  prNumber : Int
  deriving DecidableEq

structure FindingSeen where
  (id tenantRootId : UUID)
  pullRequest : PullRequest
  (fingerprint firstSeenSha lastSeenSha : String)
  status : FindingStatus
  (createdAt updatedAt : Timestamp)
  deriving DecidableEq

def FindingSeen.key (row : FindingSeen) : PullRequest × String := (row.pullRequest, row.fingerprint)

/-- A business, as far as these statements read it. -/
structure ReviewedBusiness where
  (id tenantRootId : UUID)
  deriving DecidableEq

/-- What the principal of the reviews sees: the policies of both tables admit the rows of its
businesses. -/
structure Tracking where
  businesses : List ReviewedBusiness
  seen : List FindingSeen

namespace Tracking

variable (db : Tracking) (pr : PullRequest)

/-- `UNIQUE (business_id, repo, pr_number, fingerprint)`. -/
def Unique : Prop := UniqueOn FindingSeen.key db.seen

/-- `ListFindingSeen`, as the map `priorFindingFingerprints` makes of it. -/
def listFindingSeen : List (String × Bool) :=
  (db.seen.filter fun row => row.pullRequest == pr).map fun row =>
    (row.fingerprint, row.status == .opened)

/-- `UpsertFindingSeen`; a business that is not visible gives no row. -/
def upsertFindingSeen (headSha : String) (now : Timestamp) (fp : String) : Tracking :=
  match db.businesses.find? fun b => b.id == pr.businessId with
  | none => db
  | some b =>
    if db.seen.any fun row => row.key == (pr, fp) then
      { db with
        seen := updateWhere (fun row => row.key == (pr, fp))
          (fun row => { row with lastSeenSha := headSha, status := .opened, updatedAt := now }) db.seen }
    else
      { db with
        seen := db.seen ++
          [⟨freshKey (db.seen.map (·.id)), b.tenantRootId, pr, fp, headSha, headSha, .opened, now, now⟩] }

/-- The `WHERE` of `MarkFindingsResolved`. -/
def isGone (currentFps : List String) (row : FindingSeen) : Bool :=
  row.pullRequest == pr && row.status == .opened && !currentFps.contains row.fingerprint

/-- `MarkFindingsResolved`, with the number of rows it changed. -/
def markFindingsResolved (now : Timestamp) (currentFps : List String) : Tracking × Nat :=
  ({ db with
      seen := updateWhere (isGone pr currentFps)
        (fun row => { row with status := .resolved, updatedAt := now })
        db.seen },
    (db.seen.filter (isGone pr currentFps)).length)

def persistFindingSeen (headSha : String) (now : Timestamp)
    (currentFps : List String) : Tracking × Nat :=
  (currentFps.foldl (fun db fp => db.upsertFindingSeen pr headSha now fp) db).markFindingsResolved
    pr now currentFps

end Tracking

/-! ### A review -/

/-- What a review of a pull request brings: the kept findings, and whether the earlier fingerprints
could be read. -/
structure IterationInput where
  pullRequest : PullRequest
  headSha : String
  findings : List Finding
  priorRead : Bool
  now : Timestamp

/-- A finished review: the tables before and after, the counts and whether the summary shows
them. -/
structure Iteration where
  input : IterationInput
  (before after : Tracking)
  delta : FindingDelta
  shown : Bool
  flipped : Nat

/-- `priorFindingFingerprints` and its call in `runJob`: the review goes on without them when they
cannot be read. -/
def Tracking.priorFingerprints (db : Tracking) (input : IterationInput) : List (String × Bool) :=
  if input.priorRead then db.listFindingSeen input.pullRequest else []

/-- The classification in `runJob`. -/
def Tracking.classified (rt : ReviewRuntime) (db : Tracking) (input : IterationInput) :
    FindingDelta × List String :=
  classifyCrossIteration rt (db.priorFingerprints input) input.findings

/-- The tracking of one review in `runJob`. It fails without a visible business:
`CreateCodeReviewAgentRun` returns no row then, and the transaction is rolled back. -/
def Tracking.review (rt : ReviewRuntime) (db : Tracking) (input : IterationInput) :
    Option Iteration :=
  if db.businesses.any fun b => b.id == input.pullRequest.businessId then
    some
      { input, before := db
        after := (db.persistFindingSeen input.pullRequest input.headSha input.now
          (db.classified rt input).2).1
        delta := (db.classified rt input).1
        shown := !(db.priorFingerprints input).isEmpty
        flipped := (db.persistFindingSeen input.pullRequest input.headSha input.now
          (db.classified rt input).2).2 }
  else none

def Tracking.reviews (rt : ReviewRuntime) (db : Tracking) :
    List IterationInput → Option (List Iteration)
  | [] => some []
  | input :: rest => do
    let iteration ← db.review rt input
    let later ← iteration.after.reviews rt rest
    some (iteration :: later)

/-! ### The table as a map -/

namespace Tracking

variable {db : Tracking}

def HasStatus (db : Tracking) (key : PullRequest × String) (status : FindingStatus) : Prop :=
  ∃ row ∈ db.seen, row.key = key ∧ row.status = status

/-- The fingerprints of a pull request that were ever stored. -/
def seenSet (db : Tracking) (pr : PullRequest) : Finset String :=
  ((db.seen.filter fun row => row.pullRequest == pr).map (·.fingerprint)).toFinset

def openSet (db : Tracking) (pr : PullRequest) : Finset String :=
  ((db.seen.filter fun row => row.pullRequest == pr && row.status == .opened).map
    (·.fingerprint)).toFinset

theorem mem_openSet {pr : PullRequest} {fp : String} :
    fp ∈ db.openSet pr ↔ db.HasStatus (pr, fp) .opened := by
  simp only [openSet, HasStatus, FindingSeen.key, List.mem_toFinset, List.mem_map, List.mem_filter,
    Bool.and_eq_true, beq_iff_eq, Prod.mk.injEq]
  constructor
  · rintro ⟨row, ⟨isRow, ofPr, isOpen⟩, rfl⟩
    exact ⟨row, isRow, ⟨ofPr, rfl⟩, isOpen⟩
  · rintro ⟨row, isRow, ⟨ofPr, rfl⟩, isOpen⟩
    exact ⟨row, ⟨isRow, ofPr, isOpen⟩, rfl⟩

theorem mem_seenSet {pr : PullRequest} {fp : String} :
    fp ∈ db.seenSet pr ↔ ∃ status, db.HasStatus (pr, fp) status := by
  simp only [seenSet, HasStatus, FindingSeen.key, List.mem_toFinset, List.mem_map,
    List.mem_filter, beq_iff_eq, Prod.mk.injEq]
  constructor
  · rintro ⟨row, ⟨isRow, ofPr⟩, rfl⟩
    exact ⟨row.status, row, isRow, ⟨ofPr, rfl⟩, rfl⟩
  · rintro ⟨-, row, isRow, ⟨ofPr, rfl⟩, -⟩
    exact ⟨row, ⟨isRow, ofPr⟩, rfl⟩

theorem listFindingSeen_keys (db : Tracking) (pr : PullRequest) :
    ((db.listFindingSeen pr).map (·.1)).toFinset = db.seenSet pr := by
  rw [listFindingSeen, List.map_map]
  rfl

/-- The rows that a review resolves are as many as the fingerprints. -/
theorem gone_card (unique : db.Unique) (pr : PullRequest) (fps : List String) :
    (db.seen.filter (isGone pr fps)).length = (db.openSet pr \ fps.toFinset).card := by
  have nodup : ((db.seen.filter (isGone pr fps)).map (·.fingerprint)).Nodup := by
    refine List.Nodup.map_on ?_ (List.Nodup.of_map FindingSeen.key unique |>.filter _)
    intro a isA b isB same
    simp only [List.mem_filter, isGone, Bool.and_eq_true, beq_iff_eq] at isA isB
    exact unique.eq_of_key isA.1 isB.1 (Prod.ext (isA.2.1.1.trans isB.2.1.1.symm) same)
  rw [← List.length_map (·.fingerprint), ← List.toFinset_card_of_nodup nodup]
  congr 1
  ext fp
  simp only [isGone, openSet, List.mem_toFinset, List.mem_map, List.mem_filter, Finset.mem_sdiff,
    Bool.and_eq_true, Bool.not_eq_true', List.contains_eq_mem, decide_eq_false_iff_not]
  constructor
  · rintro ⟨row, ⟨isRow, ⟨ofPr, isOpen⟩, gone⟩, rfl⟩
    exact ⟨⟨row, ⟨isRow, ofPr, isOpen⟩, rfl⟩, gone⟩
  · rintro ⟨⟨row, ⟨isRow, ofPr, isOpen⟩, rfl⟩, gone⟩
    exact ⟨row, ⟨isRow, ⟨ofPr, isOpen⟩, gone⟩, rfl⟩

theorem resolved_card (unique : db.Unique) (pr : PullRequest) (fps : List String) :
    ((db.listFindingSeen pr).filter fun p => p.2 && !fps.contains p.1).length =
      (db.openSet pr \ fps.toFinset).card := by
  rw [← gone_card unique, listFindingSeen, List.filter_map, List.length_map, List.filter_filter]
  congr 2
  funext row
  simp only [Function.comp_apply, isGone]
  ac_rfl

/-! ### The statements -/

section Upsert

variable (pr : PullRequest) (headSha : String) (now : Timestamp)

theorem upsertFindingSeen_businesses (fp : String) :
    (db.upsertFindingSeen pr headSha now fp).businesses = db.businesses := by
  unfold upsertFindingSeen
  split
  · rfl
  · split
    · rfl
    · rfl

theorem upsertFindingSeen_unique (unique : db.Unique) (fp : String) :
    (db.upsertFindingSeen pr headSha now fp).Unique := by
  unfold upsertFindingSeen
  split
  · exact unique
  · split
    next => exact UniqueOn.updateWhere unique fun _ _ => rfl
    next absent => exact UniqueOn.append_fresh unique (ne_of_not_any absent)

variable (visible : (db.businesses.any fun b => b.id == pr.businessId) = true)

include visible

theorem upsertFindingSeen_hasStatus (fp : String) (key : PullRequest × String)
    (status : FindingStatus) :
    (db.upsertFindingSeen pr headSha now fp).HasStatus key status ↔
      if key = (pr, fp) then status = .opened else db.HasStatus key status := by
  obtain ⟨b, found⟩ :=
    Option.isSome_iff_exists.mp ((List.find?_isSome).mpr (List.any_eq_true.mp visible))
  unfold upsertFindingSeen
  simp only [found]
  split
  next present =>
    obtain ⟨old, isOld, sameKey⟩ := List.any_eq_true.mp present
    split
    next isKey =>
      constructor
      · rintro ⟨row, isRow, rowKey, rfl⟩
        obtain ⟨row₀, isRow₀, ⟨-, rfl⟩ | ⟨other, rfl⟩⟩ := updated_or_kept isRow
        · rfl
        · exact absurd (beq_iff_eq.mpr (rowKey.trans isKey)) other
      · rintro rfl
        exact ⟨_, updated_mem isOld sameKey, (beq_iff_eq.mp sameKey).trans isKey.symm, rfl⟩
    next otherKey =>
    constructor
    · rintro ⟨row, isRow, rowKey, rfl⟩
      obtain ⟨row₀, isRow₀, ⟨chosen, rfl⟩ | ⟨-, rfl⟩⟩ := updated_or_kept isRow
      · exact absurd (rowKey.symm.trans (beq_iff_eq.mp chosen)) otherKey
      · exact ⟨row₀, isRow₀, rowKey, rfl⟩
    · rintro ⟨row, isRow, rowKey, rfl⟩
      refine ⟨row, kept_mem isRow ?_, rowKey, rfl⟩
      rw [beq_iff_eq, rowKey]
      exact otherKey
  next absent =>
  have fresh := ne_of_not_any absent
  simp only [HasStatus, List.mem_append, List.mem_singleton]
  split
  next isKey =>
    subst isKey
    constructor
    · rintro ⟨row, old | rfl, rowKey, rfl⟩
      · exact absurd rowKey (fresh row old)
      · rfl
    · rintro rfl
      exact ⟨_, .inr rfl, rfl, rfl⟩
  next otherKey =>
  constructor
  · rintro ⟨row, old | rfl, rowKey, rfl⟩
    · exact ⟨row, old, rowKey, rfl⟩
    · exact absurd rowKey.symm otherKey
  · rintro ⟨row, isRow, rowKey, rfl⟩
    exact ⟨row, .inl isRow, rowKey, rfl⟩

omit visible in
theorem upserts_unique (fps : List String) (unique : db.Unique) :
    (fps.foldl (fun db fp => db.upsertFindingSeen pr headSha now fp) db).Unique := by
  induction fps generalizing db with
  | nil => exact unique
  | cons fp rest ih => exact ih (upsertFindingSeen_unique pr headSha now unique fp)

theorem upserts_hasStatus (fps : List String) (key : PullRequest × String)
    (status : FindingStatus) :
    (fps.foldl (fun db fp => db.upsertFindingSeen pr headSha now fp) db).HasStatus key status ↔
      if key.1 = pr ∧ key.2 ∈ fps then status = .opened else db.HasStatus key status := by
  induction fps generalizing db with
  | nil => simp
  | cons fp rest ih =>
    have visible' : ((db.upsertFindingSeen pr headSha now fp).businesses.any fun b =>
          b.id == pr.businessId) = true := by
      rwa [upsertFindingSeen_businesses]
    rw [List.foldl_cons, ih visible', upsertFindingSeen_hasStatus pr headSha now visible]
    by_cases later : key.1 = pr ∧ key.2 ∈ rest
    · rw [if_pos later, if_pos ⟨later.1, List.mem_cons_of_mem _ later.2⟩]
    · rw [if_neg later]
      by_cases isKey : key = (pr, fp)
      · rw [if_pos isKey, if_pos ⟨congrArg Prod.fst isKey, by simp [isKey]⟩]
      · rw [if_neg isKey, if_neg]
        rintro ⟨ofPr, member⟩
        rcases List.mem_cons.mp member with same | inRest
        · exact isKey (Prod.ext ofPr same)
        · exact later ⟨ofPr, inRest⟩

end Upsert

theorem markFindingsResolved_unique (unique : db.Unique) (pr : PullRequest) (now : Timestamp)
    (fps : List String) : (db.markFindingsResolved pr now fps).1.Unique :=
  UniqueOn.updateWhere unique fun _ _ => rfl

/-- Of the open fingerprints those of the review stay open, and those of other pull requests. -/
theorem markFindingsResolved_opened (pr : PullRequest) (now : Timestamp) (fps : List String)
    (key : PullRequest × String) :
    (db.markFindingsResolved pr now fps).1.HasStatus key .opened ↔
      db.HasStatus key .opened ∧ (key.1 = pr → key.2 ∈ fps) := by
  constructor
  · rintro ⟨row, isRow, rowKey, isOpen⟩
    obtain ⟨row₀, isRow₀, ⟨-, rfl⟩ | ⟨gone, rfl⟩⟩ := updated_or_kept isRow
    · cases isOpen
    · refine ⟨⟨row₀, isRow₀, rowKey, isOpen⟩, fun ofPr => ?_⟩
      subst rowKey
      simp only [isGone, Bool.and_eq_true, beq_iff_eq, Bool.not_eq_true', not_and,
        Bool.not_eq_false, List.contains_iff_mem] at gone
      exact gone ⟨ofPr, isOpen⟩
  · rintro ⟨⟨row, isRow, rfl, isOpen⟩, stays⟩
    refine ⟨row, kept_mem isRow ?_, rfl, isOpen⟩
    simp only [isGone, Bool.and_eq_true, beq_iff_eq, Bool.not_eq_true', not_and, Bool.not_eq_false,
      List.contains_iff_mem]
    exact fun opened => stays opened.1

theorem markFindingsResolved_seenSet (pr pr' : PullRequest) (now : Timestamp) (fps : List String) :
    (db.markFindingsResolved pr now fps).1.seenSet pr' = db.seenSet pr' := by
  simp only [seenSet, markFindingsResolved]
  rw [filter_updateWhere, map_updateWhere]
  · exact fun _ _ => rfl
  · exact fun _ _ => rfl

/-! ### What a review stores -/

section Persist

variable (pr : PullRequest) (headSha : String) (now : Timestamp) (fps : List String)

theorem persistFindingSeen_unique (unique : db.Unique) :
    (db.persistFindingSeen pr headSha now fps).1.Unique :=
  markFindingsResolved_unique (upserts_unique pr headSha now fps unique) pr now fps

variable (visible : (db.businesses.any fun b => b.id == pr.businessId) = true)

include visible

theorem persistFindingSeen_openSet (pr' : PullRequest) :
    (db.persistFindingSeen pr headSha now fps).1.openSet pr' = if pr' = pr then
      fps.toFinset else db.openSet pr' := by
  ext fp
  rw [mem_openSet, persistFindingSeen, markFindingsResolved_opened,
    upserts_hasStatus pr headSha now visible]
  by_cases same : pr' = pr
  · rw [if_pos same, List.mem_toFinset]
    by_cases member : fp ∈ fps
    · simp [same, member]
    · simp [same, member]
  · simp [same, mem_openSet]

theorem persistFindingSeen_seenSet (pr' : PullRequest) :
    (db.persistFindingSeen pr headSha now fps).1.seenSet pr' =
    if pr' = pr then db.seenSet pr ∪ fps.toFinset else db.seenSet pr' := by
  ext fp
  rw [persistFindingSeen, markFindingsResolved_seenSet, mem_seenSet]
  simp only [upserts_hasStatus pr headSha now visible]
  by_cases same : pr' = pr
  · by_cases member : fp ∈ fps
    · simp [same, member]
    · simp [same, member, mem_seenSet]
  · simp [same, mem_seenSet]

theorem persistFindingSeen_flipped (unique : db.Unique) :
    (db.persistFindingSeen pr headSha now fps).2 = (db.openSet pr \ fps.toFinset).card := by
  refine (gone_card (upserts_unique pr headSha now fps unique) pr fps).trans ?_
  congr 1
  ext fp
  simp only [Finset.mem_sdiff, mem_openSet, upserts_hasStatus pr headSha now visible,
    List.mem_toFinset]
  by_cases member : fp ∈ fps
  · simp [member]
  · simp [member]

end Persist

end Tracking

/-- What a review reports and stores, in terms of the fingerprints open and seen before it. -/
structure Iteration.Tracks (rt : ReviewRuntime) (i : Iteration) : Prop where
  /-- Exactly the fingerprints of the review are open, and other pull requests are as they were. -/
  openNow : ∀ pr, i.after.openSet pr =
    if pr = i.input.pullRequest then distinctFingerprints rt i.input.findings else i.before.openSet pr
  /-- A fingerprint that was seen once is never forgotten. -/
  seenNow : ∀ pr, i.after.seenSet pr = if pr = i.input.pullRequest then
    i.before.seenSet pr ∪ distinctFingerprints rt i.input.findings else i.before.seenSet pr
  /-- What was carried over was seen in an earlier review. -/
  carryover : i.input.priorRead = true → i.delta.carryover =
    (distinctFingerprints rt i.input.findings ∩ i.before.seenSet i.input.pullRequest).card
  total : i.delta.new + i.delta.carryover = (distinctFingerprints rt i.input.findings).card
  resolved : i.input.priorRead = true → i.delta.resolved =
    (i.before.openSet i.input.pullRequest \ distinctFingerprints rt i.input.findings).card
  flipped : i.flipped =
    (i.before.openSet i.input.pullRequest \ distinctFingerprints rt i.input.findings).card
  /-- Counts are only shown when the earlier fingerprints were read. -/
  shown : i.shown = true → i.input.priorRead = true

theorem Tracking.review_tracks {rt : ReviewRuntime} {db : Tracking} {input : IterationInput}
    {i : Iteration}
    (unique : db.Unique) (ran : db.review rt input = some i) : i.Tracks rt ∧ i.after.Unique := by
  unfold Tracking.review at ran
  split at ran
  next visible =>
    have fps : (db.classified rt input).2.toFinset = distinctFingerprints rt input.findings :=
      classifyCrossIteration_toFinset rt _ input.findings
    have read (isRead : input.priorRead = true) :
        db.priorFingerprints input = db.listFindingSeen input.pullRequest :=
      if_pos isRead
    obtain rfl := Option.some.inj ran
    refine ⟨⟨?_, ?_, ?_, ?_, ?_, ?_, ?_⟩, persistFindingSeen_unique _ _ _ _ unique⟩
    · intro pr
      rw [← fps]
      exact persistFindingSeen_openSet _ _ _ _ visible pr
    · intro pr
      rw [← fps]
      refine (persistFindingSeen_seenSet _ _ _ _ visible pr).trans ?_
      split
      next same => rw [same]
      next => rfl
    · intro isRead
      rw [← listFindingSeen_keys, ← read isRead]
      exact classifyCrossIteration_carryover rt _ input.findings
    · exact classifyCrossIteration_total rt _ input.findings
    · intro isRead
      rw [← fps, ← resolved_card unique, ← read isRead]
      rfl
    · rw [← fps]
      exact persistFindingSeen_flipped _ _ _ _ visible unique
    · intro isShown
      by_contra unread
      have nothing : db.priorFingerprints input = [] := if_neg unread
      simp [nothing] at isShown
  next => cases ran

/-- Over any sequence of successful reviews, of one pull request or of several, from a table with
unique keys. -/
theorem reviews_track {rt : ReviewRuntime} {db : Tracking} {inputs : List IterationInput}
    {iterations : List Iteration} (unique : db.Unique)
    (ran : db.reviews rt inputs = some iterations) : ∀ i ∈ iterations, i.Tracks rt := by
  induction inputs generalizing db iterations with
  | nil =>
    obtain rfl := Option.some.inj ran
    exact List.forall_mem_nil _
  | cons input rest ih =>
    simp only [Tracking.reviews, Option.bind_eq_bind, Option.bind_eq_some_iff] at ran
    obtain ⟨i, first, later, others, same⟩ := ran
    obtain rfl := Option.some.inj same
    obtain ⟨tracks, unique'⟩ := Tracking.review_tracks unique first
    exact List.forall_mem_cons.mpr ⟨tracks, ih unique' others⟩

namespace Sample

def plainRuntime : ReviewRuntime := ⟨id, (· == ·), fun _ => none, id⟩

def pullRequest : PullRequest := ⟨1, "acme/shop", 7⟩

def noHistory : Tracking := ⟨[⟨1, 1⟩], []⟩

/-- A finding without a rule. -/
def titled (title : String) : Finding := ⟨"main.go", none, "error", title, "", "", ""⟩

/-- A review that finds a problem, one that does not, and one that finds it again, twice. -/
def reappearing : List IterationInput :=
  [⟨pullRequest, "a", [titled "leak"], true, 0⟩, ⟨pullRequest, "b", [], true, 1⟩,
   ⟨pullRequest, "c", [titled "leak", titled "leak", titled "race"], true, 2⟩]

def iterations : List Iteration := (noHistory.reviews plainRuntime reappearing).getD []

theorem reappearing_ran : noHistory.reviews plainRuntime reappearing = some iterations := rfl

theorem reappearing_tracks : noHistory.reviews plainRuntime reappearing = some iterations ∧
    iterations[2].Tracks plainRuntime :=
  ⟨reappearing_ran, reviews_track (show noHistory.Unique from UniqueOn.nil _) reappearing_ran _
    (by simp [iterations])⟩

/-- The problem that was resolved and found again is reported as carried over. -/
theorem resolved_finding_is_carried_over : noHistory.seen = [] ∧
    noHistory.reviews plainRuntime reappearing = some iterations ∧
    ∃ i ∈ iterations, i.input.priorRead = true ∧ i.shown = true ∧ i.delta.carryover = 1 ∧
      (distinctFingerprints plainRuntime i.input.findings ∩ i.before.openSet
        i.input.pullRequest).card = 0 :=
  ⟨rfl, reappearing_ran, iterations[2], by simp [iterations], by decide +kernel⟩

end Sample

end Manyforge.Coding
