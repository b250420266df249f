import Manyforge.Tenancy.Transactions
import Manyforge.Tenancy.Commits
import Manyforge.Tenancy.Seeds
import Manyforge.Lib.Locks

/-!
# The hierarchy under concurrent transactions

What a transaction has checked under a lock stays true until it commits, since no other transaction
that holds the lock can commit before. Every state of a run of transactions has a well-formed
hierarchy.
-/
namespace Manyforge.Tenancy

open Table Forest Transition Tenants Stage

/-- The rows of earlier states that a transaction carries. -/
def Stage.snapshots : Stage → List RootSnapshot
  | .cutover op | .cutoverLocked op | .cutoverValidated op => [op.source, op.destination]
  | .preflightSource _ source => [source]
  | .preflightBoth _ source destination | .preflightHeight _ source destination _ _ =>
    [source, destination]
  | .sub .. | .subLocked .. | .subChecked .. | .move .. | .moveRead .. | .moveLocked ..
  | .moveChecked .. | .status .. | .statusLocked .. | .delete .. | .deleteLocked ..
  | .preflight .. => []

/-- What a transaction relies on at its stage. A tenant read before the lock may be out of date;
what was checked under its lock holds if it is not. -/
def Stage.Valid (db : Tenants) : Stage → Prop
  | .sub _ _ _ parent | .subLocked _ _ _ parent =>
    db.Known parent.id ∧ db.Known parent.tenantRootId
  | .subChecked _ _ parent =>
    db.Known parent.tenantRootId ∧ (Rooted db.parentOf parent.id parent.tenantRootId →
      ∀ a n, up db.parentOf n parent.id = some a → n + 1 ≤ maxDepth)
  | .move _ node _ => db.Known node.id ∧ db.Known node.tenantRootId
  | .moveRead _ node newParent | .moveLocked _ node newParent =>
    (db.Known node.id ∧ db.Known newParent.id) ∧ db.Known node.tenantRootId
  | .moveChecked node newParent =>
    (db.Known node.id ∧ db.Known newParent.id) ∧ db.Known node.tenantRootId ∧
      (Rooted db.parentOf node.id node.tenantRootId →
        Rooted db.parentOf newParent.id node.tenantRootId →
        Fits db.parentOf maxDepth node.id newParent.id)
  | .status .. | .statusLocked .. | .delete .. | .deleteLocked .. => True
  | .cutover op | .cutoverLocked op => db.Prepared op
  | .cutoverValidated op => db.Mergeable op
  | .preflight op => db.Known op.destinationParentId
  | .preflightSource op source =>
    db.Known op.destinationParentId ∧ db.Tracks source op.sourceRootId True
  | .preflightBoth op source destination =>
    db.Known op.destinationParentId ∧ db.Tracks source op.sourceRootId True ∧
      db.Tracks destination op.destinationRootId True
  | .preflightHeight op source destination height _ =>
    db.Known op.destinationParentId ∧
      db.Tracks source op.sourceRootId (db.HeightWithin op.sourceRootId height) ∧
      db.Tracks destination op.destinationRootId True

/-- Another transaction's commit leaves a transaction what it relies on. -/
theorem Stage.Valid.commits {db db' : Tenants} {now : Timestamp} {locks : List UUID} {stage : Stage}
    (inv : db.Hierarchy) (commits : db.Commits db' now locks) (free : ∀ r ∈ stage.locks, r ∉ locks)
    (fresh : ∀ snapshot ∈ stage.snapshots, ∀ x ∈ snapshot.businesses, x.updatedAt ≠ now)
    (valid : stage.Valid db) : stage.Valid db' := by
  have unread {snapshot : RootSnapshot} {root : UUID} (member : snapshot ∈ stage.snapshots)
      (tracks : db.Tracks snapshot root True) : db'.Tracks snapshot root True :=
    commits.tracks inv (fresh snapshot member) (fun _ _ _ => trivial) tracks
  cases stage with
  | sub | subLocked | move => exact ⟨commits.known valid.1, commits.known valid.2⟩
  | moveRead | moveLocked =>
    exact ⟨⟨commits.known valid.1.1, commits.known valid.1.2⟩, commits.known valid.2⟩
  | subChecked child name parent =>
    obtain ⟨known, room⟩ := valid
    refine ⟨commits.known known, fun rooted a n reached => ?_⟩
    have elsewhere := commits.elsewhere known (free _ (List.mem_singleton_self _))
    have before := elsewhere.rooted_of inv rooted
    rw [elsewhere.up_eq before] at reached
    exact room before a n reached
  | moveChecked node newParent =>
    obtain ⟨known, knownRoot, fits⟩ := valid
    refine ⟨⟨commits.known known.1, commits.known known.2⟩, commits.known knownRoot,
      fun rootedNode rootedParent => ?_⟩
    have elsewhere := commits.elsewhere knownRoot (free _ (List.mem_singleton_self _))
    have below := elsewhere.rooted_of inv rootedNode
    have above := elsewhere.rooted_of inv rootedParent
    exact elsewhere.fits inv elsewhere below above (fits below above)
  | status | statusLocked | delete | deleteLocked => trivial
  | cutover op | cutoverLocked op =>
    exact commits.prepared inv (fresh _ (by simp [snapshots]))
      (fresh _ (by simp [snapshots])) valid
  | cutoverValidated op =>
    exact commits.mergeable inv valid (free _ (by simp [Stage.locks])) (free _ (by simp [Stage.locks]))
  | preflight => exact commits.known valid
  | preflightSource => exact ⟨commits.known valid.1, unread (by simp [snapshots]) valid.2⟩
  | preflightBoth =>
    exact ⟨commits.known valid.1, unread (by simp [snapshots]) valid.2.1,
      unread (by simp [snapshots]) valid.2.2⟩
  | preflightHeight op source destination height conflict =>
    refine ⟨commits.known valid.1, ?_, unread (by simp [snapshots]) valid.2.2⟩
    refine commits.tracks inv (fresh _ (by simp [snapshots])) (fun isRoot elsewhere within => ?_)
      valid.2.1
    exact fun d n reached => within d n (elsewhere.up_of inv ⟨.refl _, isRoot⟩ reached)

namespace HierarchyState

/-- No open or later transaction has the time of these rows. -/
def Old (s : HierarchyState) (rows : List Business) : Prop :=
  ∀ b ∈ rows, b.updatedAt < s.clock ∧ ∀ tx ∈ s.open_, b.updatedAt ≠ tx.now

structure Inv (s : HierarchyState) : Prop where
  hierarchy : s.db.Hierarchy
  stages : ∀ tx ∈ s.open_, tx.stage.Valid s.db
  operations : ∀ op ∈ s.operations, op.status = .ready → s.db.Prepared op
  exclusive : ∀ tx ∈ s.open_, ∀ other ∈ s.open_, ∀ r ∈ tx.stage.locks, r ∈ other.stage.locks →
    tx.now = other.now
  past : ∀ tx ∈ s.open_, tx.now < s.clock
  rows : s.Old s.db.businesses
  seen : ∀ tx ∈ s.open_, ∀ snapshot ∈ tx.stage.snapshots, s.Old snapshot.businesses
  recorded : ∀ op ∈ s.operations, s.Old op.source.businesses ∧ s.Old op.destination.businesses

variable {hashtext : UUID → Int} {s : HierarchyState}

theorem Inv.old_rootSnapshot (inv : s.Inv) (root : UUID) :
    s.Old (s.db.rootSnapshot root).businesses :=
  fun b member => inv.rows b (List.mem_filter.mp member).1

/-! ### One statement of a transaction -/

/-- What a transaction has after a statement that does not end it. -/
structure GoesOn (s : HierarchyState) (tx : Tx) (stage : Stage) : Prop where
  valid : stage.Valid s.db
  locks : ∀ r ∈ stage.locks, r ∈ tx.stage.locks ∨
    ∀ other ∈ s.open_, other.now ≠ tx.now → r ∉ other.stage.locks
  seen : ∀ snapshot ∈ stage.snapshots, s.Old snapshot.businesses

/-- What a statement that commits has done. -/
structure Ends (s : HierarchyState) (tx : Tx) (db : Tenants) (operations : List MergeOperation) :
    Prop where
  commits : s.db.Commits db tx.now tx.stage.locks
  operations : ∀ op ∈ operations, op ∈ s.operations ∨
    (op.status = .ready → s.db.Prepared op) ∧ s.Old op.source.businesses ∧
      s.Old op.destination.businesses

def Leads (s : HierarchyState) (tx : Tx) : Outcome → Prop
  | .goOn stage => s.GoesOn tx stage
  | .commit db operations => s.Ends tx db operations
  | .wait | .rollback => True

/-- What is to hold of an operation when it is written. -/
def Recordable (s : HierarchyState) (op : MergeOperation) : Prop :=
  (op.status = .ready → s.db.Prepared op) ∧ s.Old op.source.businesses ∧ s.Old op.destination.businesses

theorem mem_recordOperation {op op' : MergeOperation} (member : op' ∈ s.recordOperation op) :
    op' ∈ s.operations ∨ op' = op := by
  obtain ⟨old, row, rfl⟩ := mem_updateWhere.mp member
  split
  · exact .inr rfl
  · exact .inl row

theorem recorded_unready {op : MergeOperation} {status : MergeStatus}
    (snapshots : ∀ snapshot ∈ [op.source, op.destination], s.Old snapshot.businesses)
    (unready : status ≠ .ready) :
    ∀ op' ∈ s.recordOperation { op with status }, op' ∈ s.operations ∨ s.Recordable op' := by
  intro op' row
  rcases mem_recordOperation row with old | rfl
  · exact .inl old
  · exact .inr ⟨fun ready => absurd ready unready, snapshots _ (by simp), snapshots _ (by simp)⟩

section

variable (inv : s.Inv)

include inv

theorem Inv.acquire {tx : Tx} (member : tx ∈ s.open_) {roots : List UUID} {stage : Stage}
    (valid : stage.Valid s.db) (locks : stage.locks = roots)
    (snapshots : stage.snapshots = tx.stage.snapshots) :
    s.Leads tx (s.acquire hashtext tx.now roots stage) := by
  unfold HierarchyState.acquire
  split
  next free =>
    refine ⟨valid, fun r root => .inr fun other isOpen differs held => ?_, snapshots ▸ inv.seen tx member⟩
    have unlocked := List.all_eq_true.mp (List.all_eq_true.mp free r (locks ▸ root)) other isOpen
    simp only [Bool.or_eq_true, beq_iff_eq, differs, false_or, List.all_eq_true] at unlocked
    simpa using unlocked r held
  next => trivial

omit inv in
theorem leads_commitOf {tx : Tx} {call : Except Refusal Tenants}
    (commits : ∀ db, call = .ok db → s.db.Commits db tx.now tx.stage.locks) :
    s.Leads tx (s.commitOf call) := by
  unfold commitOf
  split
  next db => exact ⟨commits db rfl, fun op row => .inl row⟩
  next => trivial

theorem Inv.leads {tx : Tx} (member : tx ∈ s.open_) (conflict : Bool) :
    s.Leads tx (s.statement hashtext tx.now conflict tx.stage) := by
  have valid := inv.stages tx member
  have seen := inv.seen tx member
  cases stage : tx.stage with
  | sub | moveRead | cutover =>
    rw [stage] at valid
    exact inv.acquire member valid rfl (by rw [stage]; rfl)
  | status | delete => exact inv.acquire member trivial rfl (by rw [stage]; rfl)
  | subLocked actor child name parent =>
    rw [stage] at valid
    simp only [statement]
    split
    next checked =>
      refine ⟨⟨valid.2, fun rooted a n reached => ?_⟩, fun r root => .inl (by rwa [stage]),
        by simp [snapshots]⟩
      exact checkSub_room inv.hierarchy checked rooted reached
    next => trivial
  | subChecked child name parent =>
    rw [stage] at valid
    refine leads_commitOf fun db call => ?_
    rw [stage]
    exact writeSub_commits inv.hierarchy call valid.2
  | move actor node newParent =>
    rw [stage] at valid
    simp only [statement]
    split
    next parent visible =>
      split
      · have known := (loadVisible_ok inv.hierarchy visible).2.1
        exact ⟨⟨⟨valid.1, known⟩, valid.2⟩, by simp [Stage.locks], by simp [snapshots]⟩
      · trivial
    next => trivial
  | moveLocked actor node newParent =>
    rw [stage] at valid
    simp only [statement]
    split
    next checked =>
      refine ⟨⟨valid.1, valid.2, fun _ rootedParent => ?_⟩, fun r root => .inl (by rwa [stage]),
        by simp [snapshots]⟩
      exact checkMove_fits inv.hierarchy checked valid.1.2 rootedParent
    next => trivial
  | moveChecked node newParent =>
    rw [stage] at valid
    refine leads_commitOf fun db call => ?_
    rw [stage]
    exact moveBusiness_commits inv.hierarchy call valid.1.1 valid.1.2 valid.2.2
  | statusLocked actor node status =>
    exact leads_commitOf fun db call => setStatus_commits inv.hierarchy call
  | deleteLocked actor node =>
    exact leads_commitOf fun db call => deleteBusiness_commits inv.hierarchy call
  | cutoverLocked op =>
    rw [stage] at valid seen
    simp only [statement]
    split
    next current =>
      exact ⟨Tenants.Prepared.mergeable inv.hierarchy valid current, fun r root =>
        .inl (by rwa [stage]), seen⟩
    next =>
    split
    · exact ⟨.refl inv.hierarchy, recorded_unready seen (by decide)⟩
    · trivial
  | cutoverValidated op =>
    rw [stage] at valid seen
    simp only [statement]
    split
    next after call =>
      refine ⟨?_, recorded_unready seen (by decide)⟩
      rw [stage, cutover_ok call]
      exact merged_commits inv.hierarchy valid
    next => exact ⟨.refl inv.hierarchy, recorded_unready seen (by decide)⟩
  | preflight op =>
    rw [stage] at valid
    refine ⟨⟨valid, tracks_rootSnapshot inv.hierarchy _⟩, by simp [Stage.locks], ?_⟩
    simpa [snapshots] using inv.old_rootSnapshot _
  | preflightSource op source =>
    rw [stage] at valid seen
    refine ⟨⟨valid.1, valid.2, tracks_rootSnapshot inv.hierarchy _⟩, by simp [Stage.locks], ?_⟩
    simp only [snapshots, List.forall_mem_cons] at seen ⊢
    exact ⟨seen.1, inv.old_rootSnapshot _, by simp⟩
  | preflightBoth op source destination =>
    rw [stage] at valid seen
    refine ⟨⟨valid.1, valid.2.1.read fun isRoot => ?_, valid.2.2⟩, by simp [Stage.locks], seen⟩
    exact heightWithin_sourceHeight inv.hierarchy isRoot
  | preflightHeight op source destination height found =>
    rw [stage] at valid seen
    refine ⟨.refl inv.hierarchy, fun op' row => ?_⟩
    rcases mem_recordOperation row with old | rfl
    · exact .inl old
    refine .inr ⟨fun ready => ?_, seen _ (by simp [snapshots]), seen _ (by simp [snapshots])⟩
    have small : s.db.parentDepth op + 1 + height ≤ maxDepth := by
      by_contra deep
      simp [Nat.lt_of_not_le deep] at ready
    exact ⟨height, s.db.parentDepth op, valid.2.1,
      valid.2.2.read fun _ => depthWithin_parentDepth inv.hierarchy op valid.1, small⟩

/-! ### One action -/

omit inv in
theorem clock_lt_tick (s : HierarchyState) : s.clock < s.clock + 1 := Int.lt_succ s.clock

omit inv in
theorem Old.later {s' : HierarchyState} {rows : List Business} (old : s.Old rows)
    (clock : s.clock ≤ s'.clock)
    (nows : ∀ tx ∈ s'.open_, (∃ before ∈ s.open_, before.now = tx.now) ∨ s.clock ≤ tx.now) :
    s'.Old rows := by
  refine fun b member => ⟨(old b member).1.trans_le clock, fun tx isOpen same => ?_⟩
  rcases nows tx isOpen with ⟨before, wasOpen, isTx⟩ | later
  · exact (old b member).2 before wasOpen (same.trans isTx.symm)
  · exact absurd (old b member).1 (not_lt.mpr (same ▸ later))

theorem Inv.commit {db : Tenants} {operations : List MergeOperation} {open_ : List Tx}
    {now clock : Timestamp} {locks : List UUID} (commits : s.db.Commits db now locks)
    (stay : ∀ tx ∈ open_, tx ∈ s.open_) (le : s.clock ≤ clock) (before : now < clock)
    (unheld : ∀ tx ∈ open_, ∀ r ∈ tx.stage.locks, r ∉ locks) (apart : ∀ tx ∈ open_, tx.now ≠ now)
    (fresh : ∀ rows, s.Old rows → ∀ b ∈ rows, b.updatedAt ≠ now)
    (recorded : ∀ op ∈ operations, op ∈ s.operations ∨ s.Recordable op) :
    Inv { db, operations, open_, clock } := by
  have later {rows : List Business} (old : s.Old rows) :
      Old { db, operations, open_, clock } rows :=
    old.later le fun tx isOpen => .inl ⟨tx, stay tx isOpen, rfl⟩
  have known (op : MergeOperation) (row : op ∈ operations) : s.Recordable op := by
    rcases recorded op row with old | new
    · exact ⟨inv.operations op old, inv.recorded op old⟩
    · exact new
  refine ⟨commits.hierarchy, fun tx isOpen => ?_, fun op row ready => ?_, ?_, ?_, ?_, ?_, ?_⟩
  · have wasOpen := stay tx isOpen
    exact (inv.stages tx wasOpen).commits inv.hierarchy commits (unheld tx isOpen)
      fun snapshot carried => fresh _ (inv.seen tx wasOpen snapshot carried)
  · obtain ⟨prepared, source, destination⟩ := known op row
    exact commits.prepared inv.hierarchy (fresh _ source) (fresh _ destination) (prepared ready)
  · exact fun tx isOpen other isOpen' => inv.exclusive tx (stay tx isOpen) other (stay other isOpen')
  · exact fun tx isOpen => (inv.past tx (stay tx isOpen)).trans_le le
  · intro b' member
    rcases commits.rows.stamps b' member with new | ⟨b, old, same⟩
    · exact ⟨new ▸ before, fun tx isOpen same => apart tx isOpen (same.symm.trans new)⟩
    · have := later inv.rows b old
      exact same ▸ this
  · exact fun tx isOpen snapshot carried => later (inv.seen tx (stay tx isOpen) snapshot carried)
  · exact fun op row => ⟨later (known op row).2.1, later (known op row).2.2⟩

theorem Inv.commit_now {db : Tenants} {operations : List MergeOperation}
    (commits : s.db.Commits db s.clock [])
    (recorded : ∀ op ∈ operations, op ∈ s.operations ∨ s.Recordable op) :
    Inv { s.idle with db, operations } :=
  inv.commit commits (fun _ isOpen => isOpen) s.clock_lt_tick.le s.clock_lt_tick (by simp)
    (fun tx isOpen => (inv.past tx isOpen).ne) (fun _ old b row => (old b row).1.ne) recorded

/-- Transactions start, go on or end without a commit. -/
theorem Inv.reopened {open_ : List Tx} {clock : Timestamp} (le : s.clock ≤ clock)
    (nows : ∀ tx ∈ open_, (∃ before ∈ s.open_, before.now = tx.now) ∨ s.clock ≤ tx.now)
    (stages : ∀ tx ∈ open_, tx.stage.Valid s.db)
    (exclusive : Locks.Exclusive Tx.now (fun tx => tx.stage.locks) open_)
    (past : ∀ tx ∈ open_, tx.now < clock)
    (seen : ∀ tx ∈ open_, ∀ snapshot ∈ tx.stage.snapshots, s.Old snapshot.businesses) :
    Inv { s with open_, clock } := by
  have later {rows : List Business} (old : s.Old rows) : Old { s with open_, clock } rows :=
    old.later le nows
  exact ⟨inv.hierarchy, stages, inv.operations, exclusive, past, later inv.rows,
    fun tx isOpen snapshot carried => later (seen tx isOpen snapshot carried),
    fun op row => ⟨later (inv.recorded op row).1, later (inv.recorded op row).2⟩⟩

theorem Inv.shrunk {open_ : List Tx} {clock : Timestamp} (stay : ∀ tx ∈ open_, tx ∈ s.open_)
    (le : s.clock ≤ clock) : Inv { s with open_, clock } :=
  inv.reopened le (fun tx isOpen => .inl ⟨tx, stay tx isOpen, rfl⟩)
    (fun tx isOpen => inv.stages tx (stay tx isOpen))
    (fun tx isOpen other isOpen' => inv.exclusive tx (stay tx isOpen) other (stay other isOpen'))
    (fun tx isOpen => (inv.past tx (stay tx isOpen)).trans_le le) fun tx isOpen =>
      inv.seen tx (stay tx isOpen)

theorem Inv.idle : s.idle.Inv := inv.shrunk (fun _ isOpen => isOpen) s.clock_lt_tick.le

theorem Inv.start {stage : Stage} (valid : stage.Valid s.db) (unlocked : stage.locks = [])
    (seen : ∀ snapshot ∈ stage.snapshots, s.Old snapshot.businesses) : (s.start stage).Inv := by
  have exclusive : Locks.Exclusive Tx.now (fun tx => tx.stage.locks) s.open_ := inv.exclusive
  refine inv.reopened s.clock_lt_tick.le
    (forall_inserted (fun tx isOpen => .inl ⟨tx, isOpen, rfl⟩) (.inr le_rfl))
    (forall_inserted inv.stages valid) (exclusive.begun (by simp [unlocked])) ?_
      (forall_inserted inv.seen seen)
  exact forall_inserted (fun tx isOpen => (inv.past tx isOpen).trans s.clock_lt_tick) s.clock_lt_tick

theorem Inv.startWith {actor business : UUID} {stage : Business → Stage}
    (valid : ∀ b, s.db.loadVisible actor business = .ok b → (stage b).Valid s.db)
    (unlocked : ∀ b, (stage b).locks = []) (unread : ∀ b, (stage b).snapshots = []) :
    (s.startWith actor business stage).Inv := by
  unfold HierarchyState.startWith
  split
  next b visible => exact inv.start (valid b visible) (unlocked b) (by simp [unread])
  next => exact inv.idle

theorem Inv.close (now : Timestamp) : Inv { s with open_ := s.close now } :=
  inv.shrunk (fun _ isOpen => (List.mem_filter.mp isOpen).1) le_rfl

theorem Inv.goOn {tx : Tx} (member : tx ∈ s.open_) {stage : Stage} (goesOn : s.GoesOn tx stage) :
    Inv { s with open_ := updateWhere (·.now == tx.now) (fun _ => ⟨tx.now, stage⟩) s.open_ } := by
  have exclusive : Locks.Exclusive Tx.now (fun tx => tx.stage.locks) s.open_ := inv.exclusive
  refine inv.reopened le_rfl ?_ ?_ (exclusive.advanced member goesOn.locks) ?_ ?_
  · exact Locks.forall_advanced (fun other isOpen _ => .inl ⟨other, isOpen, rfl⟩) (.inl ⟨tx, member, rfl⟩)
  · exact Locks.forall_advanced (fun other isOpen _ => inv.stages other isOpen) goesOn.valid
  · exact Locks.forall_advanced (fun other isOpen _ => inv.past other isOpen) (inv.past tx member)
  · exact Locks.forall_advanced (fun other isOpen _ => inv.seen other isOpen) goesOn.seen

/-- One statement, also when it waits or rolls back. -/
theorem Inv.advance {tx : Tx} (member : tx ∈ s.open_) (conflict : Bool) :
    Inv (match s.statement hashtext tx.now conflict tx.stage with
      | .wait => s
      | .goOn stage => { s with
        open_ := updateWhere (·.now == tx.now) (fun _ => ⟨tx.now, stage⟩) s.open_ }
      | .commit db operations => { s with db, operations, open_ := s.close tx.now }
      | .rollback => { s with open_ := s.close tx.now }) := by
  have leads : s.Leads tx (s.statement hashtext tx.now conflict tx.stage) := inv.leads member conflict
  split
  next => exact inv
  next stage run =>
    rw [run] at leads
    exact inv.goOn member leads
  next db operations run =>
    rw [run] at leads
    obtain ⟨commits, recorded⟩ := leads
    have stay (other : Tx) (isOpen : other ∈ s.close tx.now) : other ∈ s.open_ ∧ other.now ≠ tx.now := by
      simpa [HierarchyState.close] using isOpen
    refine inv.commit commits (fun other isOpen => (stay other isOpen).1) le_rfl
      (inv.past tx member) (fun other isOpen r held taken => ?_)
      (fun other isOpen => (stay other isOpen).2) (fun rows old b row => (old b row).2 tx member)
      recorded
    exact (stay other isOpen).2 (inv.exclusive other (stay other isOpen).1 tx member r held taken)
  next => exact inv.close tx.now

theorem Inv.next (action : HierarchyAction) : (s.next hashtext action).Inv := by
  cases action with
  | createMaster creator id membership name =>
    simp only [HierarchyState.next]
    split
    next db call =>
      have commits : s.db.Commits db s.clock [] := createMaster_commits inv.hierarchy call
      exact inv.commit_now commits fun op row => .inl row
    next => exact inv.idle
  | createSub | move =>
    simp only [HierarchyState.next]
    split
    · exact inv
    · exact inv.startWith (fun b visible => (loadVisible_ok inv.hierarchy visible).2) (fun _ => rfl)
        fun _ => rfl
  | setStatus | delete => exact inv.startWith (fun _ _ => trivial) (fun _ => rfl) fun _ => rfl
  | createMerge id actor sourceRoot destinationParent =>
    simp only [HierarchyState.next]
    split
    next destinationRoot _ _ _ =>
      -- Nothing is recorded of either tenant before the preflight.
      refine inv.commit_now (.refl inv.hierarchy) fun op row => ?_
      rcases mem_inserted.mp row with old | rfl
      · exact .inl old
      · exact .inr ⟨nofun, by simp [HierarchyState.Old]⟩
    next => exact inv.idle
  | preflight actor id =>
    simp only [HierarchyState.next]
    split
    next op found =>
      split
      next holds =>
        simp only [Bool.and_eq_true, beq_iff_eq] at holds
        have known := (mergeAuthorized_some inv.hierarchy holds.2).2.1.1
        exact inv.start known rfl (by simp [snapshots])
      next => exact inv.idle
    next => exact inv.idle
  | cutover actor id =>
    simp only [HierarchyState.next]
    split
    next op found =>
      split
      next holds =>
        simp only [Bool.and_eq_true, beq_iff_eq] at holds
        have row := List.mem_of_find?_eq_some found
        refine inv.start (inv.operations op row holds.2) rfl ?_
        simpa [snapshots] using inv.recorded op row
      next => exact inv.idle
    next => exact inv.idle
  | advance now conflict =>
    simp only [HierarchyState.next]
    split
    next => exact inv
    next tx found =>
      obtain rfl : tx.now = now := by simpa using List.find?_some found
      exact inv.advance (List.mem_of_find?_eq_some found) conflict
  | abort now => exact inv.close now

end

theorem Inv.of_quiet (hierarchy : s.db.Hierarchy) (quiet : s.open_ = [] ∧ s.operations = [])
    (past : ∀ b ∈ s.db.businesses, b.updatedAt < s.clock) : s.Inv := by
  obtain ⟨noTx, noOperation⟩ := quiet
  refine ⟨hierarchy, ?_, ?_, ?_, ?_, fun b row => ⟨past b row, ?_⟩, ?_, ?_⟩
  all_goals simp [noTx, noOperation]

end HierarchyState

open HierarchyState

/-- Whatever the calls and however their statements interleave, the businesses stay a forest that is
no deeper than `maxDepth`, the closure its paths and the tenant of every row the root of its
tree. -/
theorem hierarchy_integrity (hashtext : UUID → Int) {s : HierarchyState}
    (hierarchy : s.db.Hierarchy) (quiet : s.open_ = [] ∧ s.operations = [])
    (past : ∀ b ∈ s.db.businesses, b.updatedAt < s.clock) (actions : List HierarchyAction) :
    Along (next hashtext)
      (fun s action => Acyclic (s.next hashtext action).db.parentOf ∧
        (s.next hashtext action).db.Hierarchy) s actions := by
  have kept (s : HierarchyState) (action : HierarchyAction) (inv : s.Inv) :
      (s.next hashtext action).Inv := inv.next action
  refine Along.of_kept kept (fun s action inv => ?_) (.of_quiet hierarchy quiet past) actions
  have reached := (kept s action inv).hierarchy
  exact ⟨reached.bounded.acyclic, reached⟩

namespace Sample

/-- Before the first business, with one account. -/
def signedUp : HierarchyState where
  db := { Seeds.tables with
    principals := [⟨20, .human 30⟩]
    accounts := [⟨30, "ada@acme.test", some 0, .active, none⟩] }
  operations := []
  open_ := []
  clock := 0

/-- Two tenants: in the first, one child is moved under the other, and the second tenant is merged
below both. The two calls that add a child overlap. -/
def growth : List HierarchyAction :=
  [.createMaster 20 10 40 "Acme", .createMaster 20 50 41 "Bolt",
    .createSub 20 10 11 "East", .createSub 20 10 12 "West",
    .advance 2 false, .advance 3 false, .advance 2 false, .advance 2 false,
    .advance 3 false, .advance 3 false, .advance 3 false,
    .move 20 12 11, .advance 4 false, .advance 4 false, .advance 4 false, .advance 4 false,
    .createMerge 60 20 50 12, .preflight 20 60,
    .advance 6 false, .advance 6 false, .advance 6 false, .advance 6 false,
    .cutover 20 60, .advance 7 false, .advance 7 false, .advance 7 false]

theorem hierarchy_integrity_growth :
    Along (next Int.ofNat) (fun s action =>
      Acyclic (s.next Int.ofNat action).db.parentOf ∧
      (s.next Int.ofNat action).db.Hierarchy) signedUp growth ∧
    ⟨10, 50, 3, 10⟩ ∈ (growth.foldl (next Int.ofNat) signedUp).db.closure := by
  have hierarchy : signedUp.db.Hierarchy := .of_empty rfl rfl rfl
  exact ⟨hierarchy_integrity Int.ofNat hierarchy ⟨rfl, rfl⟩ (by decide) growth, by decide +kernel⟩

end Sample

end Manyforge.Tenancy
