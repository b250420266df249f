import Manyforge.Connectors.Keys
import Manyforge.Lib.Transition
import Mathlib.Data.Finset.Max

/-!
# Concurrent syncs of one issue

Workers that handle events of one issue fetch it at different times and commit in any order. The
upsert writes what was fetched over the ticket and over the sync state, and compares it with
nothing. So the ticket shows the newest of the versions that were written exactly as long as no
worker commits an older version than one that is written already.
-/
namespace Manyforge.Connectors

open Table Transition

/-- The workers on one issue. -/
structure Syncing where
  desk : Desk
  /-- The versions of the issue upstream, the current one last. -/
  versions : List ExternalIssue
  /-- What each worker has fetched and not yet written. -/
  fetched : List (UUID × ExternalIssue)
  /-- The versions that were written, in the order of the commits. -/
  committed : List ExternalIssue

inductive SyncAction where
  /-- The issue changes upstream; `updated_at` grows. -/
  | change (issue : ExternalIssue)
  | fetch (worker : UUID)
  | commit (worker : UUID)

namespace Syncing

variable (lower : String → String) (businessId : UUID) (link : Link)

def fetched? (s : Syncing) (worker : UUID) : Option ExternalIssue :=
  (s.fetched.find? (·.1 == worker)).map (·.2)

def next (s : Syncing) : SyncAction → Syncing
  | .change issue =>
    if s.versions.all (decide <| ·.updatedAt < issue.updatedAt) then
      { s with versions := s.versions ++ [issue] }
    else s
  | .fetch worker =>
    match s.versions.getLast? with
    | none => s
    | some issue => { s with fetched := s.fetched.filter (·.1 != worker) ++ [(worker, issue)] }
  | .commit worker =>
    match s.fetched? worker with
    | none => s
    | some issue =>
      { s with
        desk := (s.desk.handle lower businessId link issue).1
        fetched := s.fetched.filter (·.1 != worker)
        committed := s.committed ++ [issue] }

/-- The ticket of the issue has the fields of this version, and its sync state is that of this
version. -/
def Shows (d : Desk) (issue : ExternalIssue) : Prop :=
  ∃ t ∈ d.tickets, t.link = some link ∧ issue.onto lower t = t ∧
    ∃ state ∈ d.syncStates, state.ticketId = t.id ∧ state.snapshot = issue.snapshot ∧
      state.externalUpdatedAt = issue.updatedAt
  deriving Decidable

/-- The newest of the versions that were written is the one shown. -/
def UpToDate (s : Syncing) : Prop :=
  ∀ issue ∈ s.committed, (∀ other ∈ s.committed, other.updatedAt ≤ issue.updatedAt) →
    Shows lower link s.desk issue
  deriving Decidable

/-- No worker commits an older version than one that is written already. -/
def NotOlder (s : Syncing) : SyncAction → Prop
  | .commit worker =>
  ∀ issue ∈ s.fetched? worker, ∀ other ∈ s.committed, other.updatedAt ≤ issue.updatedAt
  | _ => True

instance (s : Syncing) (action : SyncAction) : Decidable (NotOlder s action) := by
  cases action <;> dsimp only [NotOlder] <;> infer_instance

structure Inv (s : Syncing) : Prop where
  keyed : s.desk.Keyed
  grow : UniqueOn ExternalIssue.updatedAt s.versions
  fetched : ∀ pair ∈ s.fetched, pair.2 ∈ s.versions
  committed : ∀ issue ∈ s.committed, issue ∈ s.versions

variable {lower businessId link}

/-! ### The upsert -/

theorem mem_upsertSyncState (new : SyncState) (states : List SyncState) :
    ∃ state ∈ upsertSyncState new states, state.ticketId = new.ticketId ∧
      state.snapshot = new.snapshot ∧ state.externalUpdatedAt = new.externalUpdatedAt := by
  unfold upsertSyncState
  split
  next known =>
    obtain ⟨old, isState, same⟩ := List.any_eq_true.mp known
    exact ⟨_, updated_mem isState same, by simpa using same, rfl, rfl⟩
  next => exact ⟨new, List.mem_concat_self, rfl, rfl, rfl⟩

theorem shows_handle (d : Desk) (issue : ExternalIssue) :
    Shows lower link (d.handle lower businessId link issue).1 issue := by
  obtain ⟨_, _, imported, -⟩ := d.handle_imported lower businessId link issue
  rw [imported.desk]
  simp only [Desk.syncInboundExternalIssue]
  split
  next t found =>
    have isLink : t.link = some link := by simpa using List.find?_some found
    refine ⟨issue.onto lower t, updated_mem (List.mem_of_find?_eq_some found) (by simp [isLink]),
      isLink, rfl, ?_⟩
    exact mem_upsertSyncState ⟨t.id, link, issue.snapshot, issue.updatedAt⟩ d.syncStates
  next =>
    refine ⟨_, List.mem_concat_self, rfl, rfl, ?_⟩
    exact mem_upsertSyncState ⟨_, link, issue.snapshot, issue.updatedAt⟩ d.syncStates

theorem Shows.updatedAt_eq {d : Desk} (keyed : d.Keyed) {a b : ExternalIssue}
    (first : Shows lower link d a) (second : Shows lower link d b) : a.updatedAt = b.updatedAt := by
  obtain ⟨t, isTicket, isLink, -, state, isState, owner, -, time⟩ := first
  obtain ⟨t', isTicket', isLink', -, state', isState', owner', -, time'⟩ := second
  obtain rfl := keyed.ticketLinks.eq_of_key isTicket isTicket' isLink isLink'
  obtain rfl := keyed.syncTickets.eq_of_key isState isState' (owner.trans owner'.symm)
  exact time.symm.trans time'

/-! ### Steps -/

variable {s : Syncing}

theorem fetched?_some {worker : UUID} {issue : ExternalIssue}
    (found : s.fetched? worker = some issue) : (worker, issue) ∈ s.fetched := by
  obtain ⟨⟨w, i⟩, isFetched, rfl⟩ := Option.map_eq_some_iff.mp found
  obtain rfl : w = worker := by simpa using List.find?_some isFetched
  exact List.mem_of_find?_eq_some isFetched

theorem Inv.next (inv : s.Inv) (action : SyncAction) :
    (next lower businessId link s action).Inv := by
  cases action with
  | change issue =>
    simp only [Syncing.next]
    split
    next later =>
      refine ⟨inv.keyed, inv.grow.append_fresh fun old member => ?_, fun pair member => ?_,
        fun old member => ?_⟩
      · have before := List.all_eq_true.mp later old member
        exact ne_of_lt (of_decide_eq_true before)
      · exact List.mem_append_left _ (inv.fetched pair member)
      · exact List.mem_append_left _ (inv.committed old member)
    next => exact inv
  | fetch worker =>
    simp only [Syncing.next]
    split
    next => exact inv
    next issue last =>
    refine { inv with fetched := fun pair member => ?_ }
    rcases mem_inserted.mp member with old | rfl
    · exact inv.fetched pair (List.mem_filter.mp old).1
    · exact List.mem_of_getLast? last
  | commit worker =>
    simp only [Syncing.next]
    split
    next => exact inv
    next issue found =>
    refine ⟨inv.keyed.handle lower businessId link issue, inv.grow, fun pair member =>
      ?_, fun old member => ?_⟩
    · exact inv.fetched pair (List.mem_filter.mp member).1
    · rcases mem_inserted.mp member with earlier | rfl
      · exact inv.committed old earlier
      · exact inv.fetched _ (fetched?_some found)

/-- A commit shows the newest version exactly when it is not older. -/
theorem Inv.upToDate_iff (inv : s.Inv) (now : UpToDate lower link s) (action : SyncAction) :
    UpToDate lower link (Syncing.next lower businessId link s action) ↔ NotOlder s action := by
  cases action with
  | change issue | fetch worker =>
    refine iff_of_true ?_ trivial
    simp only [Syncing.next]
    split <;> exact now
  | commit worker =>
    have kept : (Syncing.next lower businessId link s (.commit worker)).Inv := inv.next _
    simp only [Syncing.next, NotOlder] at kept ⊢
    split at kept
    next none => exact iff_of_true now (by simp [none])
    next issue found =>
    have shown : Shows lower link (s.desk.handle lower businessId link issue).1 issue :=
      shows_handle s.desk issue
    have isCommitted : issue ∈ s.committed ++ [issue] := List.mem_concat_self
    constructor
    · intro after fetched isFetched other earlier
      obtain rfl : issue = fetched := Option.some.inj (found.symm.trans isFetched)
      -- The newest version is shown, and so is the one just written.
      obtain ⟨newest, isNewest, latest⟩ :=
        (s.committed ++ [issue]).toFinset.exists_max_image (·.updatedAt) ⟨issue, by simp⟩
      simp only [List.mem_toFinset] at isNewest latest
      have same := (after newest isNewest latest).updatedAt_eq kept.keyed shown
      exact (latest other (List.mem_append_left _ earlier)).trans same.le
    · intro notOlder newest isNewest latest
      have same : newest.updatedAt = issue.updatedAt := by
        refine le_antisymm ?_ (latest issue isCommitted)
        rcases List.mem_append.mp isNewest with earlier | new
        · exact notOlder issue found newest earlier
        · rw [List.mem_singleton.mp new]
      rwa [inv.grow.eq_of_key (kept.committed newest isNewest) (kept.committed issue isCommitted) same]

/-! ### Runs -/

/-- The ticket shows the newest version that was written, at every step of a run, exactly when no
commit of the run is of an older version than one that is written already. -/
theorem inbound_iff (lower : String → String) (businessId : UUID) (link : Link) {d : Desk}
    (keyed : d.Keyed) (actions : List SyncAction) :
    Along (next lower businessId link)
        (fun s action => UpToDate lower link (next lower businessId link s action))
          ⟨d, [], [], []⟩ actions ↔
      Along (next lower businessId link) NotOlder ⟨d, [], [], []⟩ actions := by
  have start : Inv ⟨d, [], [], []⟩ := ⟨keyed, List.nodup_nil, nofun, nofun⟩
  exact Along.iff_of_step (UpToDate lower link)
    (fun s action inv now => Inv.upToDate_iff inv now action)
    (fun s action inv => Inv.next inv action) start nofun

end Syncing

open Syncing

namespace Sample

/-- Worker 1 fetches the open issue, worker 2 the closed one. -/
def twoWorkers : List SyncAction :=
  [.change (issueAt "open" 1), .fetch 1, .change (issueAt "done" 2), .fetch 2]

theorem workers_in_order :
    Desk.Keyed linkedDesk ∧
      Along (next id 7 ⟨5, "P-1"⟩)
        (fun s action => UpToDate id ⟨5, "P-1"⟩ (next id 7 ⟨5, "P-1"⟩ s action))
        ⟨linkedDesk, [], [], []⟩ (twoWorkers ++ [.commit 1, .commit 2]) :=
  ⟨by decide +kernel,
    (inbound_iff id 7 ⟨5, "P-1"⟩ (by decide +kernel) _).mpr (by decide +kernel)⟩

/-- Worker 2 commits first, and then worker 1 opens the ticket again. -/
theorem older_wins :
    Desk.Keyed linkedDesk ∧
      ¬ Along (next id 7 ⟨5, "P-1"⟩)
        (fun s action => UpToDate id ⟨5, "P-1"⟩ (next id 7 ⟨5, "P-1"⟩ s action))
        ⟨linkedDesk, [], [], []⟩ (twoWorkers ++ [.commit 2, .commit 1]) := by
  decide +kernel

end Sample

end Manyforge.Connectors
