import Mathlib.Data.Finset.Max
import Mathlib.Data.Prod.Lex
import Mathlib.Data.String.Basic
import Mathlib.Tactic.Linarith
import Manyforge.Text
import Manyforge.Lib.Keyset
import Manyforge.Lib.Transition

/-!
# Reconcile passes

A pass asks for the issues updated since the last pass was stamped, page by page, queues an inbound
sync for each and stamps the connector. Upstream is a set of updates with their times; a page is
answered from the updates up to its own time, oldest first, and the next page goes on after the last
issue of the one before. The issues here are those the search is scoped to (`project_key`).

The lower bound is a number of minutes before the query, from the last stamp to the start of the
listing and `reconcileOverlapMinutes` more. But the stamp is set at the end of a pass, after its
queries; the bound moves on with each page; and a listing stops at `maxSearchPages`. Only the
overlap makes up for the first two.
-/
namespace Manyforge.Connectors

open Table Transition

structure IssueUpdate where
  time : Timestamp
  issue : String
  deriving DecidableEq

/-- `ORDER BY updated ASC`; the key decides between issues updated at the same time. -/
instance : LinearOrder IssueUpdate :=
  LinearOrder.lift' (fun u : IssueUpdate => toLex (u.time, u.issue)) fun u v same => by
    cases u; cases v; simpa using same

def searchPageSize : Nat := 100

def maxSearchPages : Nat := 1000

def reconcileOverlapMinutes : Int := 2

def minute : Timestamp := 60000000

namespace Reconcile

variable (updates : List IssueUpdate)

/-- The last update of its issue at the time `now`. -/
def latest (now : Timestamp) (u : IssueUpdate) : Bool :=
  u.time ≤ now && updates.all fun other =>
    other.issue != u.issue || now < other.time || other.time ≤ u.time

/-- The issues as a search finds them: each once, under its last update. -/
def issuesAt (now : Timestamp) : List IssueUpdate := (updates.filter (latest updates now)).dedup

/-- The lower bound of a search. -/
inductive Bound where
  /-- `updated >= "1970-01-01"`, which holds of every issue. -/
  | ancient
  /-- `updated >= "-Nm"`, by the clock of the query. -/
  | last (minutes : Int)

def Bound.reaches : Bound → (now time : Timestamp) → Bool
  | .ancient, _, _ => true
  | .last minutes, now, time => now - minutes * minute ≤ time

def updatedBound (since : Option Timestamp) (now : Timestamp) : Bound :=
  match since with
  | none => .ancient
  | some since =>
    .last (max ((now - since).tdiv minute + reconcileOverlapMinutes) reconcileOverlapMinutes)

/-- When the steps of a pass happen: the list of the connectors that are due, the start of the
listing, the query of each page, and the transaction that queues the syncs and stamps the
connector. -/
structure Pass where
  /-- "Sync now" pulls everything. -/
  full : Bool
  (start asked : Timestamp)
  query : Nat → Timestamp
  stamped : Timestamp
  start_le : start ≤ asked
  asked_le : asked ≤ query 0
  query_mono : ∀ ⦃i j : Nat⦄, i ≤ j → query i ≤ query j
  query_le : ∀ k, query k ≤ stamped

def listUpdatedSince (since : Option Timestamp) (p : Pass) : List IssueUpdate :=
  Keyset.listing id searchPageSize
    (fun k u => (updatedBound since p.asked).reaches (p.query k) u.time)
    (fun k => issuesAt updates (p.query k)) (maxSearchPages - 1) 0 none

variable (staleAfter : Timestamp)

/-- `list_connectors_due_for_reconcile`. -/
def due (now : Timestamp) (lastReconciledAt : Option Timestamp) : Bool :=
  lastReconciledAt.all fun last => last < now - staleAfter

/-- Whether the pass gets to the connector, after the last one that did. -/
def runs (last : Option Pass) (p : Pass) : Bool :=
  p.full || due staleAfter p.start (last.map (·.stamped))

/-- The last pass, whose stamp `last_reconciled_at` is. -/
def passed (last : Option Pass) (p : Pass) : Option Pass :=
  if runs staleAfter last p then some p else last

def since (last : Option Pass) (p : Pass) : Option Timestamp :=
  if p.full then none else last.map (·.stamped)

/-- What a pass has queued. -/
structure Done where
  start : Timestamp
  issues : List String

structure Reconciled where
  last : Option Pass
  done : List Done

def reconcileConnector (s : Reconciled) (p : Pass) : Reconciled :=
  ⟨some p, s.done ++ [⟨p.start, (listUpdatedSince updates (since s.last p) p).map (·.issue)⟩]⟩

def next (s : Reconciled) (p : Pass) : Reconciled :=
  if runs staleAfter s.last p then reconcileConnector updates s p else s

def start : Reconciled := ⟨none, []⟩

/-- Every update up to the start of a pass is queued by a pass that started after it. -/
def Complete (done : List Done) : Prop :=
  ∀ d ∈ done, ∀ u ∈ updates, u.time ≤ d.start → ∃ e ∈ done, u.time ≤ e.start ∧ u.issue ∈ e.issues
  deriving Decidable

/-- Passes do not overlap. -/
def InOrder (last : Option Pass) (p : Pass) : Prop := ∀ q ∈ last, q.stamped ≤ p.start
  deriving Decidable

/-- At most `n` updates fall between the bound of the first page and the end of the pass. -/
def Fits (n : Nat) (last : Option Pass) (p : Pass) : Prop :=
  runs staleAfter last p = true →
    updates.countP (fun u =>
      (updatedBound (since last p) p.asked).reaches (p.query 0) u.time && u.time ≤ p.stamped) ≤ n

def pagesFor (n : Nat) : Nat := (n + searchPageSize - 1) / searchPageSize

/-- The bound of each page that `n` issues can fill is not after the first moment after the start of
the last pass. -/
def Timely (n : Nat) (last : Option Pass) (p : Pass) : Prop :=
  runs staleAfter last p = true → ∀ q ∈ last, q.start < p.start →
    ∀ k < pagesFor n, (updatedBound (since last p) p.asked).reaches (p.query k) (q.start + 1) = true

instance (n : Nat) (last : Option Pass) (p : Pass) : Decidable (Timely staleAfter n last p) :=
  inferInstanceAs (Decidable (_ → ∀ q ∈ last, _ → ∀ k < pagesFor n, _))

variable {updates staleAfter}

/-! ### Searches -/

variable {u : IssueUpdate} {n : Nat} {p : Pass}

theorem le_of_time_le {v : IssueUpdate} (same : u.issue = v.issue) (le : u.time ≤ v.time) :
    u ≤ v := by
  change toLex (u.time, u.issue) ≤ toLex (v.time, v.issue)
  rw [Prod.Lex.toLex_le_toLex]
  rcases le.lt_or_eq with lt | eq
  · exact .inl lt
  · exact .inr ⟨eq, same.le⟩

theorem mem_issuesAt {now : Timestamp} :
    u ∈ issuesAt updates now ↔
      u ∈ updates ∧ u.time ≤ now ∧ ∀ v ∈ updates, v.issue = u.issue → v.time ≤ now → v.time ≤ u.time := by
  have isLatest : latest updates now u = true ↔
      u.time ≤ now ∧ ∀ v ∈ updates, v.issue = u.issue → v.time ≤ now → v.time ≤ u.time := by
    simp only [latest, Bool.and_eq_true, decide_eq_true_eq, List.all_eq_true, Bool.or_eq_true, bne_iff_ne]
    grind
  rw [issuesAt, List.mem_dedup, List.mem_filter, isLatest]

theorem exists_issuesAt {now : Timestamp} (isUpdate : u ∈ updates) (seen : u.time ≤ now) :
    ∃ v ∈ issuesAt updates now, v.issue = u.issue ∧ u.time ≤ v.time := by
  let past := (updates.filter fun v => v.issue = u.issue ∧ v.time ≤ now).toFinset
  have mem_past {v : IssueUpdate} : v ∈ past ↔ v ∈ updates ∧ v.issue = u.issue ∧ v.time ≤ now := by
    simp [past]
  obtain ⟨v, isV, greatest⟩ :=
    past.exists_max_image (·.time) ⟨u, mem_past.mpr ⟨isUpdate, rfl, seen⟩⟩
  obtain ⟨isUpdate', same, seen'⟩ := mem_past.mp isV
  refine ⟨v, mem_issuesAt.mpr ⟨isUpdate', seen', ?_⟩, same,
    greatest u (mem_past.mpr ⟨isUpdate, rfl, seen⟩)⟩
  intro w isUpdate'' same' seen''
  exact greatest w (mem_past.mpr ⟨isUpdate'', same'.trans same, seen''⟩)

theorem Bound.reaches_of_le {b : Bound} {now now' time time' : Timestamp}
    (reaches : b.reaches now time = true)
    (earlier : now' ≤ now) (later : time ≤ time') : b.reaches now' time' = true := by
  cases b with
  | ancient => rfl
  | last minutes =>
    simp only [Bound.reaches, decide_eq_true_eq] at reaches ⊢
    linarith

theorem lt_pagesFor {k : Nat} : k < pagesFor n ↔ searchPageSize * k < n := by
  simp only [pagesFor, searchPageSize]
  omega

/-! ### A listing -/

section Listing

variable {lower : Option Timestamp} {p : Pass}

theorem mem_window {u : IssueUpdate} (listed : u ∈ listUpdatedSince updates lower p) :
    u ∈ updates ∧ (updatedBound lower p.asked).reaches (p.query 0) u.time = true ∧
      u.time ≤ p.stamped := by
  obtain ⟨-, k, -, found, reached⟩ := Keyset.mem_listing listed
  obtain ⟨isUpdate, seen, -⟩ := mem_issuesAt.mp found
  exact ⟨isUpdate, Bound.reaches_of_le reached (p.query_mono (Nat.zero_le k)) le_rfl,
    seen.trans (p.query_le k)⟩

theorem nodup_listUpdatedSince : (listUpdatedSince updates lower p).Nodup := by
  have unique (k : Nat) : UniqueOn id (issuesAt updates (p.query k)) := by
    rw [UniqueOn, List.map_id]
    exact List.nodup_dedup _
  rw [← List.map_id (listUpdatedSince updates lower p)]
  exact Keyset.unique_listing unique _ _ _

/-- An issue that is found at every query is listed, or it has fallen behind the bound at one of
them, or it is beyond the last page; the pages before that are full. -/
theorem listed_or_left_out {row : Nat → IssueUpdate} (up : ∀ k, row k ≤ row (k + 1))
    (found : ∀ k, row k ∈ issuesAt updates (p.query k)) :
    (∃ j, row j ∈ listUpdatedSince updates lower p) ∨
      ∃ j ≤ maxSearchPages, searchPageSize * j ≤ (listUpdatedSince updates lower p).length ∧
        (∀ i < j, (updatedBound lower p.asked).reaches (p.query i) (row i).time = true) ∧
        (j < maxSearchPages → (updatedBound lower p.asked).reaches (p.query j) (row j).time = false) := by
  have covers := @Keyset.listing_covers _ _ _ id searchPageSize
    (fun k (u : IssueUpdate) => (updatedBound lower p.asked).reaches (p.query k) u.time)
    (fun k => issuesAt updates (p.query k)) (by decide) row up (maxSearchPages - 1) 0 none rfl
  simp only [List.map_id, id_eq, Nat.zero_add] at covers
  refine covers.imp_right ?_
  rintro ⟨j, le, long, present, gone⟩
  refine ⟨j, le, long, fun i before => (present i before).2, fun before => ?_⟩
  exact Bool.eq_false_iff.mpr fun reached => gone (by omega) ⟨found j, reached⟩

/-- An issue updated before the pass is listed, when the window holds `n` updates at most and the
bound of each page that they can fill reaches the update. -/
theorem listed_of_timely {n : Nat} (positive : 0 < n) (below : n ≤ searchPageSize * maxSearchPages)
    (fits : updates.countP
      (fun u => (updatedBound lower p.asked).reaches (p.query 0) u.time && u.time ≤ p.stamped) ≤ n)
    {u : IssueUpdate} (isUpdate : u ∈ updates) (before : u.time ≤ p.start)
    (reached : ∀ k < pagesFor n, (updatedBound lower p.asked).reaches (p.query k) u.time = true) :
    u.issue ∈ (listUpdatedSince updates lower p).map (·.issue) := by
  have seen (k : Nat) : u.time ≤ p.query k :=
    before.trans (p.start_le.trans (p.asked_le.trans (p.query_mono (Nat.zero_le k))))
  choose row found sameIssue since using fun k => exists_issuesAt isUpdate (seen k)
  have up (k : Nat) : row k ≤ row (k + 1) := by
    obtain ⟨isRow, past, -⟩ := mem_issuesAt.mp (found k)
    have same := (sameIssue k).trans (sameIssue (k + 1)).symm
    apply le_of_time_le same
    exact (mem_issuesAt.mp (found (k + 1))).2.2 _ isRow same (past.trans (p.query_mono (Nat.le_succ k)))
  by_contra unlisted
  have notListed (k : Nat) : row k ∉ listUpdatedSince updates lower p := fun listed =>
    unlisted (List.mem_map.mpr ⟨row k, listed, sameIssue k⟩)
  obtain ⟨j, le, long, present, gone⟩ :=
    (listed_or_left_out up found).resolve_left (not_exists.mpr notListed)
  -- The listed issues and the one left out are in the window, so `j` pages are fewer than `n`
  -- updates.
  have short : searchPageSize * j < n := by
    cases j with
    | zero => exact positive
    | succ i =>
      have more : (row i :: listUpdatedSince updates lower p).Nodup :=
        List.nodup_cons.mpr ⟨notListed i, nodup_listUpdatedSince⟩
      have within : row i :: listUpdatedSince updates lower p ⊆ updates.filter
          (fun u => (updatedBound lower p.asked).reaches (p.query 0) u.time && u.time ≤ p.stamped) := by
        intro v member
        have facts : v ∈ updates ∧ (updatedBound lower p.asked).reaches (p.query 0) v.time = true ∧
            v.time ≤ p.stamped := by
          rcases List.mem_cons.mp member with rfl | listed
          · obtain ⟨isRow, past, -⟩ := mem_issuesAt.mp (found i)
            have reached := present i (Nat.lt_succ_self i)
            exact ⟨isRow, Bound.reaches_of_le reached (p.query_mono (Nat.zero_le i)) le_rfl,
              past.trans (p.query_le i)⟩
          · exact mem_window listed
        simpa using facts
      have count := (List.subperm_of_subset more within).length_le
      rw [← List.countP_eq_length_filter, List.length_cons] at count
      omega
  have onPage : j < maxSearchPages := by
    simp only [searchPageSize] at short below
    omega
  have stillReached := Bound.reaches_of_le (reached j (lt_pagesFor.mpr short)) le_rfl (since j)
  simp [gone onPage] at stillReached

theorem length_listUpdatedSince_le {k : Nat}
    (behind : ∀ u ∈ updates, (updatedBound lower p.asked).reaches (p.query k) u.time = false) :
    (listUpdatedSince updates lower p).length ≤ searchPageSize * k := by
  apply Keyset.length_listing_le_of_none
  intro j after u found
  apply Bool.eq_false_iff.mpr
  intro reached
  have earlier := Bound.reaches_of_le reached (p.query_mono (by omega : k ≤ j)) le_rfl
  simp [behind u (mem_issuesAt.mp found).1] at earlier

end Listing

/-! ### Bursts of updates -/

def burstKey (i : Nat) : String := String.ofList (List.replicate i 'P')

def burst (n : Nat) (time : Timestamp) : List IssueUpdate := (List.range n).map fun i =>
  ⟨time, burstKey i⟩

theorem time_of_mem_burst {time : Timestamp} (member : u ∈ burst n time) : u.time = time := by
  obtain ⟨i, -, rfl⟩ := List.mem_map.mp member
  rfl

theorem exists_unlisted {time : Timestamp} {listed : List IssueUpdate} (few : listed.length < n) :
    ∃ u ∈ burst n time, u.issue ∉ listed.map (·.issue) := by
  by_contra none_left
  have subset : (burst n time).map (·.issue) ⊆ listed.map (·.issue) := by
    intro issue member
    obtain ⟨u, isUpdate, rfl⟩ := List.mem_map.mp member
    exact not_not.mp fun unlisted => none_left ⟨u, isUpdate, unlisted⟩
  have distinct : ((burst n time).map (·.issue)).Nodup := by
    rw [burst, List.map_map]
    refine List.Nodup.map ?_ List.nodup_range
    intro i j same
    simpa [burstKey] using congrArg String.length same
  have enough := (List.subperm_of_subset distinct subset).length_le
  simp only [burst, List.length_map, List.length_range] at enough
  omega

theorem burst_cut_off {lower : Option Timestamp} (many : searchPageSize * maxSearchPages < n)
    (time : Timestamp) :
    ∃ u ∈ burst n time, u.issue ∉ (listUpdatedSince (burst n time) lower p).map (·.issue) := by
  apply exists_unlisted
  exact (Keyset.length_listing_le _ _ _).trans_lt many

theorem burst_behind {lower : Option Timestamp} {k : Nat} {time : Timestamp}
    (behind : (updatedBound lower p.asked).reaches (p.query k) time = false)
    (many : searchPageSize * k < n) :
    ∃ u ∈ burst n time, u.issue ∉ (listUpdatedSince (burst n time) lower p).map (·.issue) := by
  apply exists_unlisted
  refine (length_listUpdatedSince_le fun u isUpdate => ?_).trans_lt many
  rw [time_of_mem_burst isUpdate]
  exact behind

/-! ### Passes -/

theorem last_next (s : Reconciled) (p : Pass) :
    (next updates staleAfter s p).last = passed staleAfter s.last p := by
  simp only [next, passed]
  split
  · rfl
  · rfl

/-- The last pass started after all others. -/
def Ranked (s : Reconciled) : Prop := ∀ d ∈ s.done, ∃ q ∈ s.last, d.start ≤ q.start

theorem Ranked.next {s : Reconciled} (ranked : Ranked s) (inOrder : InOrder s.last p) :
    Ranked (next updates staleAfter s p) := by
  simp only [Reconcile.next]
  split
  next =>
    intro d isDone
    rcases List.mem_append.mp isDone with isOld | isNew
    · obtain ⟨q, isLast, le⟩ := ranked d isOld
      have ended : q.start ≤ q.stamped := q.start_le.trans (q.asked_le.trans (q.query_le 0))
      exact ⟨p, rfl, le.trans (ended.trans (inOrder q isLast))⟩
    · exact ⟨p, rfl, by rw [List.mem_singleton.mp isNew]⟩
  next => exact ranked

/-- The last pass is among those done, and nothing is missed so far. -/
structure Inv (updates : List IssueUpdate) (s : Reconciled) : Prop where
  complete : Complete updates s.done
  lastDone : ∀ q ∈ s.last, ∃ d ∈ s.done, d.start = q.start

/-- A timely pass that fits misses no update. -/
theorem Inv.next (positive : 0 < n) (below : n ≤ searchPageSize * maxSearchPages) {s : Reconciled}
    (inv : Inv updates s) (fits : Fits updates staleAfter n s.last p)
    (timely : Timely staleAfter n s.last p) : Inv updates (next updates staleAfter s p) := by
  simp only [Reconcile.next]
  split
  next ran =>
    refine ⟨?_, ?_⟩
    · intro d isDone u isUpdate before
      have old (d : Done) (isOld : d ∈ s.done) (before : u.time ≤ d.start) :
          ∃ e ∈ (reconcileConnector updates s p).done, u.time ≤ e.start ∧ u.issue ∈ e.issues := by
        obtain ⟨e, isDone, rest⟩ := inv.complete d isOld u isUpdate before
        exact ⟨e, List.mem_append_left _ isDone, rest⟩
      rcases mem_inserted.mp isDone with isOld | rfl
      · exact old d isOld before
      · -- Updates up to the start of the last pass are queued; the bounds reach the later ones.
        by_cases earlier : ∃ q ∈ s.last, u.time ≤ q.start
        · obtain ⟨q, isLast, le⟩ := earlier
          obtain ⟨d, isDone, same⟩ := inv.lastDone q isLast
          exact old d isDone (same ▸ le)
        · refine ⟨_, isDone, before, listed_of_timely positive below (fits ran) isUpdate before ?_⟩
          intro k onPage
          cases isLast : s.last with
          | none => simp [since, updatedBound, Bound.reaches]
          | some q =>
            have after : q.start < u.time := not_le.mp fun le => earlier ⟨q, isLast, le⟩
            have reached := timely ran q isLast (after.trans_le before) k onPage
            rw [isLast] at reached
            exact Bound.reaches_of_le reached le_rfl after
    · rintro q ⟨⟩
      exact ⟨_, List.mem_concat_self, rfl⟩
  next => exact inv

theorem fits_of_length_le (short : updates.length ≤ n) (last : Option Pass) (p : Pass) :
    Fits updates staleAfter n last p := fun _ => List.countP_le_length.trans short

/-- A pass that starts later than the last one lists every update in between, if nothing is
missed. -/
theorem listed_of_complete {s : Reconciled} (ranked : Ranked s)
    (ran : runs staleAfter s.last p = true)
    (complete : Complete updates (next updates staleAfter s p).done) (isUpdate : u ∈ updates)
    (after : ∀ q ∈ s.last, q.start < u.time) (before : u.time ≤ p.start) :
    u.issue ∈ (listUpdatedSince updates (since s.last p) p).map (·.issue) := by
  rw [next, if_pos ran] at complete
  obtain ⟨e, isDone, le, queued⟩ :=
    complete _ List.mem_concat_self u isUpdate before
  rcases List.mem_append.mp isDone with isOld | isNew
  · obtain ⟨q, isLast, le'⟩ := ranked e isOld
    exact absurd (le.trans le') (not_le.mpr (after q isLast))
  · rwa [List.mem_singleton.mp isNew] at queued

theorem first_pass_cut_off (n : Nat) (many : searchPageSize * maxSearchPages < n) (p : Pass) :
    ¬ Complete (burst n p.start) (next (burst n p.start) staleAfter start p).done := by
  intro complete
  obtain ⟨u, isUpdate, unlisted⟩ := burst_cut_off many p.start
  have ranked : Ranked start := List.forall_mem_nil _
  apply unlisted
  exact listed_of_complete ranked (by simp [start, runs, due]) complete isUpdate (by simp [start])
    (time_of_mem_burst isUpdate).le

/-! ### Runs -/

theorem along_last {passes : List Pass} {cond : Option Pass → Pass → Prop} :
    Along (next updates staleAfter) (fun s p => cond s.last p) start passes ↔
      Along (passed staleAfter) cond none passes :=
  Along.proj (fun s p => last_next s p)

section Runs

variable {passes : List Pass} {n : Nat}

theorem listed_along (inOrder : Along (passed staleAfter) InOrder none passes)
    (short : updates.length ≤ n)
    (complete : ∀ updates, Along (passed staleAfter) (Fits updates staleAfter n) none passes →
      Along (next updates staleAfter) (fun s p =>
        Complete updates (next updates staleAfter s p).done) start passes)
    {before after : List Pass} {p : Pass} (split : passes = before ++ p :: after)
    (ran : runs staleAfter (before.foldl (passed staleAfter) none) p = true) {u : IssueUpdate}
    (isUpdate : u ∈ updates)
    (since_last : ∀ q ∈ before.foldl (passed staleAfter) none, q.start < u.time)
    (past : u.time ≤ p.start) :
    u.issue ∈ (listUpdatedSince updates (since (before.foldl (passed staleAfter) none) p) p).map
      (·.issue) := by
  have fits : Along (passed staleAfter) (Fits updates staleAfter n) none passes :=
    Along.iff_forall.mpr fun _ p _ _ => fits_of_length_le short _ p
  have ranked : Along (next updates staleAfter) (fun s _ => Ranked s) start passes :=
    Along.of_invariant (fun _ _ ranked inOrder => ranked.next inOrder) (fun _ _ ranked _ => ranked)
      (List.forall_mem_nil _) (along_last.mpr inOrder)
  have isLast : (before.foldl (next updates staleAfter) start).last =
      before.foldl (passed staleAfter) none :=
    (List.foldl_hom _ fun s p => (last_next s p).symm).symm
  rw [← isLast] at ran since_last ⊢
  exact listed_of_complete (Along.iff_forall.mp ranked before p after split) ran
    (Along.iff_forall.mp (complete updates fits) before p after split) isUpdate since_last past

/-- With at most `n` updates in the window of each pass, nothing is ever missed, whatever is updated
when, exactly if the pages of a listing hold `n` issues and the bound of each page that `n` issues
can fill reaches back to the start of the last pass. -/
theorem nothing_missed_iff (inOrder : Along (passed staleAfter) InOrder none passes)
    (positive : 0 < n) :
    (∀ updates, Along (passed staleAfter) (Fits updates staleAfter n) none passes →
        Along (next updates staleAfter) (fun s p =>
          Complete updates (next updates staleAfter s p).done) start
          passes) ↔
      (passes ≠ [] → n ≤ searchPageSize * maxSearchPages) ∧
        Along (passed staleAfter) (Timely staleAfter n) none passes := by
  constructor
  · intro complete
    constructor
    · -- The first pass has to list a burst of `n` issues.
      intro some_pass
      obtain ⟨p, rest, rfl⟩ := List.exists_cons_of_ne_nil some_pass
      by_contra many
      obtain ⟨u, isUpdate, unlisted⟩ := burst_cut_off (not_le.mp many) p.start
      have time := time_of_mem_burst isUpdate
      apply unlisted
      exact listed_along inOrder (by simp [burst]) complete (List.nil_append _).symm
        (by simp [runs, due]) isUpdate
        (by simp) time.le
    · -- A pass has to list a burst right after the start of the last one.
      rw [Along.iff_forall]
      intro before p after split ran q isLast later k onPage
      by_contra behind
      obtain ⟨u, isUpdate, unlisted⟩ :=
        burst_behind (Bool.eq_false_iff.mpr behind) (lt_pagesFor.mp onPage)
      have time := time_of_mem_burst isUpdate
      apply unlisted
      refine listed_along inOrder (by simp [burst]) complete split ran isUpdate ?_ (time ▸ later)
      intro q' isLast'
      obtain rfl := Option.mem_unique isLast isLast'
      rw [time]
      exact Int.lt_succ _
  · rintro ⟨below, timely⟩ updates fits
    cases passes with
    | nil => trivial
    | cons first rest =>
      have below := below (List.cons_ne_nil _ _)
      have first : Inv updates start := ⟨List.forall_mem_nil _, by simp [start]⟩
      exact Along.of_invariant (fun _ _ inv cond => inv.next positive below cond.1 cond.2)
        (fun _ _ inv cond => (inv.next positive below cond.1 cond.2).complete) first
        (along_last.mpr (fits.and timely))

end Runs

end Reconcile

namespace Sample

open Reconcile

/-- A pass that queries at `start` and stamps `took` later. -/
def passAt (start : Timestamp) (took : Nat) : Reconcile.Pass where
  full := false
  start := start
  asked := start
  query := fun _ => start
  stamped := start + took
  start_le := le_rfl
  asked_le := le_rfl
  query_mono := fun _ _ _ => le_rfl
  query_le := fun _ => Int.le_add_of_nonneg_right (Int.natCast_nonneg took)

theorem quick_passes_miss_nothing :
    Along (passed (5 * minute)) InOrder none [passAt 0 60000000, passAt (20 * minute) 60000000] ∧
      0 < 100000 ∧ ∀ updates, Along (passed (5 * minute)) (Fits updates (5 * minute) 100000) none
          [passAt 0 60000000, passAt (20 * minute) 60000000] →
        Along (next updates (5 * minute)) (fun s p =>
          Complete updates (next updates (5 * minute) s p).done) start
          [passAt 0 60000000, passAt (20 * minute) 60000000] :=
  ⟨by decide +kernel, by decide,
    (nothing_missed_iff (by decide +kernel) (by decide)).mpr (by decide +kernel)⟩

/-- A pass that is stamped ten minutes after its query hides an update in between from the next
pass; and a first pass over 100001 issues stops at the page cap. -/
theorem slow_pass_misses :
    ¬ Along (next [⟨5 * minute, "P-1"⟩] (5 * minute))
        (fun s p =>
          Complete [⟨5 * minute, "P-1"⟩] (next [⟨5 * minute, "P-1"⟩] (5 * minute) s p).done) start
        [passAt 0 600000000, passAt (20 * minute) 0] ∧
      ¬ Along (next (burst 100001 0) (5 * minute))
        (fun s p => Complete (burst 100001 0) (next (burst 100001 0) (5 * minute) s p).done) start
          [passAt 0 0] :=
  ⟨by decide +kernel, fun complete => first_pass_cut_off 100001 (by decide) (passAt 0 0) complete.1⟩

end Sample

end Manyforge.Connectors
