import Manyforge.Analytics.Events
import Manyforge.Lib.Transition
import Mathlib.Data.Finset.Card

/-!
# The daily rollups

`rollup_analytics_daily` counts the events of a client and day, `rollup_analytics_pageviews` the
pageviews, by page and by referrer as well. An event becomes visible some time after it was stamped.
A sweep looks back an overlap before the watermark, so that an event it does not look at any more
was visible to the sweep that set the watermark.
-/
namespace Manyforge.Analytics

open Table Transition
open SweepWindow (mk contains)
open AnalyticsEvent (key isPageview)

/-- `analytics_event_daily`. -/
structure EventDailyRow where
  bucket : Bucket
  eventCount : Nat
  updatedAt : Timestamp
  deriving DecidableEq

/-- `analytics_daily`. -/
structure DailyRow where
  bucket : Bucket
  (pageviews visitors : Nat)
  updatedAt : Timestamp
  deriving DecidableEq

/-- A row of `analytics_page_daily` or `analytics_referrer_daily`; the value is the path or the
referrer. -/
structure ValueRow where
  bucket : Bucket
  value : String
  (pageviews visitors : Nat)
  updatedAt : Timestamp
  deriving DecidableEq

def ValueRow.key (row : ValueRow) : Bucket × String := (row.bucket, row.value)

structure Warehouse where
  events : List AnalyticsEvent
  eventDaily : List EventDailyRow
  daily : List DailyRow
  (pageDaily referrerDaily : List ValueRow)
  /-- `rollup_state`; none is `-infinity`. -/
  dailyWatermark : Option Timestamp
  pageviewsWatermark : Option Timestamp

def anyEvent (_ : AnalyticsEvent) : Bool := true

def eventDailyRow (events : List AnalyticsEvent) (now : Timestamp) (b : Bucket) : EventDailyRow :=
  ⟨b, (bucketEvents anyEvent events b).length, now⟩

def dailyRow (events : List AnalyticsEvent) (now : Timestamp) (b : Bucket) : DailyRow :=
  ⟨b, (bucketEvents isPageview events b).length,
    visitors (bucketEvents isPageview events b), now⟩

/-- The rows of a bucket in one of the two tables by value. -/
def valueRows (value : AnalyticsEvent → Option String) (events : List AnalyticsEvent)
    (now : Timestamp) (b : Bucket) : List ValueRow :=
  (groups value (bucketEvents isPageview events b)).map fun g =>
    ⟨b, g.1, g.2.length, visitors g.2, now⟩

/-- `coalesce(e.path, '/')`. -/
def pageOf (e : AnalyticsEvent) : Option String := some (e.path.getD "/")

namespace Warehouse

variable (config : RollupConfig) (db : Warehouse)

def rollupAnalyticsDaily (start : Timestamp) : Warehouse :=
  match sweepWindow config db.dailyWatermark start with
  | none => db
  | some w =>
    { db with
      eventDaily := replaceOn EventDailyRow.bucket
        ((touched anyEvent w db.events).map (eventDailyRow db.events start)) db.eventDaily
      dailyWatermark := some w.hi }

/-- `rollup_analytics_pageviews`. Each of its three statements sees what was committed when it
began: `late₁` is committed between the first two, and `late₂` between the last two. -/
def rollupAnalyticsPageviews (start : Timestamp) (late₁ late₂ : List AnalyticsEvent) : Warehouse :=
  match sweepWindow config db.pageviewsWatermark start with
  | none => { db with events := insertEvents (insertEvents db.events late₁) late₂ }
  | some w =>
    { db with
      events := insertEvents (insertEvents db.events late₁) late₂
      daily := replaceOn DailyRow.bucket
        ((touched isPageview w db.events).map (dailyRow db.events start)) db.daily
      pageDaily := replaceOn ValueRow.key
        ((touched isPageview w (insertEvents db.events late₁)).flatMap
          (valueRows pageOf (insertEvents db.events late₁) start)) db.pageDaily
      referrerDaily := replaceOn ValueRow.key
        ((touched isPageview w (insertEvents (insertEvents db.events late₁) late₂)).flatMap
          (valueRows (·.referrerHost) (insertEvents (insertEvents db.events late₁) late₂) start))
            db.referrerDaily
      pageviewsWatermark := some w.hi }

def eventCount (b : Bucket) : Nat :=
  ((db.eventDaily.find? (·.bucket == b)).map (·.eventCount)).getD 0

def pageviews (b : Bucket) : Nat := ((db.daily.find? (·.bucket == b)).map (·.pageviews)).getD 0

end Warehouse

/-! ### Runs -/

/-- What happens to the warehouse: events are committed, and sweeps run one after the other, under
the advisory lock of their rollup. A sweep has started some time before it reads; one that is rolled
back has no effect. -/
inductive RollupAction
  | commit (now : Timestamp) (e : AnalyticsEvent)
  | daily (start now : Timestamp)
  | pageviews (start now done : Timestamp) (late₁ late₂ : List AnalyticsEvent)
  | rolledBack (now : Timestamp)

variable (config : RollupConfig)

def Warehouse.next (db : Warehouse) : RollupAction → Warehouse
  | .commit _ e => { db with events := insertEvent db.events e }
  | .daily start _ => db.rollupAnalyticsDaily config start
  | .pageviews start _ _ late₁ late₂ => db.rollupAnalyticsPageviews config start late₁ late₂
  | .rolledBack _ => db

def RollupAction.ends : RollupAction → Timestamp
  | .commit now _ => now
  | .daily _ now => now
  | .pageviews _ _ done _ _ => done
  | .rolledBack now => now

structure Clocked where
  db : Warehouse
  clock : Timestamp

def Clocked.next (config : RollupConfig) (s : Clocked) (action : RollupAction) : Clocked :=
  ⟨s.db.next config action, action.ends⟩

/-- An event commits after it was stamped, and less than a lag and an overlap after it. -/
def CommitsInTime (e : AnalyticsEvent) (commit : Timestamp) : Prop :=
  e.ingestedAt ≤ commit ∧ commit < e.ingestedAt + config.lag + config.overlap

/-- Time goes on, a sweep starts before it reads, and events commit in time. -/
def Clocked.InOrder (s : Clocked) : RollupAction → Prop
  | .commit now e => s.clock ≤ now ∧ CommitsInTime config e now
  | .daily start now => s.clock ≤ now ∧ start ≤ now
  | .pageviews start now done late₁ late₂ => s.clock ≤ now ∧ start ≤ now ∧ now ≤ done ∧
    ∀ e ∈ late₁ ++ late₂, ∃ commit, now ≤ commit ∧ commit ≤ done ∧ CommitsInTime config e commit
  | .rolledBack now => s.clock ≤ now

/-! ### Counts -/

/-- Each stored count is the number of events of a set, which includes the events of a given
kind. -/
def Counts (kept : AnalyticsEvent → Bool) (events : List AnalyticsEvent) (stored : Bucket → Nat)
    (included : AnalyticsEvent → Prop) : Prop :=
  ∀ b, ∃ counted : Finset AnalyticsEvent, counted ⊆ (bucketEvents kept events b).toFinset ∧
    stored b = counted.card ∧ ∀ e ∈ bucketEvents kept events b, included e → e ∈ counted

section Counts

variable {config : RollupConfig} {kept : AnalyticsEvent → Bool} {events : List AnalyticsEvent}
  {stored : Bucket → Nat}
variable {included : AnalyticsEvent → Prop}

theorem Counts.weaken (counts : Counts kept events stored included) {less : AnalyticsEvent → Prop}
    (fewer : ∀ e ∈ events, less e → included e) : Counts kept events stored less := by
  intro b
  obtain ⟨counted, subset, size, complete⟩ := counts b
  exact ⟨counted, subset, size, fun e isEvent isLess =>
    complete e isEvent (fewer e (mem_bucketEvents.mp isEvent).1 isLess)⟩

theorem Counts.committed (counts : Counts kept events stored included)
    {events' : List AnalyticsEvent} (more : events ⊆ events')
    (late : ∀ e ∈ events', included e → e ∈ events) : Counts kept events' stored included := by
  intro b
  obtain ⟨counted, subset, size, complete⟩ := counts b
  refine ⟨counted, fun e isCounted => ?_, size, fun e isEvent isIncluded => ?_⟩
  · obtain ⟨old, isKept, ofBucket⟩ := mem_bucketEvents.mp (List.mem_toFinset.mp (subset isCounted))
    exact List.mem_toFinset.mpr (mem_bucketEvents.mpr ⟨more old, isKept, ofBucket⟩)
  · obtain ⟨isEvent, isKept, ofBucket⟩ := mem_bucketEvents.mp isEvent
    exact complete e (mem_bucketEvents.mpr ⟨late e isEvent isIncluded, isKept, ofBucket⟩) isIncluded

/-- The events that no later sweep looks for: they were ingested an overlap or more before the
watermark. -/
def Settled (config : RollupConfig) (watermark : Option Timestamp) (e : AnalyticsEvent) : Prop :=
  ∃ m ∈ watermark, e.ingestedAt ≤ m - config.overlap

def recount (kept : AnalyticsEvent → Bool) (w : SweepWindow) (events : List AnalyticsEvent)
    (stored : Bucket → Nat) (b : Bucket) : Nat :=
  if b ∈ touched kept w events then (bucketEvents kept events b).length else stored b

variable {watermark : Option Timestamp}

/-- A sweep counts every event up to the end of its window: it recounts the bucket, or the event was
settled. -/
theorem Counts.swept (unique : UniqueOn key events)
    (counts : Counts kept events stored (Settled config watermark)) {start : Timestamp}
    {w : SweepWindow} (isWindow : sweepWindow config watermark start = some w) :
    Counts kept events (recount kept w events stored) (fun e => e.ingestedAt ≤ start - config.lag) := by
  obtain ⟨rfl, -⟩ := sweepWindow_some isWindow
  intro b
  unfold recount
  split
  next =>
    have distinct : (bucketEvents kept events b).Nodup := by
      rw [bucketEvents_eq]
      exact (List.Nodup.of_map _ unique).filter _
    refine ⟨(bucketEvents kept events b).toFinset, subset_rfl, ?_, fun e isEvent _ =>
      List.mem_toFinset.mpr isEvent⟩
    exact (List.toFinset_card_of_nodup distinct).symm
  next untouched =>
  obtain ⟨counted, subset, size, complete⟩ := counts b
  refine ⟨counted, subset, size, fun e isEvent upTo => complete e isEvent ?_⟩
  -- The event is not in the window, so it is below it.
  obtain ⟨isOld, isKept, ofBucket⟩ := mem_bucketEvents.mp isEvent
  have outside :
      ¬ (mk (watermark.map (· - config.overlap)) (start - config.lag)).contains e.ingestedAt =
        true :=
    fun inWindow => untouched (mem_touched.mpr ⟨e, isOld, inWindow, isKept, ofBucket⟩)
  cases mark : watermark with
  | none => simp [contains, mark, upTo] at outside
  | some m =>
    refine ⟨m, rfl, ?_⟩
    simpa [contains, mark, upTo] using outside

theorem recount_again {start start' : Timestamp} {w w' : SweepWindow}
    (isWindow : sweepWindow config watermark start = some w)
    (isNext : sweepWindow config (some w.hi) start' = some w')
    (quiet : ∀ e ∈ events, start - config.lag < e.ingestedAt → start' - config.lag < e.ingestedAt)
    (b : Bucket) :
    recount kept w' events (recount kept w events stored) b = recount kept w events stored b := by
  obtain ⟨rfl, beyond⟩ := sweepWindow_some isWindow
  obtain ⟨rfl, -⟩ := sweepWindow_some isNext
  rw [recount]
  split
  next again =>
    -- What touches the bucket now was in the window of the first sweep.
    obtain ⟨e, isEvent, inWindow, isKept, ofBucket⟩ := mem_touched.mp again
    simp only [contains, Option.map_some, Option.all_some, Bool.and_eq_true,
      decide_eq_true_eq] at inWindow
    have old : e.ingestedAt ≤ start - config.lag := by
      by_contra isNew
      exact absurd (quiet e isEvent (not_le.mp isNew)) (not_lt.mpr inWindow.2)
    have first : b ∈ touched kept ⟨watermark.map (· - config.overlap), start - config.lag⟩ events := by
      refine mem_touched.mpr ⟨e, isEvent, ?_, isKept, ofBucket⟩
      cases mark : watermark with
      | none => simpa [contains] using old
      | some m =>
        have later : m - config.overlap < e.ingestedAt :=
          lt_trans (Int.sub_lt_sub_right (beyond m mark) config.overlap) inWindow.1
        simp [contains, old, later]
    rw [recount, if_pos first]
  next => rfl

/-- The state of one of the two rollups. -/
structure RollupOk (config : RollupConfig) (kept : AnalyticsEvent → Bool)
    (events : List AnalyticsEvent)
    (stored : Bucket → Nat) (watermark : Option Timestamp) (clock : Timestamp) : Prop where
  /-- The sweep that set the watermark started before now. -/
  started : ∀ m ∈ watermark, m + config.lag ≤ clock
  counts : Counts kept events stored (Settled config watermark)

variable {clock clock' : Timestamp}

theorem not_settled {commit : Timestamp} {e : AnalyticsEvent}
    (started : ∀ m ∈ watermark, m + config.lag ≤ clock) (later : clock ≤ commit)
    (inTime : CommitsInTime config e commit) : ¬ Settled config watermark e := by
  rintro ⟨m, isMark, before⟩
  have bound := started m isMark
  have deadline := inTime.2
  have sum : e.ingestedAt + config.lag + config.overlap ≤ m + config.lag := by
    have moved := Int.add_le_of_le_sub_right before
    rw [Int.add_right_comm]
    exact Int.add_le_add_right moved config.lag
  exact absurd (lt_of_lt_of_le deadline (sum.trans (bound.trans later))) (lt_irrefl commit)

section

variable (ok : RollupOk config kept events stored watermark clock)

include ok

theorem RollupOk.committed {events' : List AnalyticsEvent} (later : clock ≤ clock')
    (more : events ⊆ events') (inTime : ∀ e ∈ events', e ∈ events ∨
      ∃ commit, clock ≤ commit ∧ CommitsInTime config e commit) :
    RollupOk config kept events' stored watermark clock' := by
  refine ⟨fun m isMark =>
    (ok.started m isMark).trans later, ok.counts.committed more fun e isEvent settled => ?_⟩
  rcases inTime e isEvent with old | ⟨commit, isLater, commits⟩
  · exact old
  · exact absurd settled (not_settled ok.started isLater commits)

theorem RollupOk.inserted {late : List AnalyticsEvent} (later : clock ≤ clock')
    (inTime : ∀ e ∈ late, ∃ commit, clock ≤ commit ∧ CommitsInTime config e commit) :
    RollupOk config kept (insertEvents events late) stored watermark clock' := by
  refine ok.committed later (insertEvents_sublist events late).subset fun e isEvent => ?_
  rcases mem_insertEvents isEvent with old | isLate
  · exact .inl old
  · exact .inr (inTime e isLate)

theorem RollupOk.swept {start : Timestamp} {w : SweepWindow} (unique : UniqueOn key events)
    (isWindow : sweepWindow config watermark start = some w) (began : start ≤ clock') :
    RollupOk config kept events (recount kept w events stored) (some w.hi) clock' := by
  have isHi : w.hi = start - config.lag := by rw [(sweepWindow_some isWindow).1]
  refine ⟨fun m isMark => ?_, (Counts.swept unique ok.counts isWindow).weaken fun e _ settled => ?_⟩
  · obtain rfl := Option.some.inj isMark
    rw [isHi, Int.sub_add_cancel]
    exact began
  · obtain ⟨m, isMark, before⟩ := settled
    obtain rfl := Option.some.inj isMark
    rw [isHi] at before
    exact before.trans (Int.sub_le_self _ config.overlap_nonneg)

end

/-- The counts and the watermark after a sweep of one of the two rollups. -/
inductive Swept (config : RollupConfig) (kept : AnalyticsEvent → Bool)
    (events : List AnalyticsEvent)
    (stored : Bucket → Nat) (watermark : Option Timestamp) (start : Timestamp) : (Bucket → Nat) →
    Option Timestamp → Prop
  | skipped (skips : sweepWindow config watermark start = none) :
      Swept config kept events stored watermark start stored watermark
  | counted (w : SweepWindow) (isWindow : sweepWindow config watermark start = some w) :
      Swept config kept events stored watermark start (recount kept w events stored) (some w.hi)

variable {start : Timestamp} {stored' : Bucket → Nat} {mark : Option Timestamp}
  (swept : Swept config kept events stored watermark start stored' mark)

include swept

theorem Swept.ok (ok : RollupOk config kept events stored watermark clock)
    (unique : UniqueOn key events) (later : clock ≤ clock') (began : start ≤ clock') :
    RollupOk config kept events stored' mark clock' := by
  cases swept with
  | skipped => exact ok.committed later (List.Subset.refl _) fun _ => .inl
  | counted w isWindow => exact ok.swept unique isWindow began

omit swept in
theorem sweepWindow_eq_none :
    sweepWindow config watermark start = none ↔ ¬ ∀ m ∈ watermark, m < start - config.lag := by
  cases watermark with
  | none => simp [sweepWindow]
  | some m => simp [sweepWindow]

/-- What is asked of a sweep over the events it finds: each count is the number of events of a set,
and a sweep beyond the watermark has counted every event up to the end of its window. -/
def Clocked.SweepCounts (config : RollupConfig) (kept : AnalyticsEvent → Bool)
    (events : List AnalyticsEvent)
    (watermark : Option Timestamp) (start : Timestamp) (stored : Bucket → Nat) : Prop :=
  Counts kept events stored fun e =>
    (∀ m ∈ watermark, m < start - config.lag) ∧ e.ingestedAt ≤ start - config.lag

/-- No event is newer than the first of two sweeps and old enough for the second. -/
def Clocked.Quiet (config : RollupConfig) (events : List AnalyticsEvent)
    (start start' : Timestamp) : Prop :=
  ∀ e ∈ events, start - config.lag < e.ingestedAt → start' - config.lag < e.ingestedAt

theorem Swept.sweepCounts (unique : UniqueOn key events)
    (counts : Counts kept events stored (Settled config watermark)) :
    Clocked.SweepCounts config kept events watermark start stored' := by
  cases swept with
  | skipped skips =>
    exact counts.weaken fun _ _ included => absurd included.1 (sweepWindow_eq_none.mp skips)
  | counted w isWindow =>
    exact (Counts.swept unique counts isWindow).weaken fun _ _ included => included.2

theorem Swept.again (beyond : ∀ m ∈ watermark, m < start - config.lag) {start' : Timestamp}
    (quiet : Clocked.Quiet config events start start') {stored'' : Bucket → Nat}
    {mark' : Option Timestamp}
    (second : Swept config kept events stored' mark start' stored'' mark') :
    stored'' = stored' := by
  cases swept with
  | skipped skips => exact absurd beyond (sweepWindow_eq_none.mp skips)
  | counted w isWindow => cases second with
    | skipped => rfl
    | counted w' isNext => exact funext (recount_again isWindow isNext quiet)

end Counts

/-! ### The two rollups -/

namespace Warehouse

variable {config : RollupConfig} {db : Warehouse} {start : Timestamp} {w : SweepWindow}

theorem rollupAnalyticsDaily_frame (config : RollupConfig) (db : Warehouse) (start : Timestamp) :
    ∃ eventDaily dailyWatermark, db.rollupAnalyticsDaily config start =
      { db with eventDaily, dailyWatermark } := by
  unfold rollupAnalyticsDaily
  split
  · exact ⟨_, _, rfl⟩
  · exact ⟨_, _, rfl⟩

theorem rollupAnalyticsDaily_swept (config : RollupConfig) (db : Warehouse) (start : Timestamp) :
    Swept config anyEvent db.events db.eventCount db.dailyWatermark start
      (db.rollupAnalyticsDaily config start).eventCount
      (db.rollupAnalyticsDaily config start).dailyWatermark := by
  unfold rollupAnalyticsDaily
  split
  next skips => exact .skipped skips
  next w isWindow =>
  convert Swept.counted w isWindow using 1
  funext b
  rw [eventCount, find?_replaceOn_map fun _ => rfl, recount]
  split
  · rfl
  · rfl

variable {late₁ late₂ : List AnalyticsEvent}

theorem rollupAnalyticsPageviews_events (config : RollupConfig) (db : Warehouse) (start : Timestamp)
    (late₁ late₂ : List AnalyticsEvent) :
    (db.rollupAnalyticsPageviews config start late₁ late₂).events =
      insertEvents db.events (late₁ ++ late₂) := by
  rw [← insertEvents_append]
  unfold rollupAnalyticsPageviews
  split
  · rfl
  · rfl

theorem rollupAnalyticsPageviews_pageviews
    (isWindow : sweepWindow config db.pageviewsWatermark start = some w) :
    (db.rollupAnalyticsPageviews config start late₁ late₂).pageviews =
      recount isPageview w db.events db.pageviews := by
  funext b
  unfold rollupAnalyticsPageviews pageviews recount
  simp only [isWindow]
  rw [find?_replaceOn_map fun _ => rfl]
  split
  · rfl
  · rfl

theorem rollupAnalyticsPageviews_skipped
    (skips : sweepWindow config db.pageviewsWatermark start = none) :
    db.rollupAnalyticsPageviews config start late₁ late₂ =
      { db with events := insertEvents db.events (late₁ ++ late₂) } := by
  rw [← insertEvents_append]
  unfold rollupAnalyticsPageviews
  simp only [skips]

theorem rollupAnalyticsPageviews_swept (config : RollupConfig) (db : Warehouse) (start : Timestamp)
    (late₁ late₂ : List AnalyticsEvent) :
    Swept config isPageview db.events db.pageviews db.pageviewsWatermark start
      (db.rollupAnalyticsPageviews config start late₁ late₂).pageviews
      (db.rollupAnalyticsPageviews config start late₁ late₂).pageviewsWatermark := by
  cases isWindow : sweepWindow config db.pageviewsWatermark start with
  | none =>
    rw [rollupAnalyticsPageviews_skipped isWindow]
    exact .skipped isWindow
  | some w =>
    have mark : (db.rollupAnalyticsPageviews config start late₁ late₂).pageviewsWatermark =
        some w.hi := by
      unfold rollupAnalyticsPageviews
      simp only [isWindow]
    rw [rollupAnalyticsPageviews_pageviews isWindow, mark]
    exact .counted w isWindow

theorem rollupAnalyticsDaily_skipped (skips : sweepWindow config db.dailyWatermark start = none) :
    db.rollupAnalyticsDaily config start = db := by
  unfold rollupAnalyticsDaily
  rw [skips]

theorem rollupAnalyticsPageviews_other (config : RollupConfig) (db : Warehouse) (start : Timestamp)
    (late₁ late₂ : List AnalyticsEvent) :
    (db.rollupAnalyticsPageviews config start late₁ late₂).eventCount = db.eventCount ∧
      (db.rollupAnalyticsPageviews config start late₁ late₂).dailyWatermark = db.dailyWatermark := by
  unfold rollupAnalyticsPageviews
  split
  · exact ⟨rfl, rfl⟩
  · exact ⟨rfl, rfl⟩

end Warehouse

/-! ### All sweeps -/

namespace Clocked

variable {config : RollupConfig} {s : Clocked}

structure Inv (config : RollupConfig) (s : Clocked) : Prop where
  unique : UniqueOn key s.db.events
  daily : RollupOk config anyEvent s.db.events s.db.eventCount s.db.dailyWatermark s.clock
  pageviews : RollupOk config isPageview s.db.events s.db.pageviews s.db.pageviewsWatermark s.clock

theorem Inv.fresh (clock : Timestamp) : Inv config ⟨⟨[], [], [], [], [], none, none⟩, clock⟩ := by
  have empty (kept : AnalyticsEvent → Bool) : RollupOk config kept [] (fun _ => 0) none clock := by
    refine ⟨nofun, fun b => ⟨∅, ?_, rfl, ?_⟩⟩
    · exact Finset.empty_subset _
    · exact fun e isEvent => absurd isEvent (by simp [bucketEvents])
  exact ⟨UniqueOn.nil _, empty anyEvent, empty isPageview⟩

theorem Inv.next {action : RollupAction} (inv : s.Inv config) (inOrder : s.InOrder config action) :
    (s.next config action).Inv config := by
  cases action with
  | commit now e =>
    obtain ⟨later, inTime⟩ := inOrder
    have commits : ∀ x ∈ [e], ∃ commit, s.clock ≤ commit ∧ CommitsInTime config x commit := by
      intro x isOne
      rw [List.mem_singleton.mp isOne]
      exact ⟨now, later, inTime⟩
    exact ⟨insertEvent_unique inv.unique e, inv.daily.inserted later commits,
      inv.pageviews.inserted later commits⟩
  | daily start now =>
    obtain ⟨later, began⟩ := inOrder
    have daily := (s.db.rollupAnalyticsDaily_swept config start).ok inv.daily inv.unique later began
    have waits : RollupOk config isPageview s.db.events s.db.pageviews s.db.pageviewsWatermark now :=
      inv.pageviews.committed later (List.Subset.refl _) fun e isEvent => .inl isEvent
    obtain ⟨eventDaily, mark, frame⟩ := s.db.rollupAnalyticsDaily_frame config start
    rw [frame] at daily
    refine ⟨?_, ?_, ?_⟩ <;> simp only [Clocked.next, Warehouse.next, frame]
    exacts [inv.unique, daily, waits]
  | pageviews start now done late₁ late₂ =>
    obtain ⟨later, began, reads, commits⟩ := inOrder
    have inTime (e : AnalyticsEvent) (isLate : e ∈ late₁ ++ late₂) :
        ∃ commit, now ≤ commit ∧ CommitsInTime config e commit := by
      obtain ⟨commit, isLater, -, inTime⟩ := commits e isLate
      exact ⟨commit, isLater, inTime⟩
    have swept := (s.db.rollupAnalyticsPageviews_swept config start late₁ late₂).ok inv.pageviews
      inv.unique later began
    have counted : RollupOk config anyEvent s.db.events s.db.eventCount s.db.dailyWatermark now :=
      inv.daily.committed later (List.Subset.refl _) fun e isEvent => .inl isEvent
    have events := s.db.rollupAnalyticsPageviews_events config start late₁ late₂
    have other := s.db.rollupAnalyticsPageviews_other config start late₁ late₂
    refine ⟨?_, ?_, ?_⟩ <;> simp only [Clocked.next, Warehouse.next, events, other]
    exacts [insertEvents_unique inv.unique _, counted.inserted reads inTime, swept.inserted reads inTime]
  | rolledBack now =>
    have still (e : AnalyticsEvent) (isEvent : e ∈ s.db.events) : e ∈ s.db.events ∨
        ∃ commit, s.clock ≤ commit ∧ CommitsInTime config e commit := .inl isEvent
    exact ⟨inv.unique, inv.daily.committed inOrder (List.Subset.refl _) still,
      inv.pageviews.committed inOrder (List.Subset.refl _) still⟩

/-- After a sweep, and after it is repeated without new events; one that is not beyond the watermark
changes nothing, apart from what others commit while it runs. -/
def Complete (config : RollupConfig) (s : Clocked) : RollupAction → Prop
  | .daily start _ =>
    SweepCounts config anyEvent s.db.events s.db.dailyWatermark start
      (s.db.rollupAnalyticsDaily config start).eventCount ∧
    ((¬ ∀ m ∈ s.db.dailyWatermark, m < start - config.lag) →
      s.db.rollupAnalyticsDaily config start = s.db) ∧
    ((∀ m ∈ s.db.dailyWatermark, m < start - config.lag) →
      ∀ start', Quiet config s.db.events start start' →
        ((s.db.rollupAnalyticsDaily config start).rollupAnalyticsDaily config start').eventCount =
          (s.db.rollupAnalyticsDaily config start).eventCount)
  | .pageviews start _ _ late₁ late₂ =>
    SweepCounts config isPageview s.db.events s.db.pageviewsWatermark start
      (s.db.rollupAnalyticsPageviews config start late₁ late₂).pageviews ∧
    ((¬ ∀ m ∈ s.db.pageviewsWatermark, m < start - config.lag) →
      s.db.rollupAnalyticsPageviews config start late₁ late₂ =
        { s.db with events := insertEvents s.db.events (late₁ ++ late₂) }) ∧
    ((∀ m ∈ s.db.pageviewsWatermark, m < start - config.lag) →
      ∀ start', Quiet config s.db.events start start' →
        ((s.db.rollupAnalyticsPageviews config start [] []).rollupAnalyticsPageviews config start'
          [] []).pageviews = (s.db.rollupAnalyticsPageviews config start [] []).pageviews)
  | .commit _ _ => True
  | .rolledBack _ => True

/-- A sweep counts its whole window, and repeating it changes no count. -/
theorem Inv.complete (inv : s.Inv config) (action : RollupAction) : s.Complete config action := by
  cases action with
  | commit | rolledBack => trivial
  | daily start now =>
    have swept := s.db.rollupAnalyticsDaily_swept config start
    refine ⟨swept.sweepCounts inv.unique inv.daily.counts, fun behind =>
      s.db.rollupAnalyticsDaily_skipped (sweepWindow_eq_none.mpr behind), fun beyond start' quiet => ?_⟩
    have second := (s.db.rollupAnalyticsDaily config start).rollupAnalyticsDaily_swept config start'
    obtain ⟨eventDaily, mark, frame⟩ := s.db.rollupAnalyticsDaily_frame config start
    rw [show (s.db.rollupAnalyticsDaily config start).events = s.db.events by rw [frame]] at second
    exact swept.again beyond quiet second
  | pageviews start now done late₁ late₂ =>
    have swept := s.db.rollupAnalyticsPageviews_swept config start
    refine ⟨(swept late₁ late₂).sweepCounts inv.unique inv.pageviews.counts, fun behind =>
      s.db.rollupAnalyticsPageviews_skipped (sweepWindow_eq_none.mpr behind),
        fun beyond start' quiet => ?_⟩
    have second := (s.db.rollupAnalyticsPageviews config start [] []).rollupAnalyticsPageviews_swept
      config start' [] []
    rw [s.db.rollupAnalyticsPageviews_events config start [] []] at second
    exact (swept [] []).again beyond quiet second

end Clocked

open Clocked

/-- In every run in which events commit in time, after every sweep of either rollup. -/
theorem sweeps_miss_nothing {config : RollupConfig} {s : Clocked} {actions : List RollupAction}
    (inv : s.Inv config) (inOrder : Along (next config) (InOrder config) s actions) :
    Along (next config) (Complete config) s actions := by
  have kept (s : Clocked) (action : RollupAction) (inv : s.Inv config)
      (allowed : s.InOrder config action) :
      (s.next config action).Inv config := inv.next allowed
  exact Along.of_invariant kept (fun s action inv _ => inv.complete action) inv inOrder

namespace Sample

def noEvents : Warehouse := ⟨[], [], [], [], [], none, none⟩

/-- A straggler commits after one sweep and is counted by the next. -/
def straggler : List RollupAction :=
  [.daily 100000000 101000000, .commit 105000000 (pageview 7 60000000 none),
    .daily 160000000 161000000]

theorem straggler_inOrder :
    Along (next rollupConfig) (InOrder rollupConfig) ⟨noEvents, 0⟩ straggler := by
  refine ⟨⟨by decide, by decide⟩, ⟨by decide, by decide, by decide⟩,
    ⟨by decide, by decide⟩, trivial⟩

theorem straggler_is_counted :
    (straggler.foldl (next rollupConfig) ⟨noEvents, 0⟩).db.eventCount ⟨1, 0⟩ = 1 ∧
    Along (next rollupConfig) (Complete rollupConfig) ⟨noEvents, 0⟩ straggler :=
  ⟨by decide +kernel, sweeps_miss_nothing (.fresh 0) straggler_inOrder⟩

/-- The straggler again, which commits after the sweep. -/
def missed : List RollupAction :=
  [.daily 100000000 101000000, .commit 105000000 (pageview 7 60000000 none)]

/-- A sweep that started before the other one and had to wait for the lock. -/
def overtaken : RollupAction := .daily 99000000 110000000

/-- That sweep commits without having counted an event that it can see and that is older than its
lag. -/
theorem overtaken_sweep_misses_straggler :
    Along (next rollupConfig) (InOrder rollupConfig) ⟨noEvents, 0⟩
      (missed ++ [overtaken]) ∧
    ¬ Counts anyEvent (missed.foldl (next rollupConfig) ⟨noEvents, 0⟩).db.events
      ((missed ++ [overtaken]).foldl (next rollupConfig) ⟨noEvents, 0⟩).db.eventCount
      (fun e => e.ingestedAt ≤ 99000000 - rollupConfig.lag) := by
  refine ⟨⟨⟨by decide, by decide⟩, ⟨by decide, by decide, by decide⟩, ⟨by decide, by decide⟩,
    trivial⟩, fun counts => ?_⟩
  obtain ⟨counted, -, size, complete⟩ := counts ⟨1, 0⟩
  have isCounted := complete (pageview 7 60000000 none) (by decide +kernel) (by decide)
  have nothing : counted.card = 0 := size.symm.trans (by decide +kernel)
  rw [Finset.card_eq_zero.mp nothing] at isCounted
  exact absurd isCounted (Finset.notMem_empty _)

end Sample

end Manyforge.Analytics
