import Manyforge.Text
import Manyforge.Lib.Aggregate

/-!
# Analytics events

The partitioned table `analytics_event` and what every rollup does with it: a sweep looks for the
events ingested in a window, which reaches from an overlap before the watermark to a lag before the
sweep, and recomputes each UTC day of each client that has one of them. An event's tenant and
business are those of its client, and are left out.
-/
namespace Manyforge.Analytics

open Table

/-- A value of `props`: `jsonb_typeof` is string, number or boolean, or something else. -/
inductive PropertyValue
  | scalar (text : String)
  | composite
  deriving DecidableEq

structure AnalyticsEvent where
  (id clientId : UUID)
  (occurredAt ingestedAt : Timestamp)
  name : String
  props : List (String × PropertyValue)
  (path referrerHost visitorHash : Option String)
  isBot : Bool
  (utmSource utmMedium utmCampaign deviceType browser country : Option String)
  deriving DecidableEq

variable (e : AnalyticsEvent) (kept : AnalyticsEvent → Bool)

/-- `PRIMARY KEY (ingested_at, id)`. -/
def AnalyticsEvent.key : Timestamp × UUID := (e.ingestedAt, e.id)

def AnalyticsEvent.isPageview : Bool := e.name == "pageview" && !e.isBot

/-! ### Buckets -/

/-- `(t AT TIME ZONE 'UTC')::date`, as a number of days. -/
def utcDay (t : Timestamp) : Int := t / 86400000000

/-- `day::timestamp AT TIME ZONE 'UTC'`. -/
def dayStart (day : Int) : Timestamp := day * 86400000000

/-- The bounds on `occurred_at` with which the rollups join the events of a day. -/
def inDay (day : Int) (t : Timestamp) : Bool := dayStart day ≤ t && t < dayStart (day + 1)

theorem inDay_iff {day : Int} {t : Timestamp} : inDay day t = true ↔ utcDay t = day := by
  rw [inDay, Bool.and_eq_true, decide_eq_true_eq, decide_eq_true_eq]
  have bounds (t : Int) :
      day * 86400000000 ≤ t ∧ t < (day + 1) * 86400000000 ↔ t / 86400000000 = day := by omega
  exact bounds t

structure Bucket where
  clientId : UUID
  day : Int
  deriving DecidableEq

def AnalyticsEvent.bucket : Bucket := ⟨e.clientId, utcDay e.occurredAt⟩

/-- The events a rollup joins to a bucket. -/
def bucketEvents (events : List AnalyticsEvent) (b : Bucket) : List AnalyticsEvent :=
  events.filter fun e => e.clientId == b.clientId && kept e && inDay b.day e.occurredAt

theorem bucketEvents_eq (events : List AnalyticsEvent) (b : Bucket) :
    bucketEvents kept events b = events.filter fun e => kept e && e.bucket == b := by
  refine List.filter_congr fun e _ => ?_
  obtain ⟨client, day⟩ := b
  rw [Bool.eq_iff_iff]
  simp only [Bool.and_eq_true, beq_iff_eq, inDay_iff, AnalyticsEvent.bucket, Bucket.mk.injEq]
  tauto

variable {events : List AnalyticsEvent}

theorem mem_bucketEvents {kept : AnalyticsEvent → Bool} {b : Bucket} {e : AnalyticsEvent} :
    e ∈ bucketEvents kept events b ↔ e ∈ events ∧ kept e = true ∧ e.bucket = b := by
  rw [bucketEvents_eq, List.mem_filter, Bool.and_eq_true, beq_iff_eq]

/-- `count(DISTINCT visitor_hash)`. -/
def visitors (events : List AnalyticsEvent) : Nat := (events.filterMap (·.visitorHash)).dedup.length

/-! ### Sweeps -/

/-- The settings of `RollupWorker`, which are not negative. -/
structure RollupConfig where
  (lag overlap : Int)
  lag_nonneg : 0 ≤ lag
  overlap_nonneg : 0 ≤ overlap

/-- The bounds of a sweep on `ingested_at`; no lower bound is `-infinity`. -/
structure SweepWindow where
  lo : Option Timestamp
  hi : Timestamp
  deriving DecidableEq

variable {w : SweepWindow}

def SweepWindow.contains (w : SweepWindow) (t : Timestamp) : Bool := w.lo.all (· < t) && t ≤ w.hi

/-- The window of a sweep that started at `start`, from the watermark it finds; `hi <= wm` returns
at once. -/
def sweepWindow (config : RollupConfig) (watermark : Option Timestamp) (start : Timestamp) :
    Option SweepWindow :=
  if watermark.any (start - config.lag ≤ ·) then none
  else some ⟨watermark.map (· - config.overlap), start - config.lag⟩

def touched (w : SweepWindow) (events : List AnalyticsEvent) : List Bucket :=
  ((events.filter fun e => w.contains e.ingestedAt && kept e).map (·.bucket)).dedup

theorem mem_touched {kept : AnalyticsEvent → Bool} {b : Bucket} :
    b ∈ touched kept w events ↔
      ∃ e ∈ events, w.contains e.ingestedAt = true ∧ kept e = true ∧ e.bucket = b := by
  simp [touched, and_assoc]

theorem nodup_touched {kept : AnalyticsEvent → Bool} : (touched kept w events).Nodup :=
  List.nodup_dedup _

theorem touched_mono {kept : AnalyticsEvent → Bool} {events' : List AnalyticsEvent}
    (more : events ⊆ events') {b : Bucket} (isTouched : b ∈ touched kept w events) :
    b ∈ touched kept w events' := by
  obtain ⟨e, isEvent, inWindow, isKept, ofBucket⟩ := mem_touched.mp isTouched
  exact mem_touched.mpr ⟨e, more isEvent, inWindow, isKept, ofBucket⟩

theorem sweepWindow_some {config : RollupConfig} {watermark : Option Timestamp} {start : Timestamp}
    (isWindow : sweepWindow config watermark start = some w) :
    w = ⟨watermark.map (· - config.overlap), start - config.lag⟩ ∧
      ∀ m ∈ watermark, m < start - config.lag := by
  unfold sweepWindow at isWindow
  split at isWindow
  · cases isWindow
  next beyond =>
  refine ⟨(Option.some.inj isWindow).symm, fun m isMark => ?_⟩
  rw [Option.mem_def.mp isMark] at beyond
  simpa only [Option.any_some, decide_eq_true_eq, Int.not_le] using beyond

/-! ### Inserts -/

def insertEvent (events : List AnalyticsEvent) (e : AnalyticsEvent) : List AnalyticsEvent :=
  if events.any fun old => old.key == e.key then events else events ++ [e]

def insertEvents (events late : List AnalyticsEvent) : List AnalyticsEvent :=
  late.foldl insertEvent events

theorem insertEvents_append (events first second : List AnalyticsEvent) :
    insertEvents (insertEvents events first) second = insertEvents events (first ++ second) :=
  List.foldl_append.symm

theorem insertEvent_unique (unique : UniqueOn AnalyticsEvent.key events) (e : AnalyticsEvent) :
    UniqueOn AnalyticsEvent.key (insertEvent events e) := by
  unfold insertEvent
  split
  next => exact unique
  next absent => exact unique.append_fresh (ne_of_not_any absent)

theorem insertEvents_unique (unique : UniqueOn AnalyticsEvent.key events)
    (late : List AnalyticsEvent) : UniqueOn AnalyticsEvent.key (insertEvents events late) := by
  unfold insertEvents
  induction late generalizing events with
  | nil => exact unique
  | cons e rest ih => exact ih (insertEvent_unique unique e)

theorem insertEvent_sublist (events : List AnalyticsEvent) (e : AnalyticsEvent) :
    events.Sublist (insertEvent events e) := by
  unfold insertEvent
  split
  · exact List.Sublist.refl _
  · exact List.sublist_append_left _ _

theorem insertEvents_sublist (events late : List AnalyticsEvent) :
    events.Sublist (insertEvents events late) := by
  unfold insertEvents
  induction late generalizing events with
  | nil => exact List.Sublist.refl _
  | cons e rest ih => exact (insertEvent_sublist events e).trans (ih _)

theorem mem_insertEvent {e x : AnalyticsEvent} (isEvent : x ∈ insertEvent events e) :
    x ∈ events ∨ x = e := by
  unfold insertEvent at isEvent
  split at isEvent
  · exact .inl isEvent
  · simpa using isEvent

theorem mem_insertEvents {late : List AnalyticsEvent} {x : AnalyticsEvent}
    (isEvent : x ∈ insertEvents events late) : x ∈ events ∨ x ∈ late := by
  unfold insertEvents at isEvent
  induction late generalizing events with
  | nil => exact .inl isEvent
  | cons e rest ih =>
    rcases ih isEvent with before | later
    · rcases mem_insertEvent before with old | rfl
      · exact .inl old
      · exact .inr List.mem_cons_self
    · exact .inr (List.mem_cons_of_mem _ later)

namespace Sample

/-- A lag of thirty seconds and an overlap of five minutes. -/
def rollupConfig : RollupConfig := ⟨30000000, 300000000, by decide, by decide⟩

def pageview (id : UUID) (ingestedAt : Timestamp) (referrerHost : Option String) :
    AnalyticsEvent where
  id := id
  clientId := 1
  occurredAt := ingestedAt
  ingestedAt := ingestedAt
  name := "pageview"
  props := []
  path := some "/"
  referrerHost := referrerHost
  visitorHash := none
  isBot := false
  utmSource := none
  utmMedium := none
  utmCampaign := none
  deviceType := none
  browser := none
  country := none

end Sample

end Manyforge.Analytics
