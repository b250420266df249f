import Manyforge.Analytics.Rollups

/-!
# The breakdowns and the total

The three statements of `rollup_analytics_pageviews` see different sets of events when pageviews are
committed while it runs. The dashboard takes the difference of the total and the referrers for the
direct traffic. Which pageviews the stored total of a bucket counts is kept beside the tables.
-/
namespace Manyforge.Analytics

open Table Transition
open AnalyticsEvent (isPageview)

/-! ### Totals of a table by value -/

def valueTotal (rows : List ValueRow) (b : Bucket) : Nat :=
  ((rows.filter (·.bucket == b)).map (·.pageviews)).sum

/-- Every row has a value that some pageview of its bucket has. -/
def ValuesOf (value : AnalyticsEvent → Option String) (events : List AnalyticsEvent)
    (rows : List ValueRow) : Prop :=
  ∀ row ∈ rows, ∃ e ∈ bucketEvents isPageview events row.bucket, value e = some row.value

section Values

variable {value : AnalyticsEvent → Option String} {events : List AnalyticsEvent}
  {rows : List ValueRow}

theorem mem_valueRows {now : Timestamp} {b : Bucket} {row : ValueRow}
    (isRow : row ∈ valueRows value events now b) :
    row.bucket = b ∧ ∃ e ∈ bucketEvents isPageview events b, value e = some row.value := by
  obtain ⟨group, isGroup, rfl⟩ := List.mem_map.mp isRow
  exact ⟨rfl, mem_groups_keys.mp (List.mem_map_of_mem isGroup)⟩

variable (valuesOf : ValuesOf value events rows)

include valuesOf

theorem ValuesOf.mono {events' : List AnalyticsEvent} (more : events ⊆ events') :
    ValuesOf value events' rows := by
  intro row isRow
  obtain ⟨e, isEvent, isValue⟩ := valuesOf row isRow
  obtain ⟨isOld, isKept, ofBucket⟩ := mem_bucketEvents.mp isEvent
  exact ⟨e, mem_bucketEvents.mpr ⟨more isOld, isKept, ofBucket⟩, isValue⟩

theorem ValuesOf.replaced (buckets : List Bucket) (now : Timestamp) :
    ValuesOf value events
      (replaceOn ValueRow.key (buckets.flatMap (valueRows value events now)) rows) := by
  intro row isRow
  rcases mem_replaceOn.mp isRow with ⟨old, -⟩ | isNew
  · exact valuesOf row old
  · obtain ⟨b, -, ofBucket⟩ := List.mem_flatMap.mp isNew
    obtain ⟨rfl, holds⟩ := mem_valueRows ofBucket
    exact holds

theorem valueTotal_replaced {buckets : List Bucket} (distinct : buckets.Nodup) (now : Timestamp)
    (b : Bucket) :
    valueTotal (replaceOn ValueRow.key (buckets.flatMap (valueRows value events now)) rows) b =
      if b ∈ buckets then ((bucketEvents isPageview events b).filterMap value).length
      else valueTotal rows b := by
  have keyed (b : Bucket) (row : ValueRow) (isRow : row ∈ valueRows value events now b) :
      row.bucket = b :=
    (mem_valueRows isRow).1
  unfold valueTotal
  split
  next recomputed =>
    have own := filter_flatMap_of_mem keyed
      (show UniqueOn id buckets by rwa [UniqueOn, List.map_id]) recomputed
    rw [filter_replaceOn_of_covered, own]
    · rw [← sum_groups, valueRows, List.map_map]
      rfl
    · -- The row's value is that of an event of the bucket, so there is a new row for it.
      intro row isRow isBucket
      obtain ⟨e, isEvent, isValue⟩ := valuesOf row isRow
      obtain rfl := beq_iff_eq.mp isBucket
      obtain ⟨group, isGroup, isKey⟩ := List.mem_map.mp (mem_groups_keys.mpr ⟨e, isEvent, isValue⟩)
      refine List.mem_map.mpr ⟨⟨row.bucket, group.1, group.2.length, visitors group.2, now⟩, ?_, ?_⟩
      · exact List.mem_flatMap.mpr ⟨row.bucket, recomputed, List.mem_map.mpr ⟨group, isGroup, rfl⟩⟩
      · rw [ValueRow.key, isKey]
        rfl
  next kept =>
  have outside (row : ValueRow) (isNew : row ∈ buckets.flatMap (valueRows value events now)) :
      row.bucket ∈ buckets := by
    obtain ⟨b', isBucket, isRow⟩ := List.mem_flatMap.mp isNew
    exact keyed b' row isRow ▸ isBucket
  rw [filter_replaceOn_of_apart]
  · intro row isNew
    rw [beq_eq_false_iff_ne]
    exact fun same => kept (same ▸ outside row isNew)
  · intro row _ isBucket isKey
    obtain ⟨new, isNew, sameKey⟩ := List.mem_map.mp isKey
    have sameBucket : new.bucket = row.bucket := congrArg Prod.fst sameKey
    exact kept (beq_iff_eq.mp isBucket ▸ sameBucket ▸ outside new isNew)

end Values

/-! ### The dashboard -/

def daysBetween (first last : Int) : List Int :=
  (List.range (last - first + 1).toNat).map fun (i : Nat) => first + (i : Int)

theorem mem_daysBetween {first last day : Int} :
    day ∈ daysBetween first last ↔ first ≤ day ∧ day ≤ last := by
  simp only [daysBetween, List.mem_map, List.mem_range]
  constructor
  · rintro ⟨i, below, rfl⟩
    omega
  · intro bounds
    exact ⟨(day - first).toNat, by omega, by omega⟩

theorem daysBetween_nodup (first last : Int) : (daysBetween first last).Nodup := by
  refine List.Nodup.map (fun i j same => ?_) List.nodup_range
  have same : first + (i : Int) = first + (j : Int) := same
  omega

namespace Warehouse

variable (db : Warehouse) (client : UUID) (first last : Int)

/-- `Summary.Pageviews`: the series has a point for every day. -/
def seriesPageviews : Nat :=
  ((daysBetween first last).map fun day => db.pageviews ⟨client, day⟩).sum

def attributedPageviews : Nat :=
  ((db.referrerDaily.filter fun row =>
    row.bucket.clientId == client && (first ≤ row.bucket.day && row.bucket.day ≤ last)).map
    (·.pageviews)).sum

/-- `Summary.DirectPageviews`: the difference when it is positive, and zero otherwise. -/
def directPageviews : Nat :=
  db.seriesPageviews client first last - db.attributedPageviews client first last

end Warehouse

variable (client : UUID) (first last : Int)

def rangeBuckets : List Bucket := (daysBetween first last).map (Bucket.mk client)

theorem rangeBuckets_nodup : (rangeBuckets client first last).Nodup :=
  List.Nodup.map (fun _ _ same => (Bucket.mk.inj same).2) (daysBetween_nodup first last)

theorem rangeBuckets_contains (b : Bucket) :
    (rangeBuckets client first last).contains b =
      (b.clientId == client && (first ≤ b.day && b.day ≤ last)) := by
  obtain ⟨owner, day⟩ := b
  rw [Bool.eq_iff_iff, List.contains_iff_mem]
  simp only [rangeBuckets, List.mem_map, mem_daysBetween, Bucket.mk.injEq, Bool.and_eq_true,
    beq_iff_eq, decide_eq_true_eq]
  constructor
  · rintro ⟨d, bounds, rfl, rfl⟩
    exact ⟨rfl, bounds⟩
  · rintro ⟨rfl, bounds⟩
    exact ⟨day, bounds, rfl, rfl⟩

theorem attributedPageviews_eq (db : Warehouse) (client : UUID) (first last : Int) :
    db.attributedPageviews client first last =
      ((daysBetween first last).map fun day => valueTotal db.referrerDaily ⟨client, day⟩).sum := by
  have parts := sum_parts ValueRow.bucket (·.pageviews) _
    (rangeBuckets_nodup client first last) db.referrerDaily
  simp only [rangeBuckets_contains] at parts
  rw [Warehouse.attributedPageviews, ← parts, rangeBuckets, List.map_map]
  rfl

/-! ### Runs -/

structure Reconciling where
  db : Warehouse
  /-- The pageviews that the stored totals count. -/
  counted : List AnalyticsEvent

namespace Reconciling

variable {config : RollupConfig} {s : Reconciling}

/-- What the totals count after a sweep: in the buckets it recomputes, what its first statement
sees. -/
def countedAfter (s : Reconciling) (w : SweepWindow) : List AnalyticsEvent :=
  (s.counted.filter fun e => !(touched isPageview w s.db.events).contains e.bucket) ++
    s.db.events.filter fun e => e.isPageview && (touched isPageview w s.db.events).contains e.bucket

def next (config : RollupConfig) (s : Reconciling) (action : RollupAction) : Reconciling where
  db := s.db.next config action
  counted := match action with
    | .pageviews start _ _ _ _ => match sweepWindow config s.db.pageviewsWatermark start with
      | none => s.counted
      | some w => s.countedAfter w
    | _ => s.counted

/-- The breakdowns reconcile with the totals, and the direct traffic of a summary is the number of
counted pageviews without a referrer. -/
structure Reconciled (s : Reconciling) : Prop where
  pages : ∀ b, valueTotal s.db.pageDaily b = s.db.pageviews b
  referrers : ∀ b, valueTotal s.db.referrerDaily b ≤ s.db.pageviews b
  direct : ∀ client first last, first ≤ last → s.db.directPageviews client first last =
    (s.counted.filter fun e =>
      e.clientId == client && (first ≤ utcDay e.occurredAt && utcDay e.occurredAt ≤ last) &&
      e.referrerHost.isNone).length

/-- No pageview of a kind was committed after a sweep began in a bucket that one of its later
statements recomputes. -/
def NoneLate (kind : AnalyticsEvent → Bool) (w : SweepWindow) (before seen : List AnalyticsEvent) :
    Prop :=
  ∀ e ∈ seen, e ∉ before → e.isPageview = true → kind e = true →
    e.bucket ∉ touched isPageview w seen
  deriving Decidable

/-- In the buckets that the last statement recomputes, and the first one did not, the totals count
every pageview with a referrer that was there. -/
def CountsReferred (s : Reconciling) (w : SweepWindow) (seen : List AnalyticsEvent) : Prop :=
  ∀ e ∈ s.db.events, e.isPageview = true → e.referrerHost.isSome = true →
    e.bucket ∈ touched isPageview w seen → e.bucket ∉ touched isPageview w s.db.events →
    e ∈ s.counted
  deriving Decidable

/-- For a sweep that has a window: no pageview is committed between its first two statements where
the second one recomputes, no pageview with a referrer before the third where that one recomputes,
and the third finds no bucket of its own with a pageview that the totals lack. -/
def Undisturbed (config : RollupConfig) (s : Reconciling) : RollupAction → Prop
  | .pageviews start _ _ late₁ late₂ => ∀ w ∈ sweepWindow config s.db.pageviewsWatermark start,
    NoneLate (fun _ => true) w s.db.events (insertEvents s.db.events late₁) ∧
    NoneLate (fun e => e.referrerHost.isSome) w s.db.events
      (insertEvents (insertEvents s.db.events late₁) late₂) ∧
    s.CountsReferred w (insertEvents (insertEvents s.db.events late₁) late₂)
  | _ => True

instance (config : RollupConfig) (s : Reconciling) (action : RollupAction) :
    Decidable (s.Undisturbed config action) := by
  cases action <;> dsimp only [Undisturbed] <;> infer_instance

def countedIn (s : Reconciling) (b : Bucket) : List AnalyticsEvent := s.counted.filter fun e =>
  e.bucket == b

structure Inv (s : Reconciling) : Prop where
  unique : UniqueOn AnalyticsEvent.key s.db.events
  distinct : s.counted.Nodup
  committed : ∀ e ∈ s.counted, e ∈ s.db.events ∧ e.isPageview = true
  totals : ∀ b, s.db.pageviews b = (s.countedIn b).length
  pages : ValuesOf pageOf s.db.events s.db.pageDaily
  referrers : ValuesOf (·.referrerHost) s.db.events s.db.referrerDaily

structure Agrees (s : Reconciling) : Prop where
  pages : ∀ b, valueTotal s.db.pageDaily b = (s.countedIn b).length
  referrers : ∀ b, valueTotal s.db.referrerDaily b =
    ((s.countedIn b).filter fun e => e.referrerHost.isSome).length

/-! ### Reconciliation -/

theorem direct_eq (s : Reconciling) (client : UUID) (first last : Int) :
    (s.counted.filter fun e =>
      e.clientId == client && (first ≤ utcDay e.occurredAt && utcDay e.occurredAt ≤ last) &&
      e.referrerHost.isNone).length =
    ((daysBetween first last).map fun day =>
      ((s.countedIn ⟨client, day⟩).filter fun e => e.referrerHost.isNone).length).sum := by
  have parts := length_parts AnalyticsEvent.bucket _ (rangeBuckets_nodup client first last)
    (s.counted.filter fun e => e.referrerHost.isNone)
  simp only [rangeBuckets_contains, List.filter_filter] at parts
  refine parts.symm.trans ?_
  rw [rangeBuckets, List.map_map]
  refine congrArg List.sum (List.map_congr_left fun day _ => ?_)
  rw [countedIn, List.filter_filter]
  refine congrArg List.length (List.filter_congr fun e _ => ?_)
  exact Bool.and_comm _ _

theorem parts_of_counted (s : Reconciling) (b : Bucket) : (s.countedIn b).length =
    ((s.countedIn b).filter fun e => e.referrerHost.isSome).length +
      ((s.countedIn b).filter fun e => e.referrerHost.isNone).length := by
  have parts := (s.countedIn b).length_eq_length_filter_add fun e => e.referrerHost.isSome
  simpa using parts

/-- To reconcile is to agree with the counted pageviews. -/
theorem Inv.reconciled_iff (inv : s.Inv) : s.Reconciled ↔ s.Agrees := by
  constructor
  · intro reconciled
    refine ⟨fun b => (reconciled.pages b).trans (inv.totals b), fun b => ?_⟩
    -- The summary of a single day.
    have single : daysBetween b.day b.day = [b.day] := by
      simp [daysBetween, List.range_succ]
    have direct := reconciled.direct b.clientId b.day b.day le_rfl
    rw [direct_eq, Warehouse.directPageviews, Warehouse.seriesPageviews, attributedPageviews_eq,
      single] at direct
    simp only [List.map_cons, List.map_nil, List.sum_cons, List.sum_nil, Nat.add_zero] at direct
    have total := inv.totals b
    have parts := s.parts_of_counted b
    have bound := reconciled.referrers b
    have direct : s.db.pageviews b - valueTotal s.db.referrerDaily b =
        ((s.countedIn b).filter fun e => e.referrerHost.isNone).length := direct
    omega
  · intro agrees
    refine ⟨fun b => (agrees.pages b).trans (inv.totals b).symm, fun b =>
      ?_, fun client first last _ => ?_⟩
    · rw [agrees.referrers b, inv.totals b]
      exact List.length_filter_le _ _
    · rw [direct_eq, Warehouse.directPageviews, Warehouse.seriesPageviews, attributedPageviews_eq]
      simp only [agrees.referrers, inv.totals, parts_of_counted, List.sum_map_add]
      omega

/-! ### Steps -/

theorem countedAfter_in (s : Reconciling) (w : SweepWindow) (b : Bucket) :
    (s.countedAfter w).filter (fun e => e.bucket == b) = if b ∈ touched isPageview w s.db.events then
      bucketEvents isPageview s.db.events b else s.countedIn b := by
  rw [countedAfter, List.filter_append, List.filter_filter, List.filter_filter,
    bucketEvents_eq, countedIn]
  split
  next recomputed =>
    rw [List.filter_eq_nil_iff.mpr, List.nil_append]
    · refine List.filter_congr fun e _ => ?_
      by_cases isBucket : e.bucket = b
      · simp [isBucket, recomputed]
      · simp [beq_eq_false_iff_ne.mpr isBucket]
    · intro e _
      by_cases isBucket : e.bucket = b
      · simp [isBucket, recomputed]
      · simp [isBucket]
  next kept =>
  have nothing : (s.db.events.filter fun e => e.bucket == b && (e.isPageview &&
      (touched isPageview w s.db.events).contains e.bucket)) = [] := by
    rw [List.filter_eq_nil_iff]
    intro e _
    by_cases isBucket : e.bucket = b
    · simp [isBucket, kept]
    · simp [isBucket]
  rw [nothing, List.append_nil]
  refine List.filter_congr fun e _ => ?_
  by_cases isBucket : e.bucket = b
  · simp [isBucket, kept]
  · simp [beq_eq_false_iff_ne.mpr isBucket]

theorem Inv.countedAfter_distinct (inv : s.Inv) (w : SweepWindow) : (s.countedAfter w).Nodup := by
  refine List.Nodup.append (inv.distinct.filter _) ((List.Nodup.of_map _ inv.unique).filter _)
    fun e isOld isNew => ?_
  have kept := (List.mem_filter.mp isOld).2
  have recomputed := (List.mem_filter.mp isNew).2
  rw [Bool.and_eq_true] at recomputed
  rw [recomputed.2] at kept
  cases kept

theorem Inv.countedAfter_committed (inv : s.Inv) (w : SweepWindow) (e : AnalyticsEvent)
    (isCounted : e ∈ s.countedAfter w) : e ∈ s.db.events ∧ e.isPageview = true := by
  rcases List.mem_append.mp isCounted with old | isNew
  · exact inv.committed e (List.mem_filter.mp old).1
  · obtain ⟨isEvent, holds⟩ := List.mem_filter.mp isNew
    exact ⟨isEvent, (Bool.and_eq_true_iff.mp holds).1⟩

theorem Inv.inserted (inv : s.Inv) (late : List AnalyticsEvent) :
    Inv ⟨{ s.db with events := insertEvents s.db.events late }, s.counted⟩ := by
  have more := (insertEvents_sublist s.db.events late).subset
  refine ⟨insertEvents_unique inv.unique late, inv.distinct, fun e isCounted =>
    ?_, inv.totals, inv.pages.mono more, inv.referrers.mono more⟩
  obtain ⟨isEvent, isPageview⟩ := inv.committed e isCounted
  exact ⟨more isEvent, isPageview⟩

theorem next_pageviews {start now done : Timestamp} {late₁ late₂ : List AnalyticsEvent}
    {w : SweepWindow} (isWindow : sweepWindow config s.db.pageviewsWatermark start = some w) :
    s.next config (.pageviews start now done late₁ late₂) =
      ⟨s.db.rollupAnalyticsPageviews config start late₁ late₂, s.countedAfter w⟩ := by
  simp only [next, Warehouse.next, isWindow]

theorem next_skipped {start now done : Timestamp} {late₁ late₂ : List AnalyticsEvent}
    (skips : sweepWindow config s.db.pageviewsWatermark start = none) :
    s.next config (.pageviews start now done late₁ late₂) =
      ⟨{ s.db with events := insertEvents s.db.events (late₁ ++ late₂) }, s.counted⟩ := by
  simp only [next, Warehouse.next, skips, Warehouse.rollupAnalyticsPageviews_skipped skips]

theorem rollupAnalyticsPageviews_values {db : Warehouse} {start : Timestamp} {w : SweepWindow}
    (isWindow : sweepWindow config db.pageviewsWatermark start = some w)
    (late₁ late₂ : List AnalyticsEvent) :
    (db.rollupAnalyticsPageviews config start late₁ late₂).pageDaily = replaceOn ValueRow.key
      ((touched isPageview w (insertEvents db.events late₁)).flatMap
        (valueRows pageOf (insertEvents db.events late₁) start)) db.pageDaily ∧
    (db.rollupAnalyticsPageviews config start late₁ late₂).referrerDaily = replaceOn ValueRow.key
      ((touched isPageview w (insertEvents (insertEvents db.events late₁) late₂)).flatMap
        (valueRows (·.referrerHost) (insertEvents (insertEvents db.events late₁) late₂) start))
          db.referrerDaily := by
  unfold Warehouse.rollupAnalyticsPageviews
  simp only [isWindow, and_self]

theorem Inv.next (inv : s.Inv) (action : RollupAction) : (s.next config action).Inv := by
  cases action with
  | commit now e => exact inv.inserted [e]
  | daily start now =>
    obtain ⟨eventDaily, mark, same⟩ := s.db.rollupAnalyticsDaily_frame config start
    simp only [Reconciling.next, Warehouse.next, same]
    exact ⟨inv.unique, inv.distinct, inv.committed, inv.totals, inv.pages, inv.referrers⟩
  | pageviews start now done late₁ late₂ =>
    cases isWindow : sweepWindow config s.db.pageviewsWatermark start with
    | none =>
      rw [next_skipped isWindow]
      exact inv.inserted (late₁ ++ late₂)
    | some w =>
      rw [next_pageviews isWindow]
      have events := s.db.rollupAnalyticsPageviews_events config start late₁ late₂
      have more : s.db.events ⊆ (s.db.rollupAnalyticsPageviews config start late₁ late₂).events :=
        events ▸ (insertEvents_sublist s.db.events (late₁ ++ late₂)).subset
      obtain ⟨pages, referrers⟩ := rollupAnalyticsPageviews_values isWindow late₁ late₂
      constructor
      · rw [events]
        exact insertEvents_unique inv.unique _
      · exact inv.countedAfter_distinct w
      · intro e isCounted
        obtain ⟨isEvent, isPageview⟩ := inv.countedAfter_committed w e isCounted
        exact ⟨more isEvent, isPageview⟩
      · intro b
        rw [Warehouse.rollupAnalyticsPageviews_pageviews isWindow, recount, countedIn, countedAfter_in]
        split
        · rfl
        · exact inv.totals b
      · rw [pages]
        have first := (insertEvents_sublist s.db.events late₁).subset
        refine ((inv.pages.mono first).replaced _ start).mono ?_
        rw [events, ← insertEvents_append]
        exact (insertEvents_sublist _ late₂).subset
      · rw [referrers, events, ← insertEvents_append]
        refine (inv.referrers.mono ?_).replaced _ start
        rw [insertEvents_append]
        exact (insertEvents_sublist s.db.events (late₁ ++ late₂)).subset
  | rolledBack now =>
    exact ⟨inv.unique, inv.distinct, inv.committed, inv.totals, inv.pages, inv.referrers⟩

/-! ### What a sweep has to find -/

section Sweep

variable {start now done : Timestamp} {late₁ late₂ : List AnalyticsEvent} {w : SweepWindow}

/-- What the totals count in a bucket after the sweep was there for its first statement. -/
theorem mem_countedAfter {e : AnalyticsEvent} : e ∈ s.countedAfter w ↔
    (e ∈ s.db.events ∧ e.isPageview = true ∧ e.bucket ∈ touched isPageview w s.db.events) ∨
      (e ∈ s.counted ∧ e.bucket ∉ touched isPageview w s.db.events) := by
  simp only [countedAfter, List.mem_append, List.mem_filter, Bool.not_eq_true',
    List.contains_eq_mem, decide_eq_false_iff_not, Bool.and_eq_true, decide_eq_true_eq]
  tauto

/-- A statement that sees `events` and recomputes its buckets by a value agrees with the totals
exactly when every pageview with a value in such a bucket is counted. -/
theorem Inv.total_iff (inv : s.Inv) (w : SweepWindow) (start : Timestamp)
    {value : AnalyticsEvent → Option String} {events : List AnalyticsEvent} {rows : List ValueRow}
    (valuesOf : ValuesOf value events rows) (unique : UniqueOn AnalyticsEvent.key events)
    (more : s.db.events ⊆ events)
    (agrees : ∀ b, valueTotal rows b = ((s.countedIn b).filter fun e => (value e).isSome).length) :
    (∀ b, valueTotal (replaceOn ValueRow.key
        ((touched isPageview w events).flatMap (valueRows value events start)) rows) b =
      (((s.countedAfter w).filter fun e => e.bucket == b).filter fun e => (value e).isSome).length) ↔
    ∀ e ∈ events, e.isPageview = true → (value e).isSome = true →
      e.bucket ∈ touched isPageview w events → e ∈ s.countedAfter w := by
  have distinctBuckets : (touched isPageview w events).Nodup := List.nodup_dedup _
  have total := valueTotal_replaced valuesOf distinctBuckets start
  have part (b : Bucket) :
      (((s.countedAfter w).filter fun e => e.bucket == b).filter fun e => (value e).isSome) ⊆
      (bucketEvents isPageview events b).filter fun e => (value e).isSome := by
    intro e isCounted
    obtain ⟨isCounted, hasValue⟩ := List.mem_filter.mp isCounted
    obtain ⟨isCounted, isBucket⟩ := List.mem_filter.mp isCounted
    obtain ⟨isEvent, isPageview⟩ := inv.countedAfter_committed w e isCounted
    exact List.mem_filter.mpr
      ⟨mem_bucketEvents.mpr ⟨more isEvent, isPageview, beq_iff_eq.mp isBucket⟩, hasValue⟩
  have whole (b : Bucket) :
      ((bucketEvents isPageview events b).filter fun e => (value e).isSome).Nodup := by
    rw [bucketEvents_eq]
    exact ((List.Nodup.of_map _ unique).filter _).filter _
  have distinct (b : Bucket) := ((inv.countedAfter_distinct w).filter
        (fun e => e.bucket == b)).filter fun e => (value e).isSome
  constructor
  · intro same e isEvent isPageview hasValue recomputed
    have lengths := same e.bucket
    rw [total, if_pos recomputed, length_filterMap] at lengths
    have covers := (length_eq_iff_subset (distinct e.bucket) (whole e.bucket) (part e.bucket)).mp lengths
    have member :=
      covers (List.mem_filter.mpr ⟨mem_bucketEvents.mpr ⟨isEvent, isPageview, rfl⟩, hasValue⟩)
    exact (List.mem_filter.mp (List.mem_filter.mp member).1).1
  · intro counted b
    rw [total]
    split
    next recomputed =>
      rw [length_filterMap]
      refine (length_eq_iff_subset (distinct b) (whole b) (part b)).mpr fun e isEvent => ?_
      obtain ⟨ofBucket, hasValue⟩ := List.mem_filter.mp isEvent
      obtain ⟨committed, isPageview, rfl⟩ := mem_bucketEvents.mp ofBucket
      refine List.mem_filter.mpr ⟨List.mem_filter.mpr ⟨?_, beq_self_eq_true _⟩, hasValue⟩
      exact counted e committed isPageview hasValue recomputed
    next kept =>
    have untouched : b ∉ touched isPageview w s.db.events := fun isTouched =>
      kept (touched_mono more isTouched)
    rw [countedAfter_in, if_neg untouched]
    exact agrees b

theorem Inv.agrees_iff_of_window (inv : s.Inv) (agrees : s.Agrees)
    (isWindow : sweepWindow config s.db.pageviewsWatermark start = some w) :
    (s.next config (.pageviews start now done late₁ late₂)).Agrees ↔
      s.Undisturbed config (.pageviews start now done late₁ late₂) := by
  have first : s.db.events ⊆ insertEvents s.db.events late₁ :=
    (insertEvents_sublist s.db.events late₁).subset
  have second : s.db.events ⊆ insertEvents (insertEvents s.db.events late₁) late₂ :=
    List.Subset.trans first (insertEvents_sublist _ late₂).subset
  have unique := insertEvents_unique inv.unique late₁
  obtain ⟨pageRows, referrerRows⟩ := rollupAnalyticsPageviews_values isWindow late₁ late₂
  have every (xs : List AnalyticsEvent) : (xs.filter fun e => (pageOf e).isSome) = xs :=
    List.filter_eq_self.mpr fun _ _ => rfl
  have oldPages (b : Bucket) :
      valueTotal s.db.pageDaily b = ((s.countedIn b).filter fun e => (pageOf e).isSome).length := by
    rw [every]
    exact agrees.pages b
  have pages := inv.total_iff w start (inv.pages.mono first) unique first oldPages
  have referrers :=
    inv.total_iff w start (inv.referrers.mono second) (insertEvents_unique unique late₂) second
    agrees.referrers
  rw [← pageRows] at pages
  rw [← referrerRows] at referrers
  rw [next_pageviews isWindow]
  constructor
  · intro agrees' w' isWindow'
    obtain rfl : w = w' := Option.some.inj (isWindow.symm.trans isWindow')
    have countedPages := pages.mp fun b => by rw [every]; exact agrees'.pages b
    have countedReferrers := referrers.mp agrees'.referrers
    refine ⟨?_, ?_, ?_⟩
    · intro e isEvent isLate isPageview _ recomputed
      exact isLate (inv.countedAfter_committed w e (countedPages e isEvent isPageview rfl recomputed)).1
    · intro e isEvent isLate isPageview hasReferrer recomputed
      exact isLate (inv.countedAfter_committed w e
        (countedReferrers e isEvent isPageview hasReferrer recomputed)).1
    · intro e isEvent isPageview hasReferrer recomputed untouched
      rcases mem_countedAfter.mp
        (countedReferrers e (second isEvent) isPageview hasReferrer recomputed) with
        ⟨-, -, isTouched⟩ | ⟨isCounted, -⟩
      · exact absurd isTouched untouched
      · exact isCounted
  · intro undisturbed
    obtain ⟨noPageview, noReferrer, oldReferrer⟩ := undisturbed w isWindow
    constructor
    · intro b
      have total := pages.mpr ?_ b
      · rwa [every] at total
      · intro e isEvent isPageview _ recomputed
        by_cases old : e ∈ s.db.events
        · -- Only a pageview that was there when the sweep began touches the bucket.
          obtain ⟨f, isEvent', inWindow, isPageview', sameBucket⟩ := mem_touched.mp recomputed
          by_cases old' : f ∈ s.db.events
          · exact mem_countedAfter.mpr
              (.inl ⟨old, isPageview, mem_touched.mpr ⟨f, old', inWindow, isPageview', sameBucket⟩⟩)
          · exact absurd (sameBucket ▸ recomputed) (noPageview f isEvent' old' isPageview' rfl)
        · exact absurd recomputed (noPageview e isEvent old isPageview rfl)
    · refine referrers.mpr fun e isEvent isPageview hasReferrer recomputed => ?_
      by_cases old : e ∈ s.db.events
      · by_cases isTouched : e.bucket ∈ touched AnalyticsEvent.isPageview w s.db.events
        · exact mem_countedAfter.mpr (.inl ⟨old, isPageview, isTouched⟩)
        · exact mem_countedAfter.mpr
            (.inr ⟨oldReferrer e old isPageview hasReferrer recomputed isTouched, isTouched⟩)
      · exact absurd recomputed (noReferrer e isEvent old isPageview hasReferrer)

end Sweep

/-- The breakdowns agree after a sweep exactly when nothing disturbs it. -/
theorem Inv.agrees_iff (inv : s.Inv) (agrees : s.Agrees) (action : RollupAction) :
    (s.next config action).Agrees ↔ s.Undisturbed config action := by
  cases action with
  | commit | rolledBack => exact iff_of_true ⟨agrees.pages, agrees.referrers⟩ trivial
  | daily start now =>
    obtain ⟨eventDaily, mark, same⟩ := s.db.rollupAnalyticsDaily_frame config start
    refine iff_of_true ?_ trivial
    simp only [Reconciling.next, Warehouse.next, same]
    exact ⟨agrees.pages, agrees.referrers⟩
  | pageviews start now done late₁ late₂ =>
    cases isWindow : sweepWindow config s.db.pageviewsWatermark start with
    | none =>
      rw [next_skipped isWindow]
      refine iff_of_true ⟨agrees.pages, agrees.referrers⟩ fun w found => ?_
      rw [isWindow] at found
      cases found
    | some w => exact inv.agrees_iff_of_window agrees isWindow

theorem Inv.fresh : Inv ⟨⟨[], [], [], [], [], none, none⟩, []⟩ := by
  refine ⟨UniqueOn.nil _, List.nodup_nil, List.forall_mem_nil _, fun _ => rfl, ?_, ?_⟩
  · exact List.forall_mem_nil _
  · exact List.forall_mem_nil _

end Reconciling

open Reconciling

/-- The breakdowns reconcile after every step of a run exactly when nothing disturbs its sweeps. -/
theorem reconciled_iff_undisturbed {config : RollupConfig} {s : Reconciling}
    {actions : List RollupAction} (inv : s.Inv) (start : s.Reconciled) :
    Along (next config) (fun s action => (s.next config action).Reconciled) s actions ↔
      Along (next config) (Undisturbed config) s actions := by
  have kept (s : Reconciling) (action : RollupAction) (inv : s.Inv) : (s.next config action).Inv :=
    inv.next action
  have decided (s : Reconciling) (action : RollupAction) (inv : s.Inv) (reconciled : s.Reconciled) :
      (s.next config action).Reconciled ↔ s.Undisturbed config action := by
    rw [(inv.next action).reconciled_iff]
    exact inv.agrees_iff (inv.reconciled_iff.mp reconciled) action
  exact Along.iff_of_step Reconciled decided kept inv start

namespace Sample

def nothingCounted : Reconciling := ⟨noEvents, []⟩

theorem nothingCounted_reconciled : nothingCounted.Reconciled := by
  refine Inv.fresh.reconciled_iff.mpr ⟨fun _ => rfl, fun _ => rfl⟩

/-- Two pageviews, two sweeps, and a third pageview while the last sweep has nothing to
recompute. -/
def quietDay : List RollupAction :=
  [.commit 10000000 (pageview 1 10000000 none),
    .commit 20000000 (pageview 2 20000000 (some "news.example")),
   .pageviews 100000000 100000000 101000000 [] [], .pageviews 900000000 900000000 901000000 [] [],
   .pageviews 1800000000 1800000000 1801000000 [pageview 3 1800000000 none] []]

theorem quietDay_reconciles : Along (next rollupConfig)
    (fun s action => (s.next rollupConfig action).Reconciled) nothingCounted quietDay :=
  (reconciled_iff_undisturbed Inv.fresh nothingCounted_reconciled).mpr
    (by decide +kernel)

/-- A pageview with a referrer is committed after the total of its day was written, and before the
pages are. -/
def busyDay : List RollupAction :=
  [.commit 10000000 (pageview 1 10000000 none),
   .pageviews 100000000 100000000 101000000 [pageview 2 100000000 (some "news.example")] []]

/-- The total counts one pageview, without a referrer; the pages count two, and the summary shows no
direct traffic. -/
theorem busyDay_disagrees :
    (busyDay.foldl (next rollupConfig) nothingCounted).db.pageviews ⟨1, 0⟩ = 1 ∧
    valueTotal (busyDay.foldl (next rollupConfig) nothingCounted).db.pageDaily
      ⟨1, 0⟩ = 2 ∧
    (busyDay.foldl (next rollupConfig) nothingCounted).db.directPageviews 1 0 0 = 0 ∧
    (busyDay.foldl (next rollupConfig) nothingCounted).counted =
      [pageview 1 10000000 none] ∧
    ¬ (busyDay.foldl (next rollupConfig) nothingCounted).Reconciled := by
  refine ⟨by decide +kernel, by decide +kernel, by decide +kernel, by decide +kernel,
    fun reconciled => ?_⟩
  exact absurd (reconciled.pages ⟨1, 0⟩) (by decide +kernel)

end Sample

end Manyforge.Analytics
