import Manyforge.Analytics.Properties

/-!
# Breakdowns under the cap

What one sweep of `rollup_analytics_dimensions` leaves for a bucket and a dimension that it
recomputes: the most frequent values under their own names and the others folded into `(other)`, a
name that a site may send itself.
-/
namespace Manyforge.Analytics

open Table
open AnalyticsEvent (isCustom isPageview)

/-- The dimensions that the sweep recomputes, with the events that each counts and their value. -/
def sweptDimensions :
    List (Dimension × (AnalyticsEvent → Bool) × (AnalyticsEvent → Option String)) :=
  pageviewDimensions.map (fun d => (d.1, isPageview, d.2)) ++
    [(.event, isCustom, fun e => some e.name)]

def Governance.breakdown (db : Governance) (dimension : Dimension) (b : Bucket) :
    List DimensionRow :=
  db.dimensionDaily.filter fun row => row.dimension == dimension && row.bucket == b

/-! ### Ranks -/

section

variable {cap : Nat} {values : List String}

instance : Std.Total (ranksBefore values) := ⟨fun a b => by
  rcases Nat.lt_trichotomy (values.count a) (values.count b) with less | same | more
  · exact .inr (.inl less)
  · exact (String.le_total a b).imp (fun le => .inr ⟨same, le⟩) fun le => .inr ⟨same.symm, le⟩
  · exact .inl (.inl more)⟩

instance : IsTrans String (ranksBefore values) := ⟨fun a b c first second => by
  rcases first with more | ⟨same, le⟩ <;> rcases second with more' | ⟨same', le'⟩
  · exact .inl (by omega)
  · exact .inl (by omega)
  · exact .inl (by omega)
  · exact .inr ⟨by omega, String.le_trans le le'⟩⟩

theorem keptValues_eq :
    keptValues cap values = selectFirst (fun _ => true) (ranksBefore values) cap values.dedup := by
  rw [keptValues, selectFirst, List.filter_true]

/-- A value that is folded is not more frequent than one that keeps its name. -/
theorem count_le_of_kept {v u : String} (kept : v ∈ keptValues cap values) (present : u ∈ values)
    (folded : u ∉ keptValues cap values) : values.count u ≤ values.count v := by
  rw [keptValues_eq] at kept folded
  rcases before_of_not_mem_selectFirst
    (List.mem_dedup.mpr present) rfl folded v kept with more | ⟨same, -⟩ <;> omega

theorem foldedValue_mem (v : String) :
    foldedValue cap values v ∈ "(other)" :: keptValues cap values := by
  unfold foldedValue
  split
  next kept => exact List.mem_cons_of_mem _ (List.contains_iff_mem.mp kept)
  next => exact List.mem_cons_self

theorem foldedValue_eq_iff {v u : String} (named : v ≠ "(other)")
    (kept : v ∈ keptValues cap values) :
    foldedValue cap values u = v ↔ u = v := by
  unfold foldedValue
  split
  next => exact Iff.rfl
  next folded =>
  constructor
  · exact fun same => absurd same.symm named
  · rintro rfl
    exact absurd (List.contains_iff_mem.mpr kept) folded

end

section

variable {cap : Nat} {dimension : Dimension} {value : AnalyticsEvent → Option String}
  {events : List AnalyticsEvent}
variable {now : Timestamp} {b : Bucket}

theorem length_dimensionRows_le :
    (dimensionRows cap dimension value events now b).length ≤ cap + 1 := by
  have names :
      (events.filterMap fun e => (value e).map (foldedValue cap (events.filterMap value))).dedup ⊆
      "(other)" :: keptValues cap (events.filterMap value) := by
    intro name member
    obtain ⟨e, -, isName⟩ := List.mem_filterMap.mp (List.mem_dedup.mp member)
    obtain ⟨v, -, rfl⟩ := Option.map_eq_some_iff.mp isName
    exact foldedValue_mem v
  have short := (List.subperm_of_subset (List.nodup_dedup _) names).length_le
  have kept : (keptValues cap (events.filterMap value)).length ≤ cap := List.length_take_le _ _
  simp only [dimensionRows, groups, List.length_map, List.length_cons] at short ⊢
  omega

/-- Only the row of the folded values can count another value than its own. -/
theorem dimensionRows_named {row : DimensionRow}
    (isRow : row ∈ dimensionRows cap dimension value events now b) (named : row.value ≠ "(other)") :
    row.value ∈ keptValues cap (events.filterMap value) ∧
      row.pageviews = (events.filterMap value).count row.value := by
  obtain ⟨group, isGroup, rfl⟩ := List.mem_map.mp isRow
  obtain ⟨v, isName, rfl⟩ := List.mem_map.mp isGroup
  obtain ⟨e, -, isName⟩ := List.mem_filterMap.mp (List.mem_dedup.mp isName)
  obtain ⟨u, -, rfl⟩ := Option.map_eq_some_iff.mp isName
  have kept := (List.mem_cons.mp (foldedValue_mem u)).resolve_left named
  have same : (events.filter fun e => (value e).map (foldedValue cap (events.filterMap value)) ==
      some (foldedValue cap (events.filterMap value) u)) =
      events.filter fun e => value e == some (foldedValue cap (events.filterMap value) u) := by
    refine List.filter_congr fun e' _ => ?_
    cases value e' with
    | none => rfl
    | some u' =>
      rw [Bool.eq_iff_iff, Option.map_some, beq_iff_eq, beq_iff_eq, Option.some.injEq, Option.some.injEq]
      exact foldedValue_eq_iff named kept
  exact ⟨kept, (congrArg List.length same).trans (length_group _)⟩

theorem dimensionRows_values : (dimensionRows cap dimension value events now b).map (·.value) =
    (events.filterMap fun e => (value e).map (foldedValue cap (events.filterMap value))).dedup := by
  simp [dimensionRows, groups, Function.comp_def]

/-- A value that keeps its name has a row. -/
theorem kept_mem_dimensionRows {v : String} (kept : v ∈ keptValues cap (events.filterMap value)) :
    v ∈ (dimensionRows cap dimension value events now b).map (·.value) := by
  have present : v ∈ events.filterMap value := by
    rw [keptValues_eq] at kept
    exact List.mem_dedup.mp (mem_selectFirst kept).1
  obtain ⟨e, isEvent, isValue⟩ := List.mem_filterMap.mp present
  rw [dimensionRows_values, List.mem_dedup]
  refine List.mem_filterMap.mpr ⟨e, isEvent, ?_⟩
  rw [isValue, Option.map_some, foldedValue, if_pos (List.contains_iff_mem.mpr kept)]

theorem dimensionRows_columns (now' : Timestamp) :
    (dimensionRows cap dimension value events now' b).map (fun row =>
      (row.value, row.pageviews, row.visitors)) =
      (dimensionRows cap dimension value events now b).map fun row =>
        (row.value, row.pageviews, row.visitors) := by
  simp only [dimensionRows, List.map_map]
  rfl

end

namespace Governance

variable {config : RollupConfig} {db : Governance} {start : Timestamp} {late : List AnalyticsEvent}
  {w : SweepWindow}
variable {cap : Nat} {dimension : Dimension} {kept : AnalyticsEvent → Bool}
  {value : AnalyticsEvent → Option String}

theorem breakdown_swept (isSwept : (dimension, kept, value) ∈ sweptDimensions)
    (isWindow : sweepWindow config db.dimensionsWatermark start = some w) (b : Bucket) :
    (db.rollupAnalyticsDimensions config start cap late).breakdown dimension b =
      if b ∈ touched kept w db.events then
        dimensionRows cap dimension value (bucketEvents kept (insertEvents db.events late) b) start b
      else db.breakdown dimension b := by
  refine (rollupAnalyticsDimensions_rows cap isWindow dimension b).trans ?_
  rcases List.mem_append.mp isSwept with ofPageview | isEvent
  · obtain ⟨d, isDimension, same⟩ := List.mem_map.mp ofPageview
    cases same
    have notEvent : d.1 ≠ .event := by
      rintro isEvent
      have absent : Dimension.event ∉ pageviewDimensions.map Prod.fst := by decide
      exact absent (isEvent ▸ List.mem_map_of_mem isDimension)
    rw [if_neg notEvent, cell_madeRows isPageview nodup_touched (by decide) isDimension,
      cell_madeRows_absent isCustom (by simpa using notEvent), List.append_nil]
    split <;> simp [breakdown, cell]
  · cases List.mem_singleton.mp isEvent
    have one : UniqueOn Prod.fst [(Dimension.event, fun e : AnalyticsEvent => some e.name)] :=
      List.nodup_singleton _
    rw [if_pos rfl, cell_madeRows_absent isPageview (by decide),
      cell_madeRows isCustom nodup_touched one (List.mem_singleton_self _), List.append_nil]
    split <;> simp [breakdown, cell]

/-- What one sweep leaves for a bucket and a dimension that it recomputes, and what the next sweep
over the same events leaves. -/
theorem rollupAnalyticsDimensions_conserves {b : Bucket}
    (isSwept : (dimension, kept, value) ∈ sweptDimensions)
    (isWindow : sweepWindow config db.dimensionsWatermark start = some w)
    (recomputed : b ∈ touched kept w db.events) (start' : Timestamp) :
    let swept := db.rollupAnalyticsDimensions config start cap late
    let values := (bucketEvents kept swept.events b).filterMap value
    ((swept.breakdown dimension b).map (·.pageviews)).sum = values.length ∧
      (swept.breakdown dimension b).length ≤ cap + 1 ∧
      (∀ v ∈ keptValues cap values, ∀ u ∈ values, u ∉ keptValues cap values →
        values.count u ≤ values.count v) ∧
      (∀ row ∈ swept.breakdown dimension b, row.value ≠ "(other)" →
        row.value ∈ keptValues cap values ∧ row.pageviews = values.count row.value) ∧
      ((swept.breakdown dimension b).map (·.value)).Nodup ∧
      (∀ v ∈ keptValues cap values, v ∈ (swept.breakdown dimension b).map (·.value)) ∧
      ((swept.rollupAnalyticsDimensions config start' cap []).breakdown dimension b).map
          (fun row => (row.value, row.pageviews, row.visitors)) =
        (swept.breakdown dimension b).map fun row => (row.value, row.pageviews, row.visitors) := by
  intro swept values
  obtain ⟨dimensionDaily, watermark, isDatabase⟩ :=
    rollupAnalyticsDimensions_frame config db start cap late
  have events : swept.events = insertEvents db.events late := congrArg Governance.events isDatabase
  have rows : swept.breakdown dimension b =
      dimensionRows cap dimension value (bucketEvents kept swept.events b) start b := by
    rw [breakdown_swept isSwept isWindow, if_pos recomputed, events]
  refine ⟨?_, rows ▸ length_dimensionRows_le, fun v isKept u present folded =>
    count_le_of_kept isKept present folded,
    rows ▸ fun row isRow named => dimensionRows_named isRow named, ?_,
    rows ▸ fun v isKept => kept_mem_dimensionRows isKept, ?_⟩
  · rw [rows, sum_dimensionRows, length_filterMap]
  · rw [rows, dimensionRows_values]
    exact List.nodup_dedup _
  · cases isWindow' : sweepWindow config swept.dimensionsWatermark start' with
    | none => simp only [rollupAnalyticsDimensions, isWindow', breakdown]
    | some w' =>
      rw [breakdown_swept isSwept isWindow']
      split
      next => rw [rows]; exact dimensionRows_columns start'
      next => rfl

end Governance

namespace Sample

/-- Five visits in one day; one of the sources is the name of the folded row. -/
def visits : Governance :=
  let visit (id : UUID) (source : String) :=
    { pageview id (10000000 + id) none with utmSource := some source }
  ⟨[visit 1 "news", visit 2 "news", visit 3 "(other)", visit 4 "(other)", visit 5 "blog"], [], [],
    none, none, 0⟩

theorem rollupAnalyticsDimensions_conserves_visits :
    let swept := visits.rollupAnalyticsDimensions rollupConfig 100000000 2 []
    (swept.breakdown .utmSource ⟨1, 0⟩).map (fun row => (row.value, row.pageviews)) =
      [("news", 2), ("(other)", 3)] ∧
      ((swept.breakdown .utmSource ⟨1, 0⟩).map (·.pageviews)).sum = 5 := by
  have conserves := @Governance.rollupAnalyticsDimensions_conserves rollupConfig visits 100000000 []
    ⟨none, 70000000⟩ 2
    .utmSource isPageview (·.utmSource) ⟨1, 0⟩
    (List.mem_append_left _ (List.mem_map_of_mem List.mem_cons_self)) rfl (by decide +kernel) 200000000
  exact ⟨by decide +kernel, conserves.1⟩

end Sample

end Manyforge.Analytics
