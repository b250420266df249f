import Manyforge.Analytics.Events
import Manyforge.Lib.Transition

/-!
# Governed properties

The breakdowns of custom events by a governed property share the table `analytics_dimension_daily`
with the breakdowns of pageviews, under a watermark of their own. `rollup_analytics_dimensions`
deletes what it is about to recompute, and with the breakdowns of the pageviews of a day the rows of
the properties, which only `rollup_analytics_properties` writes again, and only for a day with a
recent custom event.
-/
namespace Manyforge.Analytics

open Table Transition

structure PropertyRule where
  (id clientId : UUID)
  (eventName propertyKey label : String)
  (enabledAt updatedAt : Timestamp)
  deriving DecidableEq

/-- `analytics_dimension_daily.dimension`; a property's is `property:` and the id of its rule. -/
inductive Dimension
  | utmSource
  | utmMedium
  | utmCampaign
  | device
  | browser
  | country
  | event
  | property (rule : UUID)
  deriving DecidableEq

/-- `dimension LIKE 'property:%'`. -/
def Dimension.isProperty : Dimension → Bool
  | .property _ => true
  | _ => false

/-- `analytics_dimension_daily`. -/
structure DimensionRow where
  bucket : Bucket
  dimension : Dimension
  value : String
  (pageviews visitors : Nat)
  updatedAt : Timestamp
  deriving DecidableEq

structure Governance where
  events : List AnalyticsEvent
  rules : List PropertyRule
  dimensionDaily : List DimensionRow
  (dimensionsWatermark propertiesWatermark : Option Timestamp)
  /-- The next id of a rule; generated ids do not repeat. -/
  nextRuleId : UUID

/-! ### Breakdowns -/

variable (r : PropertyRule) (e : AnalyticsEvent)

def AnalyticsEvent.isCustom : Bool := e.name != "pageview" && !e.isBot

/-- `ORDER BY count(*) DESC, value`. -/
def ranksBefore (values : List String) (a b : String) : Prop :=
  values.count b < values.count a ∨ (values.count a = values.count b ∧ a ≤ b)
  deriving Decidable

def keptValues (cap : Nat) (values : List String) : List String :=
  (values.dedup.insertionSort (ranksBefore values)).take cap

/-- The value of the row in which an event is counted. -/
def foldedValue (cap : Nat) (values : List String) (v : String) : String :=
  if (keptValues cap values).contains v then v else "(other)"

def dimensionRows (cap : Nat) (dimension : Dimension) (value : AnalyticsEvent → Option String)
    (events : List AnalyticsEvent) (now : Timestamp) (b : Bucket) : List DimensionRow :=
  (groups (fun e => (value e).map (foldedValue cap (events.filterMap value))) events).map fun g =>
    ⟨b, dimension, g.1, g.2.length, visitors g.2, now⟩

def pageviewDimensions : List (Dimension × (AnalyticsEvent → Option String)) :=
  [(.utmSource, (·.utmSource)), (.utmMedium, (·.utmMedium)), (.utmCampaign, (·.utmCampaign)),
    (.device, (·.deviceType)), (.browser, (·.browser)), (.country, (·.country))]

/-- `e.props ? key`. -/
def AnalyticsEvent.hasProperty (key : String) : Bool := (e.props.lookup key).isSome

/-- `e.props->>key`, for a string, number or boolean. -/
def AnalyticsEvent.scalarProperty (key : String) : Option String :=
  match e.props.lookup key with
  | some (.scalar text) => some text
  | _ => none

/-- The rule is about the event, which happened since it is in force. -/
def PropertyRule.governs : Bool :=
  r.clientId == e.clientId && r.eventName == e.name && r.enabledAt ≤ e.occurredAt

/-- The value that an event is counted under for a rule. -/
def PropertyRule.valueOf : Option String :=
  if r.governs e then e.scalarProperty r.propertyKey else none

theorem governs_of_valueOf {r : PropertyRule} {e : AnalyticsEvent}
    (hasValue : (r.valueOf e).isSome = true) :
    (r.governs e && e.hasProperty r.propertyKey) = true := by
  unfold PropertyRule.valueOf at hasValue
  split at hasValue
  next governs =>
    rw [governs, Bool.true_and, AnalyticsEvent.hasProperty]
    unfold AnalyticsEvent.scalarProperty at hasValue
    split at hasValue
    next found => rw [found, Option.isSome_some]
    next => cases hasValue
  next => cases hasValue

/-- The events that touch a property bucket. -/
def hasGovernedProperty (rules : List PropertyRule) (e : AnalyticsEvent) : Bool :=
  e.isCustom && rules.any fun r => r.governs e && e.hasProperty r.propertyKey

/-! ### Calls -/

/-- A rule as `analytics_replace_property_rules` is given it. -/
structure RuleSpec where
  (eventName propertyKey label : String)
  deriving DecidableEq

def RuleSpec.pair (spec : RuleSpec) : String × String := (spec.eventName, spec.propertyKey)

def PropertyRule.pair : String × String := (r.eventName, r.propertyKey)

/-- The checks of `analytics_replace_property_rules`; `wellFormed` are those on the characters of a
rule. -/
def specsValid (wellFormed : RuleSpec → Bool) (specs : List RuleSpec) : Bool :=
  specs.length ≤ 20 && specs.all (fun spec => wellFormed spec && spec.eventName != "pageview") &&
    decide (specs.map RuleSpec.pair).Nodup &&
    specs.all fun spec => (specs.filter fun other => other.eventName == spec.eventName).length ≤ 6

open AnalyticsEvent (isPageview isCustom)

namespace Governance

variable (config : RollupConfig)

/-- `rollup_analytics_dimensions`; `late` is committed after the touched buckets are read. -/
def rollupAnalyticsDimensions (db : Governance) (start : Timestamp) (cap : Nat)
    (late : List AnalyticsEvent) : Governance :=
  match sweepWindow config db.dimensionsWatermark start with
  | none => { db with events := insertEvents db.events late }
  | some w =>
    { db with
      events := insertEvents db.events late
      dimensionDaily :=
        (db.dimensionDaily.filter fun row =>
          !((touched isPageview w db.events).contains row.bucket && row.dimension != .event ||
            (touched isCustom w db.events).contains row.bucket && row.dimension == .event)) ++
        ((touched isPageview w db.events).flatMap fun b => pageviewDimensions.flatMap fun d =>
          dimensionRows cap d.1 d.2 (bucketEvents isPageview (insertEvents db.events late) b) start b) ++
        ((touched isCustom w db.events).flatMap fun b =>
          dimensionRows cap .event (fun e => some e.name)
            (bucketEvents isCustom (insertEvents db.events late) b) start b)
      dimensionsWatermark := some w.hi }

/-- `greatest(1, least(p_max_values, 20))`. -/
def valueCap (maxValues : Int) : Nat := (max 1 (min maxValues 20)).toNat

/-- `rollup_analytics_properties`; without touched buckets its statements change nothing but the
watermark. -/
def rollupAnalyticsProperties (db : Governance) (start : Timestamp) (maxValues : Int)
    (late : List AnalyticsEvent) : Governance :=
  match sweepWindow config db.propertiesWatermark start with
  | none => { db with events := insertEvents db.events late }
  | some w =>
    { db with
      events := insertEvents db.events late
      dimensionDaily :=
        (db.dimensionDaily.filter fun row =>
          !((touched (hasGovernedProperty db.rules) w db.events).contains row.bucket &&
            row.dimension.isProperty)) ++
        ((touched (hasGovernedProperty db.rules) w db.events).flatMap fun b => db.rules.flatMap fun r =>
          dimensionRows (valueCap maxValues) (.property r.id) r.valueOf
            (bucketEvents isCustom (insertEvents db.events late) b) start b)
      propertiesWatermark := some w.hi }

/-- The rules of other clients, and those whose pair is asked for again. -/
def keepsRule (client : UUID) (specs : List RuleSpec) (r : PropertyRule) : Bool :=
  r.clientId != client || (specs.map RuleSpec.pair).contains r.pair

/-- The insert of one rule, which gives an existing rule its new label. -/
def upsertRule (now : Timestamp) (client : UUID) (db : Governance) (spec : RuleSpec) : Governance :=
  if db.rules.any fun r => r.clientId == client && r.pair == spec.pair then
    { db with
      rules := updateWhere (fun r => r.clientId == client && r.pair == spec.pair)
        (fun r => { r with label := spec.label, updatedAt := now }) db.rules }
  else
    { db with
      rules := db.rules ++
        [⟨db.nextRuleId, client, spec.eventName, spec.propertyKey, spec.label, now, now⟩]
      nextRuleId := db.nextRuleId + 1 }

/-- The two deletions of `analytics_replace_property_rules`. -/
def dropRules (db : Governance) (client : UUID) (specs : List RuleSpec) : Governance :=
  { db with
    dimensionDaily := db.dimensionDaily.filter fun row =>
      !(db.rules.any fun r => r.clientId == client && row.bucket.clientId == r.clientId &&
        row.dimension == .property r.id && !keepsRule client specs r)
    rules := db.rules.filter (keepsRule client specs) }

/-- `analytics_replace_property_rules`; `found` is whether the client is active and the caller may
configure it. -/
def replacePropertyRules (wellFormed : RuleSpec → Bool) (db : Governance) (now : Timestamp)
    (client : UUID) (specs : List RuleSpec) (found : Bool) : Governance :=
  if specsValid wellFormed specs && found then
    specs.foldl (upsertRule now client) (db.dropRules client specs) else db

end Governance

/-! ### Runs -/

inductive PropertyAction
  | insert (e : AnalyticsEvent)
  | dimensions (start : Timestamp) (cap : Nat) (late : List AnalyticsEvent)
  | properties (start : Timestamp) (maxValues : Int) (late : List AnalyticsEvent)
  | replaceRules (now : Timestamp) (client : UUID) (specs : List RuleSpec) (found : Bool)
  | rolledBack

/-- The tables, and which events the sweeps of the properties have covered for which rule. -/
structure Governed where
  db : Governance
  covered : List (UUID × AnalyticsEvent)

namespace Governed

variable (config : RollupConfig) (wellFormed : RuleSpec → Bool)

/-- What a sweep covers: the events in its window that a rule in force counts. -/
def coveredBy (db : Governance) (w : SweepWindow) : List (UUID × AnalyticsEvent) :=
  db.rules.flatMap fun r =>
    (db.events.filter fun e => w.contains e.ingestedAt && e.isCustom && (r.valueOf e).isSome).map
    fun e => (r.id, e)

def next (s : Governed) : PropertyAction → Governed
  | .insert e => { s with db := { s.db with events := insertEvent s.db.events e } }
  | .dimensions start cap late =>
    { s with db := s.db.rollupAnalyticsDimensions config start cap late }
  | .properties start maxValues late =>
    { db := s.db.rollupAnalyticsProperties config start maxValues late
      covered := match sweepWindow config s.db.propertiesWatermark start with
        | none => s.covered
        | some w => s.covered ++ coveredBy s.db w }
  | .replaceRules now client specs found =>
    { s with db := s.db.replacePropertyRules wellFormed now client specs found }
  | .rolledBack => s

end Governed

def Governance.propertyTotal (db : Governance) (rule : UUID) (b : Bucket) : Nat :=
  ((db.dimensionDaily.filter fun row => row.dimension == .property rule && row.bucket == b).map
    (·.pageviews)).sum

namespace Governed

def coveredIn (s : Governed) (rule : UUID) (b : Bucket) : List AnalyticsEvent :=
  ((s.covered.filter fun c => c.1 == rule && c.2.bucket == b).map (·.2)).dedup

/-- The breakdowns of the rules in force count at least what was covered. -/
def Survives (s : Governed) : Prop :=
  ∀ r ∈ s.db.rules, ∀ b, (s.coveredIn r.id b).length ≤ s.db.propertyTotal r.id b

/-- For a sweep of the dimensions: no pageview in its window is of a bucket with a covered event of
a rule in force. -/
def Spares (config : RollupConfig) (s : Governed) : PropertyAction → Prop
  | .dimensions start _ _ => ∀ w ∈ sweepWindow config s.db.dimensionsWatermark start,
    ∀ r ∈ s.db.rules, ∀ c ∈ s.covered, c.1 = r.id → c.2.bucket ∉ touched isPageview w s.db.events
  | _ => True

instance (config : RollupConfig) (s : Governed) (action : PropertyAction) :
    Decidable (s.Spares config action) := by
  cases action <;> dsimp only [Spares] <;> infer_instance

structure Inv (s : Governed) : Prop where
  unique : UniqueOn AnalyticsEvent.key s.db.events
  ids : UniqueOn PropertyRule.id s.db.rules
  generated : ∀ r ∈ s.db.rules, r.id < s.db.nextRuleId
  issued : ∀ c ∈ s.covered, c.1 < s.db.nextRuleId
  committed : ∀ c ∈ s.covered, c.2 ∈ s.db.events ∧ c.2.isCustom = true
  counts : ∀ c ∈ s.covered, ∀ r ∈ s.db.rules, r.id = c.1 → (r.valueOf c.2).isSome = true

end Governed

/-! ### What the sweeps leave of a property -/

section Rows

variable {cap : Nat} {dimension : Dimension} {value : AnalyticsEvent → Option String}
  {events : List AnalyticsEvent}
variable {now : Timestamp} {b : Bucket}

theorem mem_dimensionRows {row : DimensionRow}
    (isRow : row ∈ dimensionRows cap dimension value events now b) :
    row.dimension = dimension ∧ row.bucket = b := by
  obtain ⟨group, -, rfl⟩ := List.mem_map.mp isRow
  exact ⟨rfl, rfl⟩

/-- Every event with a value is counted in one row, whatever values are folded together. -/
theorem sum_dimensionRows :
    ((dimensionRows cap dimension value events now b).map (·.pageviews)).sum =
    (events.filter fun e => (value e).isSome).length := by
  have sums : ((groups (fun e => (value e).map (foldedValue cap (events.filterMap value))) events).map
      fun group => group.2.length).sum = _ := sum_groups
  rw [length_filterMap] at sums
  simp only [Option.isSome_map] at sums
  rw [dimensionRows, List.map_map, ← sums]
  rfl

/-- The rows of one dimension and bucket. -/
def cell (dimension : Dimension) (b : Bucket) (rows : List DimensionRow) : List DimensionRow :=
  rows.filter fun row => row.dimension == dimension && row.bucket == b

/-- The rows that a sweep makes for the dimensions of the buckets. -/
def madeRows (cap : Nat) (dimensions : List (Dimension × (AnalyticsEvent → Option String)))
    (kept : AnalyticsEvent → Bool) (events : List AnalyticsEvent) (now : Timestamp)
    (buckets : List Bucket) : List DimensionRow :=
  buckets.flatMap fun b => dimensions.flatMap fun d =>
    dimensionRows cap d.1 d.2 (bucketEvents kept events b) now b

variable {dimensions : List (Dimension × (AnalyticsEvent → Option String))}
  (kept : AnalyticsEvent → Bool) {buckets : List Bucket}

theorem cell_madeRows (once : buckets.Nodup) (distinct : UniqueOn Prod.fst dimensions)
    {d : Dimension × (AnalyticsEvent → Option String)} (isDimension : d ∈ dimensions) :
    cell d.1 b (madeRows cap dimensions kept events now buckets) =
      if b ∈ buckets then dimensionRows cap d.1 d.2 (bucketEvents kept events b) now b
      else [] := by
  have keyed (b' : Bucket) (row : DimensionRow) (isRow : row ∈ dimensions.flatMap fun d =>
      dimensionRows cap d.1 d.2 (bucketEvents kept events b') now b') : row.bucket = b' := by
    obtain ⟨_, -, made⟩ := List.mem_flatMap.mp isRow
    exact (mem_dimensionRows made).2
  rw [cell, madeRows, ← List.filter_filter]
  split
  next isBucket =>
    rw [filter_flatMap_of_mem keyed (once.map fun _ _ => id) isBucket]
    exact filter_flatMap_of_mem (fun _ _ made => (mem_dimensionRows made).1) distinct isDimension
  next absent =>
    rw [filter_flatMap_of_forall_ne keyed (k := b) fun b' isBucket same => absent (same ▸ isBucket),
      List.filter_nil]

theorem cell_madeRows_absent (absent : dimension ∉ dimensions.map Prod.fst) :
    cell dimension b (madeRows cap dimensions kept events now buckets) = [] := by
  rw [cell, List.filter_eq_nil_iff]
  intro row isRow holds
  obtain ⟨_, -, ofBucket⟩ := List.mem_flatMap.mp isRow
  obtain ⟨d, isDimension, made⟩ := List.mem_flatMap.mp ofBucket
  have isThis := beq_iff_eq.mp (Bool.and_eq_true_iff.mp holds).1
  exact absent (isThis ▸ (mem_dimensionRows made).1 ▸ List.mem_map_of_mem isDimension)

end Rows

namespace Governance

variable {config : RollupConfig} {db : Governance} {start : Timestamp} {late : List AnalyticsEvent}
  {w : SweepWindow}

theorem propertyTotal_eq (db : Governance) (rule : UUID) (b : Bucket) :
    db.propertyTotal rule b = ((cell (.property rule) b db.dimensionDaily).map (·.pageviews)).sum :=
  rfl

theorem propertyTotal_of_cell {db db' : Governance} {rule : UUID} {b : Bucket}
    (same : cell (.property rule) b db'.dimensionDaily =
      cell (.property rule) b db.dimensionDaily) :
    db'.propertyTotal rule b = db.propertyTotal rule b := by
  rw [propertyTotal_eq, same, propertyTotal_eq]

/-- The sweep of the dimensions deletes the rows of a dimension in the buckets that it recomputes,
and those of the properties with the pageviews'. -/
theorem rollupAnalyticsDimensions_rows (cap : Nat)
    (isWindow : sweepWindow config db.dimensionsWatermark start = some w)
    (dimension : Dimension) (b : Bucket) :
    cell dimension b (db.rollupAnalyticsDimensions config start cap late).dimensionDaily =
      (if b ∈ touched (if dimension = .event then isCustom else isPageview) w db.events then []
        else cell dimension b db.dimensionDaily) ++
      cell dimension b (madeRows cap pageviewDimensions isPageview (insertEvents db.events late)
        start (touched isPageview w db.events)) ++
      cell dimension b (madeRows cap [(.event, fun e => some e.name)] isCustom
        (insertEvents db.events late) start (touched isCustom w db.events)) := by
  simp only [rollupAnalyticsDimensions, cell, madeRows, isWindow, List.filter_append,
    List.filter_filter, List.flatMap_cons, List.flatMap_nil, List.append_nil]
  congr 2
  by_cases recomputed :
    b ∈ touched (if dimension = .event then isCustom else isPageview) w db.events
  · rw [if_pos recomputed, List.filter_eq_nil_iff]
    intro row _ holds
    simp only [Bool.and_eq_true, beq_iff_eq] at holds
    obtain ⟨⟨rfl, rfl⟩, kept⟩ := holds
    by_cases isEvent : row.dimension = .event <;> simp_all
  · rw [if_neg recomputed]
    refine List.filter_congr fun row _ => ?_
    by_cases isRow : row.dimension = dimension ∧ row.bucket = b
    · obtain ⟨rfl, rfl⟩ := isRow
      by_cases isEvent : row.dimension = .event <;> simp_all
    · have other : (row.dimension == dimension && row.bucket == b) = false := by simpa using isRow
      rw [other, Bool.false_and]

theorem rollupAnalyticsDimensions_propertyTotal (cap : Nat)
    (isWindow : sweepWindow config db.dimensionsWatermark start = some w) (rule : UUID)
    (b : Bucket) :
    (db.rollupAnalyticsDimensions config start cap late).propertyTotal rule b =
      if b ∈ touched isPageview w db.events then 0 else db.propertyTotal rule b := by
  rw [propertyTotal_eq, rollupAnalyticsDimensions_rows cap isWindow,
    cell_madeRows_absent _ (by simp [pageviewDimensions]),
    cell_madeRows_absent _ (by simp), List.append_nil, List.append_nil, propertyTotal_eq]
  simp only [reduceCtorEq, if_false]
  split <;> rfl

theorem rollupAnalyticsProperties_propertyTotal (maxValues : Int)
    (ids : UniqueOn PropertyRule.id db.rules)
    (isWindow : sweepWindow config db.propertiesWatermark start = some w) {r : PropertyRule}
    (isRule : r ∈ db.rules)
    (b : Bucket) : (db.rollupAnalyticsProperties config start maxValues late).propertyTotal r.id b =
      if b ∈ touched (hasGovernedProperty db.rules) w db.events then
        ((bucketEvents isCustom (insertEvents db.events late) b).filter fun e =>
          (r.valueOf e).isSome).length
      else db.propertyTotal r.id b := by
  have dimensions : UniqueOn Prod.fst (db.rules.map fun r => (Dimension.property r.id, r.valueOf)) := by
    have images :=
      List.Nodup.map (f := Dimension.property) (fun _ _ same => Dimension.property.inj same) ids
    rw [List.map_map] at images
    rw [UniqueOn, List.map_map]
    exact images
  have made : cell (.property r.id) b (madeRows (valueCap maxValues) _ isCustom
      (insertEvents db.events late) start (touched (hasGovernedProperty db.rules) w db.events)) =
      _ := cell_madeRows isCustom nodup_touched dimensions (List.mem_map_of_mem isRule)
  simp only [cell, madeRows, List.flatMap_map] at made
  simp only [rollupAnalyticsProperties, propertyTotal, isWindow, List.filter_append,
    List.map_append, List.sum_append, made]
  split
  next recomputed =>
    rw [List.filter_filter, List.filter_eq_nil_iff.mpr, sum_dimensionRows]
    · exact Nat.zero_add _
    · intro row isRow holds
      simp only [Bool.and_eq_true, beq_iff_eq] at holds
      simp [holds.1.1, holds.1.2, recomputed, Dimension.isProperty] at holds
  next untouched =>
  rw [List.filter_filter, List.map_nil, List.sum_nil, Nat.add_zero]
  congr 2
  refine List.filter_congr fun row _ => ?_
  by_cases isBucket : row.bucket = b
  · simp [isBucket, untouched]
  · simp [beq_eq_false_iff_ne.mpr isBucket]

theorem rollupAnalyticsDimensions_frame (config : RollupConfig) (db : Governance)
    (start : Timestamp) (cap : Nat)
    (late : List AnalyticsEvent) : ∃ dimensionDaily dimensionsWatermark,
      db.rollupAnalyticsDimensions config start cap late =
        { db with events := insertEvents db.events late, dimensionDaily, dimensionsWatermark } := by
  unfold rollupAnalyticsDimensions
  split
  · exact ⟨_, _, rfl⟩
  · exact ⟨_, _, rfl⟩

theorem rollupAnalyticsProperties_frame (config : RollupConfig) (db : Governance)
    (start : Timestamp) (maxValues : Int)
    (late : List AnalyticsEvent) : ∃ dimensionDaily propertiesWatermark,
      db.rollupAnalyticsProperties config start maxValues late =
        { db with events := insertEvents db.events late, dimensionDaily, propertiesWatermark } := by
  unfold rollupAnalyticsProperties
  split
  · exact ⟨_, _, rfl⟩
  · exact ⟨_, _, rfl⟩

/-! ### Replacing rules -/

/-- The rules have their ids from the generator. -/
structure Numbered (db : Governance) : Prop where
  ids : UniqueOn PropertyRule.id db.rules
  generated : ∀ r ∈ db.rules, r.id < db.nextRuleId

/-- The rules of `db'` are new, or they are rules of `db` and count the same events in the same
rows. -/
structure Replaces (db db' : Governance) : Prop where
  events : db'.events = db.events
  issued : db.nextRuleId ≤ db'.nextRuleId
  numbered : db'.Numbered
  rules : ∀ r' ∈ db'.rules, db.nextRuleId ≤ r'.id ∨
    ∃ r ∈ db.rules, r'.id = r.id ∧ r'.valueOf = r.valueOf ∧
    ∀ b, db'.propertyTotal r.id b = db.propertyTotal r.id b

theorem Replaces.refl {db : Governance} (numbered : db.Numbered) : db.Replaces db :=
  ⟨rfl, le_rfl, numbered, fun r isRule => .inr ⟨r, isRule, rfl, rfl, fun _ => rfl⟩⟩

theorem Replaces.trans {db db' db'' : Governance} (first : db.Replaces db')
    (second : db'.Replaces db'') : db.Replaces db'' := by
  refine ⟨second.events.trans first.events, first.issued.trans second.issued, second.numbered,
    fun r'' isRule => ?_⟩
  rcases second.rules r'' isRule with isNew | ⟨r', isRule', sameId', sameValue', sameTotal'⟩
  · exact .inl (first.issued.trans isNew)
  · rcases first.rules r' isRule' with isNew | ⟨r, isRule, sameId, sameValue, sameTotal⟩
    · exact .inl (isNew.trans sameId'.ge)
    · refine .inr ⟨r, isRule, sameId'.trans sameId, sameValue'.trans sameValue, fun b => ?_⟩
      rw [← sameId, sameTotal', sameId, sameTotal]

section

variable {db : Governance} (numbered : db.Numbered)

include numbered

theorem dropRules_replaces (client : UUID)
    (specs : List RuleSpec) : db.Replaces (db.dropRules client specs) := by
  refine ⟨rfl, le_rfl, ⟨numbered.ids.filter _, ?_⟩, ?_⟩
  · exact fun r isRule => numbered.generated r (List.mem_filter.mp isRule).1
  · intro r isKept
    obtain ⟨isRule, keeps⟩ := List.mem_filter.mp isKept
    refine .inr ⟨r, isRule, rfl, rfl, fun b => propertyTotal_of_cell ?_⟩
    -- Only rows of other rules are deleted.
    refine (List.filter_filter ..).trans (List.filter_congr fun row _ => ?_)
    by_cases isProperty : row.dimension = .property r.id
    · have spared : (db.rules.any fun r => r.clientId == client && row.bucket.clientId == r.clientId &&
          row.dimension == .property r.id && !keepsRule client specs r) = false := by
        rw [List.any_eq_false]
        intro r₀ isRule₀ holds
        simp only [Bool.and_eq_true, beq_iff_eq, Bool.not_eq_true'] at holds
        obtain ⟨⟨-, isProperty₀⟩, dropped⟩ := holds
        have sameId : r₀.id = r.id := Dimension.property.inj (isProperty₀.symm.trans isProperty)
        rw [numbered.ids.eq_of_key isRule₀ isRule sameId, keeps] at dropped
        cases dropped
      rw [spared, Bool.not_false, Bool.and_true]
    · simp [beq_eq_false_iff_ne.mpr isProperty]

theorem upsertRule_replaces (now : Timestamp)
    (client : UUID) (spec : RuleSpec) : db.Replaces (upsertRule now client db spec) := by
  unfold upsertRule
  split
  · refine ⟨rfl, le_rfl, ⟨numbered.ids.updateWhere fun _ _ => rfl, ?_⟩, ?_⟩
    · intro r' isRule'
      obtain ⟨r, isRule, ⟨-, rfl⟩ | ⟨-, rfl⟩⟩ := updated_or_kept isRule'
      · exact numbered.generated r isRule
      · exact numbered.generated r isRule
    · intro r' isRule'
      obtain ⟨r, isRule, ⟨-, rfl⟩ | ⟨-, rfl⟩⟩ := updated_or_kept isRule'
      · exact .inr ⟨r, isRule, rfl, rfl, fun _ => rfl⟩
      · exact .inr ⟨r, isRule, rfl, rfl, fun _ => rfl⟩
  · refine ⟨rfl, Nat.le_succ _, ⟨?_, ?_⟩, ?_⟩
    · refine numbered.ids.append_fresh fun r isRule same => ?_
      exact absurd (numbered.generated r isRule) (by rw [same]; exact lt_irrefl _)
    · intro r isRule
      rcases mem_inserted.mp isRule with old | rfl
      · exact Nat.lt_succ_of_lt (numbered.generated r old)
      · exact Nat.lt_succ_self _
    · intro r isRule
      rcases mem_inserted.mp isRule with old | rfl
      · exact .inr ⟨r, old, rfl, rfl, fun _ => rfl⟩
      · exact .inl le_rfl

theorem upsertRules_replaces (now : Timestamp) (client : UUID) (specs : List RuleSpec) :
    db.Replaces (specs.foldl (upsertRule now client) db) := by
  induction specs generalizing db with
  | nil => exact .refl numbered
  | cons spec rest ih =>
    have first := upsertRule_replaces numbered now client spec
    exact first.trans (ih first.numbered)

/-- A rule that the request keeps also keeps its counts. -/
theorem replacePropertyRules_replaces
    (wellFormed : RuleSpec → Bool) (now : Timestamp) (client : UUID) (specs : List RuleSpec)
    (found : Bool) : db.Replaces (db.replacePropertyRules wellFormed now client specs found) := by
  unfold replacePropertyRules
  split
  · have dropped := dropRules_replaces numbered client specs
    exact dropped.trans (upsertRules_replaces dropped.numbered now client specs)
  · exact .refl numbered

end

end Governance

/-! ### Steps -/

namespace Governed

variable {config : RollupConfig} {wellFormed : RuleSpec → Bool} {s : Governed}

theorem mem_coveredIn {rule : UUID} {b : Bucket} {e : AnalyticsEvent} :
    e ∈ s.coveredIn rule b ↔ (rule, e) ∈ s.covered ∧ e.bucket = b := by
  simp only [coveredIn, List.mem_dedup, List.mem_map, List.mem_filter, Bool.and_eq_true, beq_iff_eq]
  constructor
  · rintro ⟨⟨_, _⟩, ⟨isCovered, rfl, rfl⟩, rfl⟩
    exact ⟨isCovered, rfl⟩
  · rintro ⟨isCovered, rfl⟩
    exact ⟨(rule, e), ⟨isCovered, rfl, rfl⟩, rfl⟩

theorem mem_coveredBy {db : Governance} {w : SweepWindow} {c : UUID × AnalyticsEvent} :
    c ∈ coveredBy db w ↔ ∃ r ∈ db.rules, r.id = c.1 ∧ c.2 ∈ db.events ∧ w.contains c.2.ingestedAt = true ∧
      c.2.isCustom = true ∧ (r.valueOf c.2).isSome = true := by
  obtain ⟨rule, e⟩ := c
  simp only [coveredBy, List.mem_flatMap, List.mem_map, List.mem_filter, Bool.and_eq_true,
    Prod.mk.injEq]
  constructor
  · rintro ⟨r, isRule, _, ⟨isEvent, ⟨inWindow, isCustom⟩, hasValue⟩, rfl, rfl⟩
    exact ⟨r, isRule, rfl, isEvent, inWindow, isCustom, hasValue⟩
  · rintro ⟨r, isRule, rfl, isEvent, inWindow, isCustom, hasValue⟩
    exact ⟨r, isRule, e, ⟨isEvent, ⟨inWindow, isCustom⟩, hasValue⟩, rfl, rfl⟩

section

variable (inv : s.Inv)

include inv

theorem Inv.inserted (late : List AnalyticsEvent) (dimensionDaily : List DimensionRow)
    (dimensionsWatermark propertiesWatermark : Option Timestamp) :
    Inv { s with
      db := { s.db with
        events := insertEvents s.db.events late, dimensionDaily, dimensionsWatermark,
          propertiesWatermark } } := by
  refine ⟨insertEvents_unique inv.unique late, inv.ids, inv.generated, inv.issued,
    fun c isCovered => ?_, inv.counts⟩
  obtain ⟨isEvent, isCustom⟩ := inv.committed c isCovered
  exact ⟨(insertEvents_sublist s.db.events late).subset isEvent, isCustom⟩

theorem Inv.covers (w : SweepWindow) : Inv { s with covered := s.covered ++ coveredBy s.db w } := by
  refine ⟨inv.unique, inv.ids, inv.generated, ?_, ?_, ?_⟩
  · intro c isCovered
    rcases List.mem_append.mp isCovered with old | isNew
    · exact inv.issued c old
    · obtain ⟨r, isRule, isId, -⟩ := mem_coveredBy.mp isNew
      exact isId ▸ inv.generated r isRule
  · intro c isCovered
    rcases List.mem_append.mp isCovered with old | isNew
    · exact inv.committed c old
    · obtain ⟨-, -, -, isEvent, -, isCustom, -⟩ := mem_coveredBy.mp isNew
      exact ⟨isEvent, isCustom⟩
  · intro c isCovered r isRule isId
    rcases List.mem_append.mp isCovered with old | isNew
    · exact inv.counts c old r isRule isId
    · obtain ⟨r₀, isRule₀, isId₀, -, -, -, hasValue⟩ := mem_coveredBy.mp isNew
      rwa [inv.ids.eq_of_key isRule isRule₀ (isId.trans isId₀.symm)]

theorem Inv.replaced {db : Governance} (replaces : s.db.Replaces db) : Inv { s with db } := by
  refine ⟨replaces.events ▸ inv.unique, replaces.numbered.ids,
    replaces.numbered.generated, ?_, ?_, ?_⟩
  · exact fun c isCovered => lt_of_lt_of_le (inv.issued c isCovered) replaces.issued
  · exact fun c isCovered => replaces.events ▸ inv.committed c isCovered
  · intro c isCovered r' isRule' isId
    rcases replaces.rules r' isRule' with isNew | ⟨r, isRule, sameId, sameValue, -⟩
    · exact absurd (inv.issued c isCovered) (not_lt.mpr (isId ▸ isNew))
    · rw [sameValue]
      exact inv.counts c isCovered r isRule (sameId.symm.trans isId)

theorem Inv.next (action : PropertyAction) : (s.next config wellFormed action).Inv := by
  cases action with
  | insert e => exact inv.inserted [e] _ _ _
  | dimensions start cap late =>
    obtain ⟨rows, mark, same⟩ := s.db.rollupAnalyticsDimensions_frame config start cap late
    simp only [Governed.next, same]
    exact inv.inserted late rows mark _
  | properties start maxValues late =>
    obtain ⟨rows, mark, same⟩ := s.db.rollupAnalyticsProperties_frame config start maxValues late
    simp only [Governed.next, same]
    split
    · exact inv.inserted late rows _ mark
    · next w _ => exact (inv.covers w).inserted late rows _ mark
  | replaceRules now client specs found =>
    exact inv.replaced
      (Governance.replacePropertyRules_replaces
      ⟨inv.ids, inv.generated⟩ wellFormed now client specs found)
  | rolledBack => exact inv

variable (survives : s.Survives)

include survives

theorem Survives.replaced {db : Governance} (replaces : s.db.Replaces db) :
    Survives { s with db } := by
  intro r' isRule' b
  rcases replaces.rules r' isRule' with isNew | ⟨r, isRule, sameId, -, sameTotal⟩
  · -- Nothing is covered for a new rule.
    have nothing : s.coveredIn r'.id b = [] := by
      refine List.eq_nil_iff_forall_not_mem.mpr fun e isCovered => ?_
      exact absurd (inv.issued _ (mem_coveredIn.mp isCovered).1) (not_lt.mpr isNew)
    exact le_of_eq_of_le (congrArg List.length nothing) (Nat.zero_le _)
  · rw [sameId, sameTotal]
    exact survives r isRule b

theorem Survives.properties (start : Timestamp) (maxValues : Int) (late : List AnalyticsEvent) :
    (s.next config wellFormed (.properties start maxValues late)).Survives := by
  cases isWindow : sweepWindow config s.db.propertiesWatermark start with
  | none =>
    have same : s.next config wellFormed (.properties start maxValues late) =
        { s with db := { s.db with events := insertEvents s.db.events late } } := by
      simp only [next, Governance.rollupAnalyticsProperties, isWindow]
    rw [same]
    exact survives
  | some w =>
    have covered : (s.next config wellFormed (.properties start maxValues late)).covered =
        s.covered ++ coveredBy s.db w := by
      simp only [next, isWindow]
    obtain ⟨rows, mark, frame⟩ := s.db.rollupAnalyticsProperties_frame config start maxValues late
    have rules : (s.next config wellFormed (.properties start maxValues late)).db.rules = s.db.rules := by
      simp only [next, frame]
    intro r isRule b
    rw [rules] at isRule
    refine le_of_le_of_eq ?_
      (Governance.rollupAnalyticsProperties_propertyTotal maxValues inv.ids isWindow isRule b).symm
    have distinct :
        ((s.next config wellFormed (.properties start maxValues late)).coveredIn r.id b).Nodup :=
      List.nodup_dedup _
    split
    next =>
      refine (List.subperm_of_subset distinct fun e isCovered => ?_).length_le
      obtain ⟨isCovered, ofBucket⟩ := mem_coveredIn.mp isCovered
      have inv' := inv.covers w
      obtain ⟨isEvent, isCustom⟩ := inv'.committed _ (covered ▸ isCovered)
      have hasValue := inv'.counts _ (covered ▸ isCovered) r isRule rfl
      have isEvent' := (insertEvents_sublist s.db.events late).subset isEvent
      exact List.mem_filter.mpr ⟨mem_bucketEvents.mpr ⟨isEvent', isCustom, ofBucket⟩, hasValue⟩
    next untouched =>
    -- An event that is newly covered would have touched the bucket.
    refine le_trans (List.subperm_of_subset distinct fun e isCovered => ?_).length_le
      (survives r isRule b)
    obtain ⟨isCovered, ofBucket⟩ := mem_coveredIn.mp isCovered
    rw [covered] at isCovered
    rcases List.mem_append.mp isCovered with old | isNew
    · exact mem_coveredIn.mpr ⟨old, ofBucket⟩
    · obtain ⟨r₀, isRule₀, -, isEvent, inWindow, isCustom, hasValue⟩ := mem_coveredBy.mp isNew
      refine absurd (mem_touched.mpr ⟨e, isEvent, inWindow, ?_, ofBucket⟩) untouched
      rw [hasGovernedProperty, isCustom, Bool.true_and, List.any_eq_true]
      exact ⟨r₀, isRule₀, governs_of_valueOf hasValue⟩

omit inv in
theorem survives_dimensions_iff (start : Timestamp) (cap : Nat) (late : List AnalyticsEvent) :
    (s.next config wellFormed (.dimensions start cap late)).Survives ↔
      s.Spares config (.dimensions start cap late) := by
  cases isWindow : sweepWindow config s.db.dimensionsWatermark start with
  | none =>
    have same : s.next config wellFormed (.dimensions start cap late) =
        { s with db := { s.db with events := insertEvents s.db.events late } } := by
      simp only [next, Governance.rollupAnalyticsDimensions, isWindow]
    rw [same]
    refine iff_of_true survives fun w found => ?_
    rw [isWindow] at found
    cases found
  | some w =>
    obtain ⟨rows, mark, frame⟩ := s.db.rollupAnalyticsDimensions_frame config start cap late
    have rules : (s.next config wellFormed (.dimensions start cap late)).db.rules = s.db.rules := by
      simp only [next, frame]
    have total (rule : UUID) (b : Bucket) :
        (s.next config wellFormed (.dimensions start cap late)).db.propertyTotal rule b = _ :=
      Governance.rollupAnalyticsDimensions_propertyTotal cap isWindow rule b
    constructor
    · intro survives' w' found r isRule c isCovered isId isTouched
      obtain rfl : w = w' := Option.some.inj (isWindow.symm.trans found)
      have bound := survives' r (rules ▸ isRule) c.2.bucket
      rw [total, if_pos isTouched, Nat.le_zero, List.length_eq_zero_iff] at bound
      have member : c.2 ∈ s.coveredIn r.id c.2.bucket := mem_coveredIn.mpr ⟨isId ▸ isCovered, rfl⟩
      exact absurd (bound ▸ member : c.2 ∈ []) List.not_mem_nil
    · intro spares r isRule b
      rw [rules] at isRule
      rw [total]
      split
      next isTouched =>
        have nothing : s.coveredIn r.id b = [] := by
          refine List.eq_nil_iff_forall_not_mem.mpr fun e isCovered => ?_
          obtain ⟨isCovered, ofBucket⟩ := mem_coveredIn.mp isCovered
          exact spares w isWindow r isRule _ isCovered rfl (ofBucket ▸ isTouched)
        exact (congrArg List.length nothing).le
      next => exact survives r isRule b

/-- The covered events survive a step exactly when it spares their buckets. -/
theorem Inv.survives_iff (action : PropertyAction) :
    (s.next config wellFormed action).Survives ↔ s.Spares config action := by
  cases action with
  | insert e | rolledBack => exact iff_of_true survives trivial
  | dimensions start cap late => exact survives_dimensions_iff survives start cap late
  | properties start maxValues late =>
    exact iff_of_true (survives.properties inv start maxValues late) trivial
  | replaceRules now client specs found =>
    have replaces := Governance.replacePropertyRules_replaces
      ⟨inv.ids, inv.generated⟩ wellFormed now client specs found
    exact iff_of_true (survives.replaced inv replaces) trivial

end

theorem Inv.fresh : Inv ⟨⟨[], [], [], none, none, 0⟩, []⟩ :=
  ⟨UniqueOn.nil _, UniqueOn.nil _, List.forall_mem_nil _, List.forall_mem_nil _,
    List.forall_mem_nil _, List.forall_mem_nil _⟩

end Governed

open Governed

/-- The property breakdowns survive every step of a run exactly when its sweeps of the dimensions
spare them. -/
theorem breakdowns_survive_iff {config : RollupConfig} {wellFormed : RuleSpec → Bool} {s : Governed}
    {actions : List PropertyAction} (inv : s.Inv) (start : s.Survives) :
    Along (next config wellFormed) (fun s action =>
      (s.next config wellFormed action).Survives) s actions ↔
      Along (next config wellFormed) (Spares config) s actions := by
  have kept (s : Governed) (action : PropertyAction) (inv : s.Inv) :
      (s.next config wellFormed action).Inv :=
    inv.next action
  have decided (s : Governed) (action : PropertyAction) (inv : s.Inv) (survives : s.Survives) :
      (s.next config wellFormed action).Survives ↔ s.Spares config action :=
        inv.survives_iff survives action
  exact Along.iff_of_step Survives decided kept inv start

namespace Sample

/-- A sign-up of client 1, with its plan. -/
def signup (id : UUID) (ingestedAt : Timestamp) : AnalyticsEvent :=
  { pageview id ingestedAt none with name := "signup", props := [("plan", .scalar "pro")] }

def noRules : Governed := ⟨⟨[], [], [], none, none, 0⟩, []⟩

/-- A rule is set, an event is counted under it, and ten minutes later there is a pageview of
another client. -/
def spared : List PropertyAction :=
  [.replaceRules 0 1 [⟨"signup", "plan", "Plan"⟩] true, .insert (signup 1 10000000),
    .properties 100000000 20 [],
   .insert { pageview 2 700000000 none with clientId := 2 }, .dimensions 800000000 200 [],
     .properties 801000000 20 []]

theorem spared_breakdown_survives : Along (next rollupConfig fun _ => true)
    (fun s action => (s.next rollupConfig (fun _ => true) action).Survives) noRules spared :=
  (breakdowns_survive_iff Inv.fresh (List.forall_mem_nil _)).mpr (by decide +kernel)

/-- The same, and the pageview is of the same client and day. -/
def wiped : List PropertyAction :=
  [.replaceRules 0 1 [⟨"signup", "plan", "Plan"⟩] true, .insert (signup 1 10000000),
    .properties 100000000 20 [],
   .properties 600000000 20 [], .insert (pageview 2 700000000 none), .dimensions 800000000 200 [],
     .properties 801000000 20 []]

/-- The sweep of the properties had counted the event; the sweep of the dimensions deletes the row,
and the next sweep of the properties does not write it again. -/
theorem wiped_breakdown_is_lost :
    (wiped.foldl (next rollupConfig fun _ => true) noRules).db.rules.map (·.id) = [0] ∧
    ((wiped.take 3).foldl (next rollupConfig fun _ => true) noRules).db.propertyTotal 0
      ⟨1, 0⟩ = 1 ∧
    (wiped.foldl (next rollupConfig fun _ => true) noRules).coveredIn 0 ⟨1, 0⟩ =
      [signup 1 10000000] ∧
    (wiped.foldl (next rollupConfig fun _ => true) noRules).db.propertyTotal 0 ⟨1, 0⟩ = 0 ∧
    ¬ (wiped.foldl (next rollupConfig fun _ => true) noRules).Survives := by
  refine ⟨by decide +kernel, by decide +kernel, by decide +kernel, by decide +kernel,
    fun survives => ?_⟩
  obtain ⟨r, isRule, isId⟩ :
    ∃ r ∈ (wiped.foldl (next rollupConfig fun _ => true) noRules).db.rules, r.id = 0 := by
    decide +kernel
  have bound := survives r isRule ⟨1, 0⟩
  rw [isId] at bound
  exact absurd bound (by decide +kernel)

end Sample

end Manyforge.Analytics
