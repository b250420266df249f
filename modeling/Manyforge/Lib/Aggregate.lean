import Manyforge.Lib.Table
import Mathlib.Algebra.BigOperators.Group.List.Lemmas
import Mathlib.Algebra.GroupWithZero.Nat

/-!
# Aggregates

`SELECT … GROUP BY` as the list of the groups, and `INSERT … ON CONFLICT DO UPDATE` of a whole
result. What the groups of a list add up to is the list, and a sum over rows is the sum of the sums
of its parts.
-/
namespace Table

variable {Row Key Value : Type*}

/-! ### Groups -/

section Groups

variable [DecidableEq Value] {value : Row → Option Value} {rows : List Row}

/-- The rows of each value; rows without a value are in no group. -/
def groups (value : Row → Option Value) (rows : List Row) : List (Value × List Row) :=
  (rows.filterMap value).dedup.map fun v => (v, rows.filter fun row => value row == some v)

theorem groups_keys : (groups value rows).map Prod.fst = (rows.filterMap value).dedup := by
  simp [groups, Function.comp_def]

theorem mem_groups_keys {v : Value} :
    v ∈ (groups value rows).map Prod.fst ↔ ∃ row ∈ rows, value row = some v := by
  rw [groups_keys, List.mem_dedup, List.mem_filterMap]

theorem length_group (v : Value) :
    (rows.filter fun row => value row == some v).length = (rows.filterMap value).count v := by
  induction rows with
  | nil => rfl
  | cons row rest ih =>
    cases given : value row with
    | none => simp [given, ih]
    | some u =>
      by_cases same : u = v
      · simp [given, same, ih]
      · simp [given, same, ih]

theorem sum_groups :
    ((groups value rows).map fun group => group.2.length).sum = (rows.filterMap value).length := by
  simp only [groups, List.map_map, Function.comp_def, length_group]
  exact List.sum_map_count_dedup_eq_length _

end Groups

/-! ### Replacing rows -/

section Replace

variable [DecidableEq Key] {key : Row → Key} {new old : List Row}

/-- `INSERT … ON CONFLICT (key) DO UPDATE` that sets every column. The new rows have different keys,
and the rows of a table have no order. -/
def replaceOn (key : Row → Key) (new old : List Row) : List Row :=
  (old.filter fun row => !(new.map key).contains (key row)) ++ new

theorem mem_replaceOn {row : Row} :
    row ∈ replaceOn key new old ↔ (row ∈ old ∧ key row ∉ new.map key) ∨ row ∈ new := by
  simp [replaceOn]

theorem find?_replaceOn_map {keys : List Key} {row : Key → Row}
    (keyed : ∀ k, key (row k) = k) (k : Key) :
    (replaceOn key (keys.map row) old).find? (fun row => key row == k) =
      if k ∈ keys then some (row k) else old.find? fun row => key row == k := by
  have renewed : (keys.map row).map key = keys := by simp [Function.comp_def, keyed]
  have looked : (fun row => key row == k) ∘ row = (· == k) := funext fun k' => by simp [keyed]
  rw [replaceOn, renewed, List.find?_append, List.find?_filter, List.find?_map, looked]
  have kept : (fun other => decide ((!keys.contains (key other)) = true ∧ (key other == k) = true)) =
      fun other => !keys.contains k && key other == k := by
    funext other
    by_cases isKey : key other = k
    · simp [isKey]
    · simp [beq_eq_false_iff_ne.mpr isKey]
  rw [kept]
  split
  next replaced =>
    have found : keys.find? (· == k) = some k := by
      cases look : keys.find? (· == k) with
      | none => exact absurd (List.find?_eq_none.mp look k replaced) (by simp)
      | some k' =>
        obtain rfl : k' = k := by simpa using List.find?_some look
        rfl
    rw [found, List.find?_eq_none.mpr (by simp [replaced])]
    rfl
  next absent =>
  have unfound : keys.find? (· == k) = none :=
    List.find?_eq_none.mpr fun k' member same => absent (beq_iff_eq.mp same ▸ member)
  simp [absent, unfound]

/-- The rows of a part of the table, when the new rows cover it. -/
theorem filter_replaceOn_of_covered {part : Row → Bool}
    (covered : ∀ row ∈ old, part row = true → key row ∈ new.map key) :
    (replaceOn key new old).filter part = new.filter part := by
  rw [replaceOn, List.filter_append, List.filter_filter, List.filter_eq_nil_iff.mpr,
    List.nil_append]
  intro row isOld holds
  simp only [Bool.and_eq_true, Bool.not_eq_true', List.contains_eq_mem,
    decide_eq_false_iff_not] at holds
  exact holds.2 (covered row isOld holds.1)

theorem filter_replaceOn_of_apart {part : Row → Bool} (outside : ∀ row ∈ new, part row = false)
    (apart : ∀ row ∈ old, part row = true → key row ∉ new.map key) :
    (replaceOn key new old).filter part = old.filter part := by
  have nothing : new.filter part = [] := by
    rw [List.filter_eq_nil_iff]
    intro row isNew
    simp [outside row isNew]
  rw [replaceOn, List.filter_append, List.filter_filter, nothing, List.append_nil]
  refine List.filter_congr fun row isOld => ?_
  by_cases inPart : part row = true
  · have kept := apart row isOld inPart
    rw [← List.contains_iff_mem, Bool.not_eq_true] at kept
    simp only [inPart, kept, Bool.not_false, Bool.and_true]
  · simp [inPart]

end Replace

section Made

variable {Item : Type*} [DecidableEq Key] {key : Row → Key} {tag : Item → Key}
  {rowsOf : Item → List Row} {items : List Item}
variable (keyed : ∀ x, ∀ row ∈ rowsOf x, key row = tag x)

include keyed

theorem filter_flatMap_of_forall_ne {k : Key} (absent : ∀ x ∈ items, tag x ≠ k) :
    (items.flatMap rowsOf).filter (fun row => key row == k) = [] := by
  rw [List.filter_eq_nil_iff]
  intro row isRow isKey
  obtain ⟨x, isItem, made⟩ := List.mem_flatMap.mp isRow
  exact absent x isItem ((keyed x row made).symm.trans (beq_iff_eq.mp isKey))

theorem filter_flatMap_of_mem (distinct : UniqueOn tag items) {x : Item} (member : x ∈ items) :
    (items.flatMap rowsOf).filter (fun row => key row == tag x) = rowsOf x := by
  induction items with
  | nil => cases member
  | cons first rest ih =>
    obtain ⟨absent, distinct'⟩ := List.nodup_cons.mp distinct
    rw [List.flatMap_cons, List.filter_append]
    rcases List.mem_cons.mp member with rfl | later
    · have others : ∀ y ∈ rest, tag y ≠ tag x := fun y isItem same =>
        absent (same ▸ List.mem_map_of_mem isItem)
      rw [filter_flatMap_of_forall_ne keyed others, List.append_nil, List.filter_eq_self]
      exact fun row made => beq_iff_eq.mpr (keyed x row made)
    · rw [ih distinct' later, List.filter_eq_nil_iff.mpr, List.nil_append]
      intro row made isKey
      have same : tag first = tag x := (keyed first row made).symm.trans (beq_iff_eq.mp isKey)
      exact absent (same ▸ List.mem_map_of_mem later)

end Made

/-- A part of a list without repetitions that is as long as the list is the list. -/
theorem length_eq_iff_subset {part whole : List Row} (distinct : part.Nodup) (unique : whole.Nodup)
    (subset : part ⊆ whole) : whole.length = part.length ↔ whole ⊆ part := by
  have sub := List.subperm_of_subset distinct subset
  constructor
  · exact fun same => (sub.perm_of_length_le same.le).symm.subset
  · exact fun covers => ((List.subperm_of_subset unique covers).antisymm sub).length_eq

/-! ### Sums -/

theorem sum_parts [DecidableEq Key] (key : Row → Key) (amount : Row → Nat) (keys : List Key)
    (distinct : keys.Nodup) (rows : List Row) :
    (keys.map fun k => ((rows.filter fun row => key row == k).map amount).sum).sum =
      ((rows.filter fun row => keys.contains (key row)).map amount).sum := by
  induction rows with
  | nil => simp
  | cons row rest ih =>
    have split (k : Key) : (((row :: rest).filter fun row => key row == k).map amount).sum =
        (if key row = k then amount row else 0) +
          ((rest.filter fun row => key row == k).map amount).sum := by
      by_cases isKey : key row = k
      · simp [isKey]
      · simp [isKey]
    simp only [split, List.sum_map_add, ih]
    by_cases member : key row ∈ keys
    · have once : (keys.map fun k => if key row = k then amount row else 0).sum = amount row := by
        rw [List.sum_map_eq_nsmul_single (key row)]
        · simp [List.count_eq_one_of_mem distinct member]
        · intro k differs _
          exact if_neg (Ne.symm differs)
      simp [member, once]
    · have nowhere : (keys.map fun k => if key row = k then amount row else 0).sum = 0 := by
        refine List.sum_eq_zero fun x isAmount => ?_
        obtain ⟨k, isKey, rfl⟩ := List.mem_map.mp isAmount
        exact if_neg fun same : key row = k => member (same ▸ isKey)
      simp [member, nowhere]

theorem length_parts [DecidableEq Key] (key : Row → Key) (keys : List Key) (distinct : keys.Nodup)
    (rows : List Row) :
    (keys.map fun k => (rows.filter fun row => key row == k).length).sum =
      (rows.filter fun row => keys.contains (key row)).length := by
  simpa using sum_parts key (fun _ => 1) keys distinct rows

theorem length_filterMap (value : Row → Option Value) (rows : List Row) :
    (rows.filterMap value).length = (rows.filter fun row => (value row).isSome).length := by
  induction rows with
  | nil => rfl
  | cons row rest ih =>
    cases given : value row with
    | none | some v => simp [given, ih]

end Table
