import Mathlib.Data.List.Pairwise
import Mathlib.Data.List.Sort

/-!
# Tables

A table is the list of its rows. `updateWhere`, `insertOnConflict` and
`selectForUpdate` are the statements `UPDATE … WHERE`, `INSERT … ON CONFLICT DO
NOTHING` and `SELECT … ORDER BY … FOR UPDATE SKIP LOCKED LIMIT`. A unique
constraint is `UniqueOn` of its key, and `RowByRow` says what became of each row.
-/
namespace Table

variable {Row : Type*} {Key : Type*}

/-- `UPDATE t SET … WHERE …`. -/
def updateWhere (chosen : Row → Bool) (change : Row → Row) (rows : List Row) : List Row :=
  rows.map fun row => if chosen row then change row else row

variable {change : Row → Row} {chosen : Row → Bool} {row : Row} {rows : List Row} {key : Row → Key}

theorem mem_updateWhere :
    row ∈ updateWhere chosen change rows ↔
      ∃ old ∈ rows, (if chosen old then change old else old) = row := by
  simp [updateWhere]

theorem updated_or_kept (member : row ∈ updateWhere chosen change rows) :
    ∃ old ∈ rows, chosen old = true ∧ change old = row ∨ ¬ chosen old = true ∧ old = row := by
  obtain ⟨old, wasRow, rfl⟩ := mem_updateWhere.mp member
  by_cases holds : chosen old = true
  · exact ⟨old, wasRow, .inl ⟨holds, by rw [if_pos holds]⟩⟩
  · exact ⟨old, wasRow, .inr ⟨holds, by rw [if_neg holds]⟩⟩

theorem updated_mem (member : row ∈ rows) (isChosen : chosen row = true) :
    change row ∈ updateWhere chosen change rows :=
  mem_updateWhere.mpr ⟨row, member, by rw [if_pos isChosen]⟩

theorem kept_mem (member : row ∈ rows) (other : ¬ chosen row = true) :
    row ∈ updateWhere chosen change rows :=
  mem_updateWhere.mpr ⟨row, member, by rw [if_neg other]⟩

theorem mem_inserted {new : Row} : row ∈ rows ++ [new] ↔ row ∈ rows ∨ row = new := by
  simp

theorem forall_inserted {motive : Row → Prop} {new : Row} (was : ∀ row ∈ rows, motive row)
    (holds : motive new) : ∀ row ∈ rows ++ [new], motive row := by
  intro row member
  rcases mem_inserted.mp member with old | rfl
  · exact was row old
  · exact holds

theorem passes_index {taken : Row → Bool} :
    ¬ (rows.any chosen && rows.any taken) = true ↔
      ((∃ row ∈ rows, chosen row = true) → ∀ row ∈ rows, ¬ taken row = true) := by
  simp only [Bool.and_eq_true, List.any_eq_true, not_and, not_exists]

theorem column_updated {Value : Type*} {column : Row → Value}
    (kept : ∀ row, chosen row = true → column (change row) = column row) (row : Row) :
    column (if chosen row then change row else row) = column row := by
  split
  next holds => exact kept row holds
  next => rfl

theorem map_updateWhere {Value : Type*} (column : Row → Value) (rows : List Row)
    (kept : ∀ row, chosen row = true → column (change row) = column row) :
    (updateWhere chosen change rows).map column = rows.map column := by
  rw [updateWhere, List.map_map]
  exact List.map_congr_left fun row _ => column_updated kept row

theorem updateWhere_updateWhere {first second : Row → Row} (rows : List Row)
    (kept : ∀ row, chosen row = true → chosen (first row) = true) :
    updateWhere chosen second (updateWhere chosen first rows) =
      updateWhere chosen (second ∘ first) rows := by
  simp only [updateWhere, List.map_map]
  refine List.map_congr_left fun row _ => ?_
  simp only [Function.comp_apply]
  split
  next holds => rw [if_pos (kept row holds)]
  next => rfl

theorem updateWhere_eq_self (none : ∀ row ∈ rows, chosen row = false) :
    updateWhere chosen change rows = rows := by
  simp only [updateWhere]
  conv_rhs => rw [← List.map_id rows]
  refine List.map_congr_left fun row member => ?_
  simp [none row member]

/-- A further condition of the update, checked in the change of the row. -/
theorem updateWhere_and (chosen guard : Row → Bool) (change : Row → Row) (rows : List Row) :
    updateWhere (fun row => chosen row && guard row) change rows =
      updateWhere chosen (fun row => if guard row then change row else row) rows := by
  refine List.map_congr_left fun row _ => ?_
  by_cases holds : chosen row = true <;> simp [holds]

theorem filter_updateWhere {kept : Row → Bool} (rows : List Row)
    (same : ∀ row, chosen row = true → kept (change row) = kept row) :
    (updateWhere chosen change rows).filter kept = updateWhere chosen change (rows.filter kept) := by
  simp only [updateWhere, List.filter_map]
  congr 1
  exact List.filter_congr fun row _ => column_updated same row

theorem find?_updateWhere {found : Row → Bool} (rows : List Row)
    (same : ∀ row, chosen row = true → found (change row) = found row) :
    (updateWhere chosen change rows).find? found =
      (rows.find? found).map fun row => if chosen row then change row else row := by
  simp only [updateWhere, List.find?_map]
  congr 2
  exact funext fun row => column_updated same row

theorem any_updateWhere {found : Row → Bool} (rows : List Row)
    (same : ∀ row, chosen row = true → found (change row) = found row) :
    (updateWhere chosen change rows).any found = rows.any found := by
  simp only [updateWhere, List.any_map]
  congr 1
  exact funext fun row => column_updated same row

theorem foldl_updateWhere {Change : Type*} (chosen : Change → Row → Bool)
    (change : Change → Row → Row) (changes : List Change) (rows : List Row) :
    changes.foldl (fun rows c => updateWhere (chosen c) (change c) rows) rows =
      rows.map fun row =>
        changes.foldl (fun row c => if chosen c row then change c row else row) row := by
  induction changes generalizing rows with
  | nil => simp
  | cons c rest ih =>
    rw [List.foldl_cons, ih]
    simp [updateWhere]

/-- A generated key: one that no row has. -/
def freshKey (keys : List Nat) : Nat := keys.foldr max 0 + 1

theorem lt_freshKey {keys : List Nat} {key : Nat} (member : key ∈ keys) : key < freshKey keys := by
  unfold freshKey
  induction keys with
  | nil => cases member
  | cons first rest ih =>
    rw [List.foldr_cons]
    rcases List.mem_cons.mp member with rfl | later
    · omega
    · have := ih later
      omega

theorem freshKey_notMem (keys : List Nat) : freshKey keys ∉ keys :=
  fun member => lt_irrefl _ (lt_freshKey member)

theorem of_find? [BEq Key] [LawfulBEq Key] {k : Key}
    (found : rows.find? (key · == k) = some row) : row ∈ rows ∧ key row = k :=
  ⟨List.mem_of_find?_eq_some found, by simpa using List.find?_some found⟩

theorem ne_of_not_any [BEq Key] [LawfulBEq Key] {k : Key}
    (absent : ¬ rows.any (key · == k) = true) : ∀ row ∈ rows, key row ≠ k :=
  fun row member same => absent (List.any_eq_true.mpr ⟨row, member, beq_iff_eq.mpr same⟩)

theorem of_find?_key [BEq Key] [LawfulBEq Key] {k : Key} {also : Row → Bool}
    (found : rows.find? (fun row => key row == k && also row) = some row) :
    row ∈ rows ∧ key row = k ∧ also row = true :=
  ⟨List.mem_of_find?_eq_some found, by simpa using List.find?_some found⟩

theorem of_find?_keys {Key' : Type*} [BEq Key] [LawfulBEq Key] [BEq Key'] [LawfulBEq Key']
    {key' : Row → Key'} {k : Key} {k' : Key'}
    (found : rows.find? (fun row => key row == k && key' row == k') = some row) :
    row ∈ rows ∧ key row = k ∧ key' row = k' := by
  simpa only [beq_iff_eq] using of_find?_key found

/-- A unique constraint: no two rows share the key. -/
def UniqueOn (key : Row → Key) (rows : List Row) : Prop := (rows.map key).Nodup

instance [DecidableEq Key] (key : Row → Key) (rows : List Row) : Decidable (UniqueOn key rows) :=
  inferInstanceAs (Decidable (List.Nodup _))

theorem UniqueOn.nil (key : Row → Key) : UniqueOn key [] := List.nodup_nil

section

variable (unique : UniqueOn key rows)

include unique

theorem UniqueOn.eq_of_key {a b : Row} (a_mem : a ∈ rows)
    (b_mem : b ∈ rows) (same : key a = key b) : a = b :=
  List.inj_on_of_nodup_map unique a_mem b_mem same

theorem UniqueOn.find?_key [DecidableEq Key] (member : row ∈ rows) :
    rows.find? (fun other => key other == key row) = some row := by
  cases found : rows.find? fun other => key other == key row with
  | none => exact absurd (List.find?_eq_none.mp found row member) (by simp)
  | some other =>
    have same : key other = key row := by simpa using List.find?_some found
    rw [unique.eq_of_key (List.mem_of_find?_eq_some found) member same]

theorem UniqueOn.updateWhere (kept : ∀ row, chosen row = true → key (change row) = key row) :
    UniqueOn key (updateWhere chosen change rows) := by
  rw [UniqueOn, map_updateWhere key rows kept]
  exact unique

theorem UniqueOn.eq_updated (kept : ∀ row, chosen row = true → key (change row) = key row)
    {row' : Row} (member : row ∈ rows) (member' : row' ∈ Table.updateWhere chosen change rows)
    (same : key row' = key row) : row' = if chosen row then change row else row := by
  obtain ⟨old, old_mem, rfl⟩ := mem_updateWhere.mp member'
  rw [unique.eq_of_key old_mem member ((column_updated kept old).symm.trans same)]

theorem UniqueOn.append_fresh (fresh : ∀ old ∈ rows, key old ≠ key row) :
    UniqueOn key (rows ++ [row]) := by
  rw [UniqueOn, List.map_append, List.map_singleton]
  refine List.Nodup.append unique (List.nodup_singleton _) ?_
  simp only [List.disjoint_singleton, List.mem_map, not_exists, not_and]
  exact fresh

theorem UniqueOn.filter (kept : Row → Bool) : UniqueOn key (rows.filter kept) :=
  List.Nodup.sublist (List.Sublist.map key List.filter_sublist) unique

/-- The key can be read off columns that did not change. -/
theorem UniqueOn.of_columns {Columns : Type*} {columns : Row → Columns} {rows' : List Row} (read : Columns → Key)
    (reads : ∀ row, read (columns row) = key row) (same : rows'.map columns = rows.map columns) :
    UniqueOn key rows' := by
  have column (rows : List Row) : rows.map key = (rows.map columns).map read := by
    simp [List.map_map, Function.comp_def, reads]
  rw [UniqueOn, column, same, ← column]
  exact unique

/-- Rows that a unique constraint cannot tell apart are at most one row. -/
theorem UniqueOn.filter_length_le_one
    (same : ∀ a ∈ rows, ∀ b ∈ rows, chosen a = true → chosen b = true → key a = key b) :
    (rows.filter chosen).length ≤ 1 := by
  have filtered := unique.filter chosen
  have members : ∀ row ∈ rows.filter chosen, row ∈ rows ∧ chosen row = true :=
    fun row member => List.mem_filter.mp member
  cases left : rows.filter chosen with
  | nil => simp
  | cons a rest =>
    cases rest with
    | nil => simp
    | cons b rest =>
      rw [left] at filtered members
      obtain ⟨a_mem, a_chosen⟩ := members a (by simp)
      obtain ⟨b_mem, b_chosen⟩ := members b (by simp)
      have equal := same a a_mem b b_mem a_chosen b_chosen
      simp [UniqueOn, equal] at filtered

end

theorem UniqueOn.append_freshKey {key : Row → Nat} (unique : UniqueOn key rows)
    (generated : key row = freshKey (rows.map key)) : UniqueOn key (rows ++ [row]) := by
  refine unique.append_fresh fun old member same => freshKey_notMem (rows.map key) ?_
  rw [← generated, ← same]
  exact List.mem_map_of_mem member

/-! ### Unique indexes over a nullable column -/

/-- A unique index over a column that can be null: no two rows share a value, and nulls do not
count. -/
def UniqueSome (key : Row → Option Key) (rows : List Row) : Prop :=
  rows.Pairwise fun a b => ∀ k ∈ key a, k ∉ key b

instance [DecidableEq Key] (key : Row → Option Key) (rows : List Row) :
    Decidable (UniqueSome key rows) :=
  inferInstanceAs (Decidable (List.Pairwise _ _))

theorem UniqueSome.nil (key : Row → Option Key) : UniqueSome key [] := List.Pairwise.nil

theorem UniqueSome.eq_of_key {key : Row → Option Key} (unique : UniqueSome key rows) {a b : Row}
    (a_mem : a ∈ rows)
    (b_mem : b ∈ rows) {k : Key} (a_key : key a = some k) (b_key : key b = some k) : a = b := by
  by_contra differ
  have : Std.Symm fun a b : Row => ∀ k ∈ key a, k ∉ key b :=
    ⟨fun _ _ apart k right left => apart k left right⟩
  exact unique.forall a_mem b_mem differ k a_key b_key

theorem UniqueSome.append {key : Row → Option Key} (unique : UniqueSome key rows)
    (fresh : ∀ k ∈ key row, ∀ old ∈ rows, key old ≠ some k) : UniqueSome key (rows ++ [row]) := by
  refine List.pairwise_append.mpr ⟨unique, List.pairwise_singleton _ _, ?_⟩
  intro old member new isNew k oldKey newKey
  obtain rfl := List.mem_singleton.mp isNew
  exact fresh k newKey old member oldKey

theorem UniqueSome.updateWhere {key : Row → Option Key} (unique : UniqueSome key rows)
    (kept : ∀ row, chosen row = true → key (change row) = key row) :
    UniqueSome key (updateWhere chosen change rows) := by
  refine List.pairwise_map.mpr (unique.imp fun apart => ?_)
  rwa [column_updated kept, column_updated kept]

theorem UniqueSome.stamp {Id : Type*} {id : Row → Id} {key : Row → Option Key}
    (unique : UniqueSome key rows)
    (ids : UniqueOn id rows) (only : Id) (one : ∀ row, chosen row = true → id row = only) {k : Key}
    (stamped : ∀ row, chosen row = true → key (change row) = some k)
    (fresh : (∃ row ∈ rows, chosen row = true) → ∀ row ∈ rows, key row ≠ some k) :
    UniqueSome key (Table.updateWhere chosen change rows) := by
  refine List.pairwise_map.mpr ((unique.and (List.pairwise_map.mp ids)).imp_of_mem ?_)
  rintro a b a_mem b_mem ⟨apart, differ⟩ j a_key b_key
  split at a_key
  next a_chosen =>
    obtain rfl : k = j := Option.some.inj ((stamped a a_chosen).symm.trans a_key)
    split at b_key
    next b_chosen => exact differ ((one a a_chosen).trans (one b b_chosen).symm)
    next => exact fresh ⟨a, a_mem, a_chosen⟩ b b_mem b_key
  next =>
  split at b_key
  next b_chosen =>
    obtain rfl : k = j := Option.some.inj ((stamped b b_chosen).symm.trans b_key)
    exact fresh ⟨b, b_mem, b_chosen⟩ a a_mem a_key
  next => exact apart j a_key b_key

/-- What became of each row, when none was added or deleted. -/
def RowByRow (rel : Row → Row → Prop) (rows rows' : List Row) : Prop := List.Forall₂ rel rows rows'

namespace RowByRow

variable {rel : Row → Row → Prop} {rows rows' rows'' : List Row}

theorem refl (same : ∀ row, rel row row) (rows : List Row) : RowByRow rel rows rows :=
  List.forall₂_same.mpr fun row _ => same row

theorem comp {rel' rel'' : Row → Row → Prop} (first : RowByRow rel rows rows')
    (compose : ∀ a b c, rel a b → rel' b c → rel'' a c) (second : RowByRow rel' rows' rows'') :
    RowByRow rel'' rows rows'' := by
  induction first generalizing rows'' with
  | nil =>
    cases second with
    | nil => exact .nil
  | cons related _ ih =>
    cases second with
    | cons related' rest => exact .cons (compose _ _ _ related related') (ih rest)

theorem trans (first : RowByRow rel rows rows') (compose : ∀ a b c, rel a b → rel b c → rel a c)
    (second : RowByRow rel rows' rows'') : RowByRow rel rows rows'' :=
  first.comp compose second

theorem updateWhere (same : ∀ row, rel row row) {chosen : Row → Bool} {change : Row → Row}
    {rows : List Row} (changed : ∀ row ∈ rows, chosen row = true → rel row (change row)) :
    RowByRow rel rows (updateWhere chosen change rows) := by
  refine List.forall₂_map_right_iff.mpr (List.forall₂_same.mpr fun row member => ?_)
  split
  next holds => exact changed row member holds
  next => exact same row

theorem mono {rel' : Row → Row → Prop} (weaker : ∀ a b, rel a b → rel' a b)
    (rowByRow : RowByRow rel rows rows') : RowByRow rel' rows rows' :=
  List.Forall₂.imp weaker rowByRow

variable (rowByRow : RowByRow rel rows rows')

include rowByRow

theorem exists_after {row : Row} (member : row ∈ rows) : ∃ row' ∈ rows', rel row row' := by
  induction rowByRow with
  | nil => cases member
  | cons related _ ih =>
    rcases List.mem_cons.mp member with rfl | later
    · exact ⟨_, List.mem_cons_self, related⟩
    · obtain ⟨row', member', related'⟩ := ih later
      exact ⟨row', List.mem_cons_of_mem _ member', related'⟩

theorem exists_before {row' : Row} (member : row' ∈ rows') : ∃ row ∈ rows, rel row row' :=
  exists_after (List.Forall₂.flip rowByRow) member

theorem map_eq {Value : Type*} {column : Row → Value} (kept : ∀ a b, rel a b → column b = column a) :
    rows'.map column = rows.map column := by
  induction rowByRow with
  | nil => rfl
  | cons related _ ih => rw [List.map_cons, List.map_cons, ih, kept _ _ related]

theorem uniqueOn {key : Row → Key} (kept : ∀ a b, rel a b → key b = key a)
    (unique : UniqueOn key rows) : UniqueOn key rows' := by
  rw [UniqueOn, rowByRow.map_eq kept]
  exact unique

theorem any {chosen : Row → Bool} (kept : ∀ a b, rel a b → chosen b = chosen a) :
    rows'.any chosen = rows.any chosen := by
  have read (rows : List Row) : rows.any chosen = (rows.map chosen).any id := by rw [List.any_map]; rfl
  rw [read, rowByRow.map_eq kept, ← read]

theorem filter {chosen : Row → Bool} (kept : ∀ a b, rel a b → chosen b = chosen a) :
    RowByRow rel (rows.filter chosen) (rows'.filter chosen) := by
  induction rowByRow with
  | nil => exact .nil
  | @cons a b _ _ related _ ih =>
    rw [List.filter_cons, List.filter_cons, kept _ _ related]
    split
    · exact .cons related ih
    · exact ih

theorem find? {chosen : Row → Bool} (kept : ∀ a b, rel a b → chosen b = chosen a) :
    Option.Rel rel (rows.find? chosen) (rows'.find? chosen) := by
  induction rowByRow with
  | nil => exact .none
  | @cons a b _ _ related _ ih =>
    rw [List.find?_cons, List.find?_cons, kept _ _ related]
    split
    · exact .some related
    · exact ih

end RowByRow

section Insert

variable [DecidableEq Key]

/-- `INSERT … ON CONFLICT (key) DO NOTHING`. -/
def insertOnConflict (key : Row → Key) (row : Row) (rows : List Row) : List Row :=
  if rows.any fun old => key old = key row then rows else rows ++ [row]

variable {key : Row → Key} {rows : List Row}

theorem mem_insertOnConflict_of_mem {new row : Row} (member : row ∈ rows) :
    row ∈ insertOnConflict key new rows := by
  unfold insertOnConflict
  split
  · exact member
  · exact List.mem_append_left _ member

theorem UniqueOn.insertOnConflict (unique : UniqueOn key rows) (row : Row) :
    UniqueOn key (insertOnConflict key row rows) := by
  unfold Table.insertOnConflict
  split
  · exact unique
  next absent => exact unique.append_fresh (ne_of_not_any absent)

theorem key_mem_insertOnConflict (key : Row → Key) (row : Row) (rows : List Row) :
    key row ∈ (insertOnConflict key row rows).map key := by
  unfold insertOnConflict
  split
  next present =>
    obtain ⟨old, member, same⟩ := List.any_eq_true.mp present
    exact List.mem_map.mpr ⟨old, member, by simpa using same⟩
  · simp

/-- `INSERT … SELECT … ON CONFLICT (key) DO NOTHING`. -/
def insertAll (key : Row → Key) (new rows : List Row) : List Row :=
  new.foldl (fun rows row => insertOnConflict key row rows) rows

theorem UniqueOn.insertAll (unique : UniqueOn key rows) (new : List Row) :
    UniqueOn key (insertAll key new rows) := by
  induction new generalizing rows with
  | nil => exact unique
  | cons row rest ih => exact ih (unique.insertOnConflict row)

theorem key_mem_insertAll_of_mem {new : List Row} {k : Key} (member : k ∈ rows.map key) :
    k ∈ (insertAll key new rows).map key := by
  induction new generalizing rows with
  | nil => exact member
  | cons row rest ih =>
    obtain ⟨old, old_mem, rfl⟩ := List.mem_map.mp member
    exact ih (List.mem_map_of_mem (mem_insertOnConflict_of_mem old_mem))

theorem key_mem_insertAll {new : List Row} {row : Row} (member : row ∈ new) :
    key row ∈ (insertAll key new rows).map key := by
  induction new generalizing rows with
  | nil => cases member
  | cons first rest ih =>
    rcases List.mem_cons.mp member with rfl | later
    · -- The row is there after its own insertion, and the other insertions keep it.
      have kept : key row ∈ (insertAll key rest (insertOnConflict key row rows)).map key :=
        key_mem_insertAll_of_mem (key_mem_insertOnConflict key row rows)
      exact kept
    · exact ih later

end Insert

section Select

variable {before : Row → Row → Prop} [DecidableRel before]

/-- `SELECT … WHERE … ORDER BY … LIMIT n`. -/
def selectFirst (chosen : Row → Bool) (before : Row → Row → Prop) [DecidableRel before]
    (limit : Nat) (rows : List Row) : List Row :=
  ((rows.filter chosen).insertionSort before).take limit

variable {rows : List Row} {chosen : Row → Bool} {limit : Nat} {row : Row}

theorem mem_sorted :
    row ∈ (rows.filter chosen).insertionSort before ↔ row ∈ rows ∧ chosen row = true := by
  rw [List.mem_insertionSort, List.mem_filter]

theorem mem_selectFirst
    (member : row ∈ selectFirst chosen before limit rows) : row ∈ rows ∧ chosen row = true :=
  mem_sorted.mp (List.mem_of_mem_take member)

theorem UniqueOn.selectFirst {key : Row → Key} (unique : UniqueOn key rows) (chosen : Row → Bool)
    (limit : Nat) : UniqueOn key (selectFirst chosen before limit rows) := by
  have sorted : UniqueOn key ((rows.filter chosen).insertionSort before) :=
    ((List.perm_insertionSort before _).map key).nodup_iff.mpr (unique.filter chosen)
  exact List.Nodup.sublist ((List.take_sublist limit _).map key) sorted

theorem before_of_not_mem_selectFirst [Std.Total before] [IsTrans Row before] (member : row ∈ rows)
    (holds : chosen row = true) (left_out : row ∉ selectFirst chosen before limit rows) :
    ∀ taken ∈ selectFirst chosen before limit rows, before taken row := by
  intro taken taken_mem
  have sorted := List.pairwise_insertionSort before (rows.filter chosen)
  rw [← List.take_append_drop limit ((rows.filter chosen).insertionSort before)] at sorted
  have among : row ∈ (rows.filter chosen).insertionSort before := mem_sorted.mpr ⟨member, holds⟩
  rw [← List.take_append_drop limit ((rows.filter chosen).insertionSort before)] at among
  rcases List.mem_append.mp among with taken_too | dropped
  · exact absurd taken_too left_out
  · exact (List.pairwise_append.mp sorted).2.2 taken taken_mem row dropped

theorem selectFirst_ne_nil (positive : 0 < limit) (member : row ∈ rows)
    (holds : chosen row = true) :
    selectFirst chosen before limit rows ≠ [] := by
  have among : row ∈ (rows.filter chosen).insertionSort before := mem_sorted.mpr ⟨member, holds⟩
  unfold selectFirst
  cases sorted : (rows.filter chosen).insertionSort before with
  | nil => simp [sorted] at among
  | cons first rest =>
    cases limit with
    | zero => omega
    | succ limit => simp

/-- `SELECT … WHERE … ORDER BY … FOR UPDATE SKIP LOCKED LIMIT n`: rows locked by another
transaction are passed over. -/
def selectForUpdate (chosen locked : Row → Bool) (before : Row → Row → Prop)
    [DecidableRel before] (limit : Nat) (rows : List Row) : List Row :=
  selectFirst (fun row => chosen row && !locked row) before limit rows

theorem mem_selectForUpdate {chosen locked : Row → Bool}
    (member : row ∈ selectForUpdate chosen locked before limit rows) :
    row ∈ rows ∧ chosen row = true ∧ locked row = false := by
  simpa using mem_selectFirst member

theorem length_selectForUpdate_le (chosen locked : Row → Bool) (limit : Nat) (rows : List Row) :
    (selectForUpdate chosen locked before limit rows).length ≤ limit :=
  List.length_take_le limit _

end Select

end Table
