import Mathlib.Order.MinMax
import Manyforge.Lib.Table

/-!
# Keyset pagination

A scan reads a table page by page in the order of a key, each page starting above
the cursor the one before it left. The table may change between the pages: a key
that is chosen whenever a page is read is on a page once the scan has passed it.
-/
namespace Keyset

open Table

variable {Row Key : Type*} [LinearOrder Key]

/-- The keys still to be read; without a cursor these are all. -/
def above (cursor : Option Key) (key : Key) : Bool := cursor.all fun last => decide (last < key)

@[simp] theorem above_none (key : Key) : above none key = true := rfl

@[simp] theorem above_some {last key : Key} : above (some last) key = true ↔ last < key := by
  simp [above]

def page (key : Row → Key) (chosen : Row → Bool) (cursor : Option Key) (limit : Nat)
    (rows : List Row) : List Row :=
  selectFirst (fun row => chosen row && above cursor (key row))
    (fun a b => key a ≤ key b) limit rows

def lastKey (key : Row → Key) (rows : List Row) : Option Key := (rows.map key).max?

/-- The cursor after a page; an empty page leaves it. -/
def advance (cursor last : Option Key) : Option Key := last.or cursor

/-- The second cursor is not behind the first. -/
def AtLeast (cursor cursor' : Option Key) : Prop :=
  ∀ last, cursor = some last → ∃ last', cursor' = some last' ∧ last ≤ last'

theorem AtLeast.refl (cursor : Option Key) : AtLeast cursor cursor :=
  fun last found => ⟨last, found, le_rfl⟩

theorem AtLeast.trans {a b c : Option Key} (first : AtLeast a b) (second : AtLeast b c) :
    AtLeast a c := by
  intro last found
  obtain ⟨last', found', le⟩ := first last found
  obtain ⟨last'', found'', le'⟩ := second last' found'
  exact ⟨last'', found'', le.trans le'⟩

section Page

variable {key : Row → Key} {chosen : Row → Bool} {cursor : Option Key} {limit : Nat}
  {rows : List Row}

theorem mem_page {row : Row} (member : row ∈ page key chosen cursor limit rows) :
    row ∈ rows ∧ chosen row = true ∧ above cursor (key row) = true := by
  simpa using mem_selectFirst member

theorem lastKey_mem {last : Key} (found : lastKey key rows = some last) :
    ∃ row ∈ rows, key row = last := by
  have choice : Std.MaxEqOr Key := ⟨fun a b => (le_total b a).imp max_eq_left max_eq_right⟩
  simpa using List.max?_mem found

theorem le_lastKey {last : Key} (found : lastKey key rows = some last) {row : Row}
    (member : row ∈ rows) : key row ≤ last := by
  have sup : Std.LawfulOrderSup Key := ⟨fun _ _ _ => max_le_iff⟩
  exact (List.max?_le_iff found).mp le_rfl _ (List.mem_map_of_mem member)

theorem lastKey_eq_none : lastKey key rows = none ↔ rows = [] := by simp [lastKey]

/-- A chosen row above the cursor is on the page, or the page ends before it. -/
theorem page_covers (positive : 0 < limit) {row : Row} (member : row ∈ rows)
    (holds : chosen row = true) (unread : above cursor (key row) = true) :
    key row ∈ (page key chosen cursor limit rows).map key ∨
      ∃ last, lastKey key (page key chosen cursor limit rows) = some last ∧ last < key row := by
  by_cases read : key row ∈ (page key chosen cursor limit rows).map key
  · exact .inl read
  right
  have wanted : (chosen row && above cursor (key row)) = true := by simp [holds, unread]
  have total : Std.Total fun a b : Row => key a ≤ key b := ⟨fun a b => le_total _ _⟩
  have transitive : IsTrans Row fun a b => key a ≤ key b := ⟨fun _ _ _ => le_trans⟩
  have left_out : row ∉ page key chosen cursor limit rows :=
    fun taken => read (List.mem_map_of_mem taken)
  have earlier := before_of_not_mem_selectFirst member wanted left_out
  have some_row : page key chosen cursor limit rows ≠ [] :=
    selectFirst_ne_nil positive member wanted
  obtain ⟨last, found⟩ : ∃ last, lastKey key (page key chosen cursor limit rows) = some last :=
    Option.ne_none_iff_exists'.mp fun none => some_row (lastKey_eq_none.mp none)
  obtain ⟨taken, taken_mem, rfl⟩ := lastKey_mem found
  refine ⟨key taken, found, lt_of_le_of_ne (earlier taken taken_mem) ?_⟩
  intro same
  exact read (same ▸ List.mem_map_of_mem taken_mem)

theorem atLeast_advance :
    AtLeast cursor (advance cursor (lastKey key (page key chosen cursor limit rows))) := by
  rintro start rfl
  cases found : lastKey key (page key chosen (some start) limit rows) with
  | none => exact ⟨start, rfl, le_rfl⟩
  | some last =>
    obtain ⟨row, member, rfl⟩ := lastKey_mem found
    exact ⟨key row, rfl, (above_some.mp (mem_page member).2.2).le⟩

theorem length_page_le : (page key chosen cursor limit rows).length ≤ limit :=
  List.length_take_le limit _

theorem page_eq_nil (none_chosen : ∀ row ∈ rows, chosen row = false) :
    page key chosen cursor limit rows = [] := by
  apply List.eq_nil_iff_forall_not_mem.mpr
  intro row member
  obtain ⟨isRow, holds, -⟩ := mem_page member
  simp [none_chosen row isRow] at holds

end Page

/-! ### Listings -/

/-- The token of the next page, if there is one: the last key of a page that leaves rows out. -/
def nextToken (key : Row → Key) (chosen : Row → Bool) (cursor : Option Key) (limit : Nat)
    (rows : List Row) : Option Key :=
  if (rows.filter fun row => chosen row && above cursor (key row)).length ≤ limit then none
  else lastKey key (page key chosen cursor limit rows)

/-- Pages from the `k`th on, `more` after it at most, until there is no next token. Each page is
answered from the table, and with the choice, of its own time. -/
def listing (key : Row → Key) (limit : Nat) (chosen : Nat → Row → Bool) (rows : Nat → List Row) :
    (more k : Nat) → (cursor : Option Key) → List Row
  | 0, k, cursor => page key (chosen k) cursor limit (rows k)
  | more + 1, k, cursor =>
    page key (chosen k) cursor limit (rows k) ++
      match nextToken key (chosen k) cursor limit (rows k) with
      | none => []
      | some last => listing key limit chosen rows more (k + 1) (some last)

section Listing

variable {key : Row → Key} {limit : Nat} {cursor : Option Key}

theorem nextToken_of_not_mem (positive : 0 < limit) {chosen : Row → Bool} {rows : List Row}
    {row : Row} (member : row ∈ rows) (holds : chosen row = true)
    (unread : above cursor (key row) = true)
    (left_out : key row ∉ (page key chosen cursor limit rows).map key) :
    (page key chosen cursor limit rows).length = limit ∧
      ∃ last, nextToken key chosen cursor limit rows = some last ∧ last < key row := by
  obtain ⟨last, found, below⟩ := (page_covers positive member holds unread).resolve_left left_out
  have long : ¬ (rows.filter fun row => chosen row && above cursor (key row)).length ≤ limit := by
    intro short
    apply left_out
    have all : page key chosen cursor limit rows =
        (rows.filter fun row => chosen row && above cursor (key row)).insertionSort fun a b =>
          key a ≤ key b :=
      List.take_of_length_le (by simpa using short)
    rw [all]
    apply List.mem_map_of_mem
    rw [List.mem_insertionSort]
    exact List.mem_filter.mpr ⟨member, by simp [holds, unread]⟩
  refine ⟨?_, last, ?_, below⟩
  · simp only [page, selectFirst, List.length_take, List.length_insertionSort]
    omega
  · rw [nextToken, if_neg long, found]

variable {chosen : Nat → Row → Bool} {rows : Nat → List Row}

theorem nextToken_some {chosen : Row → Bool} {rows : List Row} {last : Key}
    (token : nextToken key chosen cursor limit rows = some last) :
    lastKey key (page key chosen cursor limit rows) = some last := by
  simp only [nextToken] at token
  split at token
  next => cases token
  next => exact token

theorem length_listing_le (more k : Nat) (cursor : Option Key) :
    (listing key limit chosen rows more k cursor).length ≤ limit * (more + 1) := by
  induction more generalizing k cursor with
  | zero => simpa [listing] using length_page_le
  | succ more ih =>
    have first : (page key (chosen k) cursor limit (rows k)).length ≤ limit := length_page_le
    simp only [listing, List.length_append, Nat.mul_succ limit (more + 1)]
    split
    next => simp only [List.length_nil]; omega
    next last _ => have rest := ih (k + 1) (some last); omega

theorem length_listing_le_of_none (more k m : Nat) (cursor : Option Key)
    (none_chosen : ∀ j, k + m ≤ j → ∀ row ∈ rows j, chosen j row = false) :
    (listing key limit chosen rows more k cursor).length ≤ limit * m := by
  have first : (page key (chosen k) cursor limit (rows k)).length ≤ limit := length_page_le
  have empty (isZero : m = 0) : page key (chosen k) cursor limit (rows k) = [] :=
    page_eq_nil (none_chosen k (by omega))
  induction more generalizing k m cursor with
  | zero =>
    cases m with
    | zero => simp [listing, empty rfl]
    | succ m =>
      simp only [listing, Nat.mul_succ limit m]
      omega
  | succ more ih =>
    cases m with
    | zero =>
      have ended : nextToken key (chosen k) cursor limit (rows k) = none := by
        simp [nextToken, empty rfl, lastKey]
      simp [listing, empty rfl, ended]
    | succ m =>
      simp only [listing, List.length_append, Nat.mul_succ limit m]
      split
      next => simp only [List.length_nil]; omega
      next last _ =>
      have later (j : Nat) (after : k + 1 + m ≤ j) : ∀ row ∈ rows j, chosen j row = false :=
        none_chosen j (by omega)
      have rest := ih (k + 1) m (some last) later length_page_le
        fun isZero => page_eq_nil (later (k + 1) (by omega))
      omega

theorem mem_listing {more k : Nat} {row : Row}
    (member : row ∈ listing key limit chosen rows more k cursor) :
    above cursor (key row) = true ∧ ∃ j, k ≤ j ∧ row ∈ rows j ∧ chosen j row = true := by
  have onFirst (onPage : row ∈ page key (chosen k) cursor limit (rows k)) :
      above cursor (key row) = true ∧ ∃ j, k ≤ j ∧ row ∈ rows j ∧ chosen j row = true := by
    obtain ⟨isRow, holds, unread⟩ := mem_page onPage
    exact ⟨unread, k, le_rfl, isRow, holds⟩
  induction more generalizing k cursor with
  | zero => exact onFirst member
  | succ more ih =>
    rcases List.mem_append.mp member with onPage | later
    · exact onFirst onPage
    · split at later
      next => simp at later
      next last token =>
      obtain ⟨unread, j, after, found⟩ := ih later fun onPage => by
        obtain ⟨isRow, holds, unread⟩ := mem_page onPage
        exact ⟨unread, k + 1, le_rfl, isRow, holds⟩
      refine ⟨?_, j, by omega, found⟩
      -- The token is the key of a row above the cursor.
      obtain ⟨taken, onPage, rfl⟩ := lastKey_mem (nextToken_some token)
      have passed := (mem_page onPage).2.2
      cases cursor with
      | none => rfl
      | some start => exact above_some.mpr ((above_some.mp passed).trans (above_some.mp unread))

theorem unique_listing (unique : ∀ k, UniqueOn key (rows k)) (more k : Nat) (cursor : Option Key) :
    UniqueOn key (listing key limit chosen rows more k cursor) := by
  induction more generalizing k cursor with
  | zero => exact (unique k).selectFirst _ _
  | succ more ih =>
    have first : UniqueOn key (page key (chosen k) cursor limit (rows k)) := (unique k).selectFirst _ _
    simp only [listing]
    split
    next => simpa using first
    next last token =>
    rw [UniqueOn, List.map_append, List.nodup_append]
    refine ⟨first, ih (k + 1) (some last), ?_⟩
    simp only [List.mem_map]
    rintro _ ⟨row, onPage, rfl⟩ _ ⟨other, isLater, rfl⟩
    -- Every key of the page is at most the token, which every later key is above.
    have below := le_lastKey (nextToken_some token) onPage
    have beyond := above_some.mp (mem_listing isLater).1
    exact (below.trans_lt beyond).ne

/-- A row that may move up in the order between the pages, but never down, is listed, or at some
page it is not among the chosen, or it is beyond the last page; the pages before that are full. -/
theorem listing_covers (positive : 0 < limit) {row : Nat → Row}
    (up : ∀ k, key (row k) ≤ key (row (k + 1)))
    (more k : Nat) (cursor : Option Key) (unread : above cursor (key (row k)) = true) :
    (∃ j, key (row j) ∈ (listing key limit chosen rows more k cursor).map key) ∨
      ∃ j ≤ more + 1, limit * j ≤ (listing key limit chosen rows more k cursor).length ∧
        (∀ i < j, row (k + i) ∈ rows (k + i) ∧ chosen (k + i) (row (k + i)) = true) ∧
        (j ≤ more → ¬ (row (k + j) ∈ rows (k + j) ∧ chosen (k + j) (row (k + j)) = true)) := by
  induction more generalizing k cursor with
  | zero =>
    by_cases present : row k ∈ rows k ∧ chosen k (row k) = true
    · by_cases listed : key (row k) ∈ (page key (chosen k) cursor limit (rows k)).map key
      · exact .inl ⟨k, listed⟩
      · obtain ⟨full, -⟩ := nextToken_of_not_mem positive present.1 present.2 unread listed
        refine .inr ⟨1, le_rfl, by simp [listing, full], ?_, by simp⟩
        intro i isZero
        obtain rfl : i = 0 := by omega
        exact present
    · exact .inr ⟨0, by omega, by simp, by simp, fun _ => present⟩
  | succ more ih =>
    by_cases present : row k ∈ rows k ∧ chosen k (row k) = true
    · by_cases listed : key (row k) ∈ (page key (chosen k) cursor limit (rows k)).map key
      · exact .inl ⟨k, by simp only [listing, List.map_append]; exact List.mem_append_left _ listed⟩
      · obtain ⟨full, last, token, below⟩ :=
          nextToken_of_not_mem positive present.1 present.2 unread listed
        have rest := ih (k + 1) (some last) (above_some.mpr (below.trans_le (up k)))
        simp only [listing, token, List.map_append, List.length_append, full]
        rcases rest with ⟨j, later⟩ | ⟨j, le, long, before, gone⟩
        · exact .inl ⟨j, List.mem_append_right _ later⟩
        · refine .inr ⟨j + 1, by omega, by rw [Nat.mul_succ]; omega, ?_, ?_⟩
          · intro i below
            cases i with
            | zero => exact present
            | succ i => simpa [Nat.add_assoc, Nat.add_comm 1] using before i (by omega)
          · intro within
            simpa [Nat.add_assoc, Nat.add_comm 1] using gone (by omega)
    · exact .inr ⟨0, by omega, by simp, by simp, fun _ => present⟩

end Listing

end Keyset
