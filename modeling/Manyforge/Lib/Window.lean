import Mathlib.Data.List.Count
import Mathlib.Order.Basic

/-!
# Sliding windows

Entries with times, and how many of them lie in a window of fixed length. When the clock does not go
back, the window that ends with a new entry decides about all windows.
-/
namespace Window

variable {Entry : Type*} {time : Entry → Int} {span : Int} {entries : List Entry} {new : Entry}
  {limit : Int}

/-- The window that ends at `t`. -/
def within (time : Entry → Int) (span t : Int) (e : Entry) : Bool :=
  decide (t - span < time e) && decide (time e ≤ t)

def count (time : Entry → Int) (span : Int) (entries : List Entry) (t : Int) : Nat :=
  entries.countP (within time span t)

theorem count_append (t : Int) :
    count time span (entries ++ [new]) t = count time span entries t +
      if within time span t new then 1 else 0 := by
  simp [count, List.countP_append, List.countP_singleton]

theorem count_le_of_within (past : ∀ e ∈ entries, time e ≤ time new) {t : Int}
    (isWithin : within time span t new = true) :
    count time span entries t ≤ count time span entries (time new) := by
  apply List.countP_mono_left
  intro e isEntry inWindow
  have before := past e isEntry
  simp only [within, Bool.and_eq_true, decide_eq_true_eq] at isWithin inWindow ⊢
  omega

/-- One more entry fits into every window exactly when it fits into the one that it ends. -/
theorem forall_count_append_iff (positive : 0 < span) (past : ∀ e ∈ entries, time e ≤ time new)
    (bounded : ∀ t, (count time span entries t : Int) ≤ limit) :
    (∀ t, (count time span (entries ++ [new]) t : Int) ≤ limit) ↔
      count time span entries (time new) < limit := by
  constructor
  · intro after
    have own : within time span (time new) new = true := by
      simp only [within, Bool.and_eq_true, decide_eq_true_eq]
      omega
    have last := after (time new)
    rw [count_append, if_pos own] at last
    omega
  · intro room t
    rw [count_append]
    split
    next isWithin =>
      have fewer := count_le_of_within past isWithin
      omega
    next =>
      have same := bounded t
      omega

end Window
