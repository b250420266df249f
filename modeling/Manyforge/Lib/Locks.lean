import Manyforge.Lib.Table

/-!
# Row locks

The open transactions of a database, each under a name, and the rows that each of them has locked. A
transaction that wants a row waits until no other one has it; locks are held to the end.
-/
namespace Locks

open Table

variable {Tx Name Row : Type*}
variable {name : Tx → Name} {locks : Tx → List Row} {open_ : List Tx}

/-- No transaction but the one of this name has the row. -/
def free [DecidableEq Name] [DecidableEq Row] (name : Tx → Name) (locks : Tx → List Row)
    (open_ : List Tx) (own : Name) (row : Row) : Bool :=
  open_.all fun tx => name tx == own || !(locks tx).contains row

/-- No row is locked twice. -/
def Exclusive (name : Tx → Name) (locks : Tx → List Row) (open_ : List Tx) : Prop :=
  ∀ tx ∈ open_, ∀ other ∈ open_, ∀ row ∈ locks tx, row ∈ locks other → name tx = name other

variable (exclusive : Exclusive name locks open_)

include exclusive

theorem Exclusive.apart {tx other : Tx} (isOpen : tx ∈ open_) (isOpen' : other ∈ open_)
    (differs : name other ≠ name tx) {row : Row} (held : row ∈ locks tx) : row ∉ locks other :=
  fun taken => differs (exclusive other isOpen' tx isOpen row taken held)

omit exclusive in
theorem free_iff [DecidableEq Name] [DecidableEq Row] {own : Name} {row : Row} :
    free name locks open_ own row = true ↔ ∀ tx ∈ open_, name tx ≠ own → row ∉ locks tx := by
  simp only [free, List.all_eq_true, Bool.or_eq_true, beq_iff_eq, Bool.not_eq_true',
    List.contains_eq_mem, decide_eq_false_iff_not]
  exact forall₂_congr fun tx _ => or_iff_not_imp_left

theorem Exclusive.of_subset {fewer : List Tx} (stay : ∀ tx ∈ fewer, tx ∈ open_) :
    Exclusive name locks fewer :=
  fun tx isOpen other isOpen' => exclusive tx (stay tx isOpen) other (stay other isOpen')

omit exclusive in
theorem forall_advanced [DecidableEq Name] {motive : Tx → Prop} {own : Name} {tx' : Tx}
    (was : ∀ other ∈ open_, name other ≠ own → motive other) (new : motive tx') :
    ∀ other ∈ updateWhere (name · == own) (fun _ => tx') open_, motive other := by
  intro other isOpen
  obtain ⟨old, wasOpen, rfl⟩ := mem_updateWhere.mp isOpen
  split
  next => exact new
  next differs => exact was old wasOpen (by simpa using differs)

/-- A transaction may begin with locks that nobody has. -/
theorem Exclusive.begun {tx : Tx} (gains : ∀ row ∈ locks tx, ∀ other ∈ open_, row ∉ locks other) :
    Exclusive name locks (open_ ++ [tx]) := by
  refine forall_inserted (fun other isOpen => forall_inserted (exclusive other isOpen) ?_)
    (forall_inserted ?_ ?_)
  · exact fun row held taken => absurd held (gains row taken other isOpen)
  · exact fun other isOpen row held taken => absurd taken (gains row held other isOpen)
  · exact fun _ _ _ => rfl

/-- A transaction may gain locks that no other one has. -/
theorem Exclusive.advanced [DecidableEq Name] {tx tx' : Tx} (isOpen : tx ∈ open_)
    (gains : ∀ row ∈ locks tx', row ∈ locks tx ∨ ∀ other ∈ open_, name other ≠ name tx →
      row ∉ locks other) :
    Exclusive name locks (updateWhere (name · == name tx) (fun _ => tx') open_) := by
  have unheld {other : Tx} (isOther : other ∈ open_) (differs : name other ≠ name tx) {row : Row}
      (held : row ∈ locks tx') : row ∉ locks other := by
    rcases gains row held with before | others
    · exact exclusive.apart isOpen isOther differs before
    · exact others other isOther differs
  refine forall_advanced (fun first isFirst differs => ?_) ?_
  · refine forall_advanced (fun second isSecond _ => exclusive first isFirst second isSecond) ?_
    exact fun row held taken => absurd held (unheld isFirst differs taken)
  · refine forall_advanced (fun second isSecond differs row held taken => ?_) fun _ _ _ => rfl
    exact absurd taken (unheld isSecond differs held)

end Locks
