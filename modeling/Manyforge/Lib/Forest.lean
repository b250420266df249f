import Mathlib.Algebra.Order.Ring.Nat

/-!
# Forests and their closure

A forest is given by the parent of each node. Its closure lists, for each node, the ancestors and
their distances. Hanging a node under another one changes the closure by what lies below the node
and above its new parent; `ClosureOf.graft` says how.
-/
namespace Forest

variable {α : Type*} {parent : α → Option α}

/-- The node that is reached by `n` steps towards the root. -/
def up (parent : α → Option α) : Nat → α → Option α
  | 0, d => some d
  | n + 1, d => (parent d).bind (up parent n)

/-- `d` is `a` or below it. -/
def Below (parent : α → Option α) (a d : α) : Prop := ∃ n, up parent n d = some a

/-- No node is above itself. -/
def Acyclic (parent : α → Option α) : Prop := ∀ d n, up parent (n + 1) d ≠ some d

/-- No node is more than `height` steps below another. -/
def Bounded (parent : α → Option α) (height : Nat) : Prop :=
  ∀ d a n, up parent n d = some a → n ≤ height

/-- `r` is the root of the tree of `d`. -/
def Rooted (parent : α → Option α) (d r : α) : Prop := Below parent r d ∧ parent r = none

theorem up_add (m n : Nat) (d : α) : up parent (m + n) d = (up parent m d).bind (up parent n) := by
  induction m generalizing d with
  | zero => simp [up]
  | succ m ih =>
    rw [Nat.succ_add]
    cases above : parent d with
    | none => simp [up, above]
    | some e => simp [up, above, ih e]

theorem Below.refl (a : α) : Below parent a a := ⟨0, rfl⟩

variable {a d : α} {node : α → Prop}

theorem Below.trans {b : α} (upper : Below parent a b) (lower : Below parent b d) :
    Below parent a d := by
  obtain ⟨m, first⟩ := lower
  obtain ⟨n, second⟩ := upper
  exact ⟨m + n, by rw [up_add, first, Option.bind_some, second]⟩

theorem Below.of_parent {e : α} (above : parent d = some e) (below : Below parent a e) :
    Below parent a d := by
  obtain ⟨n, reached⟩ := below
  exact ⟨n + 1, by rw [up, above, Option.bind_some, reached]⟩

/-- A bound on the depth leaves no room for a cycle. -/
theorem Bounded.acyclic {height : Nat} (bounded : Bounded parent height) : Acyclic parent := by
  intro d n cycle
  have again (k : Nat) : up parent (k * (n + 1)) d = some d := by
    induction k with
    | zero => simp [up]
    | succ k ih => rw [Nat.succ_mul, up_add, ih, Option.bind_some, cycle]
  have tooFar := bounded d d _ (again (height + 1))
  have further : height + 1 ≤ (height + 1) * (n + 1) := Nat.le_mul_of_pos_right _ (Nat.succ_pos n)
  omega

theorem Acyclic.ne_of_up {x : α} {n : Nat} (acyclic : Acyclic parent)
    (reached : up parent (n + 1) d = some x) : d ≠ x := by
  rintro rfl
  exact acyclic d n reached

theorem Acyclic.up_inj {m n : Nat} (acyclic : Acyclic parent) (first : up parent m d = some a)
    (second : up parent n d = some a) : m = n := by
  -- The longer way would lead from `a` back to `a`.
  have shorter {m n : Nat} (less : m < n) (first : up parent m d = some a)
      (second : up parent n d = some a) : False := by
    obtain ⟨k, rfl⟩ : ∃ k, n = m + (k + 1) := ⟨n - m - 1, by omega⟩
    rw [up_add, first, Option.bind_some] at second
    exact acyclic a k second
  rcases Nat.lt_trichotomy m n with less | same | more
  · exact (shorter less first second).elim
  · exact same
  · exact (shorter more second first).elim

theorem Below.antisymm {b : α} (acyclic : Acyclic parent) (lower : Below parent a b)
    (upper : Below parent b a) : a = b := by
  obtain ⟨m, first⟩ := lower
  obtain ⟨n, second⟩ := upper
  have around : up parent (m + n) b = some b := by rw [up_add, first, Option.bind_some, second]
  cases m with
  | zero => exact (Option.some.inj first).symm
  | succ m =>
    rw [Nat.succ_add] at around
    exact absurd around (acyclic b (m + n))

theorem Below.total {b : α} (first : Below parent a d) (second : Below parent b d) :
    Below parent a b ∨ Below parent b a := by
  obtain ⟨m, first⟩ := first
  obtain ⟨n, second⟩ := second
  rcases Nat.le_total m n with le | le
  · refine .inr ⟨n - m, ?_⟩
    rwa [← Nat.add_sub_cancel' le, up_add, first, Option.bind_some] at second
  · refine .inl ⟨m - n, ?_⟩
    rwa [← Nat.add_sub_cancel' le, up_add, second, Option.bind_some] at first

theorem eq_of_below_root {r : α} (root : parent r = none) (below : Below parent a r) : a = r := by
  obtain ⟨n, reached⟩ := below
  cases n with
  | zero => exact (Option.some.inj reached).symm
  | succ n => simp [up, root] at reached

theorem Rooted.below {r : α} (rooted : Rooted parent d r) (above : Below parent a d) :
    Rooted parent a r := by
  refine ⟨?_, rooted.2⟩
  rcases rooted.1.total above with below | below
  · exact below
  · rw [eq_of_below_root rooted.2 below]
    exact .refl r

theorem Rooted.unique {r r' : α} (first : Rooted parent d r) (second : Rooted parent d r') :
    r = r' :=
  (eq_of_below_root first.2 (second.below first.1).1).symm

/-! ### Hanging a node under another one -/

section Graft

variable [DecidableEq α] {x p d : α}

/-- The parents after `x` was hung under `p`. -/
def graft (parent : α → Option α) (x p : α) : α → Option α := Function.update parent x (some p)

@[simp] theorem graft_self (parent : α → Option α) (x p : α) : graft parent x p x = some p :=
  Function.update_self ..

theorem graft_of_ne (parent : α → Option α) (p : α) (other : d ≠ x) :
    graft parent x p d = parent d :=
  Function.update_of_ne other ..

theorem up_graft_outside (outside : ¬ Below parent x d) (n : Nat) :
    up (graft parent x p) n d = up parent n d := by
  induction n generalizing d with
  | zero => rfl
  | succ n ih =>
    have other : d ≠ x := by
      rintro rfl
      exact outside (.refl d)
    simp only [up, graft_of_ne parent p other]
    cases above : parent d with
    | none => rfl
    | some e => exact ih fun below => outside (below.of_parent above)

theorem up_graft_inside (acyclic : Acyclic parent) {k : Nat} (below : up parent k d = some x)
    {n : Nat} (le : n ≤ k) : up (graft parent x p) n d = up parent n d := by
  induction n generalizing d k with
  | zero => rfl
  | succ n ih =>
    obtain ⟨k, rfl⟩ : ∃ j, k = j + 1 := ⟨k - 1, by omega⟩
    simp only [up, graft_of_ne parent p (acyclic.ne_of_up below)]
    cases above : parent d with
    | none => rfl
    | some e =>
      rw [up, above, Option.bind_some] at below
      exact ih below (by omega)

theorem up_graft_beyond (acyclic : Acyclic parent) (outside : ¬ Below parent x p) {k : Nat}
    (below : up parent k d = some x) (n : Nat) :
    up (graft parent x p) (k + 1 + n) d = up parent n p := by
  rw [Nat.add_assoc, up_add, up_graft_inside acyclic below le_rfl, below, Option.bind_some,
    Nat.add_comm, up, graft_self, Option.bind_some, up_graft_outside outside]

/-- The ways up from a node below `x`. -/
theorem up_graft_iff (acyclic : Acyclic parent) (outside : ¬ Below parent x p) {k n : Nat} {a : α}
    (below : up parent k d = some x) : up (graft parent x p) n d = some a ↔
      n ≤ k ∧ up parent n d = some a ∨ ∃ m, n = k + 1 + m ∧ up parent m p = some a := by
  rcases Nat.lt_or_ge k n with less | le
  · obtain ⟨m, rfl⟩ : ∃ m, n = k + 1 + m := ⟨n - (k + 1), by omega⟩
    rw [up_graft_beyond acyclic outside below]
    constructor
    · exact fun reached => .inr ⟨m, rfl, reached⟩
    · rintro (⟨le, -⟩ | ⟨m', same, reached⟩)
      · omega
      · obtain rfl : m = m' := by omega
        exact reached
  · rw [up_graft_inside acyclic below le]
    constructor
    · exact fun reached => .inl ⟨le, reached⟩
    · rintro (⟨-, reached⟩ | ⟨m, more, -⟩)
      · exact reached
      · omega

/-- `x` can be hung under `p`: that makes no cycle, and the part below `x` does not get too deep. -/
structure Fits (parent : α → Option α) (height : Nat) (x p : α) : Prop where
  outside : ¬ Below parent x p
  room : ∃ above below, (∀ a n, up parent n p = some a → n ≤ above) ∧
    (∀ d n, up parent n d = some x → n ≤ below) ∧ above + 1 + below ≤ height

theorem Bounded.graft {height : Nat} (bounded : Bounded parent height)
    (fits : Fits parent height x p) : Bounded (graft parent x p) height := by
  obtain ⟨outside, above, below, high, low, room⟩ := fits
  intro d a n reached
  by_cases inside : Below parent x d
  · obtain ⟨k, distance⟩ := inside
    rcases (up_graft_iff bounded.acyclic outside distance).mp reached with ⟨-, old⟩ | ⟨m, rfl, new⟩
    · exact bounded d a n old
    · have := low d k distance
      have := high a m new
      omega
  · rw [up_graft_outside inside] at reached
    exact bounded d a n reached

variable {r : α}

theorem Rooted.graft (rooted : Rooted parent d r) (outside : ¬ Below parent x d) :
    Rooted (graft parent x p) d r := by
  obtain ⟨⟨n, reached⟩, root⟩ := rooted
  refine ⟨⟨n, by rw [up_graft_outside outside, reached]⟩, ?_⟩
  have other : r ≠ x := by
    rintro rfl
    exact outside ⟨n, reached⟩
  rw [graft_of_ne parent p other, root]

theorem Rooted.graft_inside (acyclic : Acyclic parent) (outside : ¬ Below parent x p)
    (rooted : Rooted parent p r)
    (below : Below parent x d) : Rooted (Forest.graft parent x p) d r := by
  have ⟨⟨n, reached⟩, root⟩ := rooted.graft (x := x) (p := p) outside
  obtain ⟨k, distance⟩ := below
  refine ⟨⟨k + 1 + n, ?_⟩, root⟩
  rw [up_graft_beyond acyclic outside distance, ← up_graft_outside outside, reached]

/-! A graft is not seen in a tree that has neither `x` nor `p` in it. -/

theorem up_graft_elsewhere (rooted : Rooted parent d r) (noSub : ¬ Rooted parent x r) (n : Nat) :
    up (graft parent x p) n d = up parent n d :=
  up_graft_outside (fun below => noSub (rooted.below below)) n

theorem up_of_graft_elsewhere (acyclic : Acyclic parent) (outside : ¬ Below parent x p) {a : α}
    {n : Nat} (rooted : Rooted parent a r) (noSuper : ¬ Rooted parent p r)
    (reached : up (graft parent x p) n d = some a) : up parent n d = some a := by
  by_cases inside : Below parent x d
  · obtain ⟨k, distance⟩ := inside
    rcases (up_graft_iff acyclic outside distance).mp reached with ⟨-, old⟩ | ⟨m, -, new⟩
    · exact old
    · -- The way would lead over `p`, so `p` would be in that tree.
      exact absurd ⟨rooted.1.trans ⟨m, new⟩, rooted.2⟩ noSuper
  · rwa [up_graft_outside inside] at reached

theorem Rooted.graft_elsewhere (rooted : Rooted parent d r) (noSub : ¬ Rooted parent x r) :
    Rooted (Forest.graft parent x p) d r :=
  rooted.graft fun below => noSub (rooted.below below)

theorem root_of_graft (root : graft parent x p r = none) : parent r = none := by
  by_cases same : r = x
  · rw [same, graft_self] at root
    cases root
  · rwa [graft_of_ne _ _ same] at root

theorem Rooted.of_graft_elsewhere (acyclic : Acyclic parent) (outside : ¬ Below parent x p)
    (rooted : Rooted (Forest.graft parent x p) d r) (noSuper : ¬ Rooted parent p r) :
    Rooted parent d r := by
  have root := root_of_graft rooted.2
  obtain ⟨n, reached⟩ := rooted.1
  exact ⟨⟨n, up_of_graft_elsewhere acyclic outside ⟨.refl r, root⟩ noSuper reached⟩, root⟩

end Graft

/-! ### Closures -/

theorem up_node (upward : ∀ d e, node d → parent d = some e → node e) {n : Nat} (isNode : node d)
    (reached : up parent n d = some a) : node a := by
  induction n generalizing d with
  | zero =>
    obtain rfl := Option.some.inj reached
    exact isNode
  | succ n ih =>
    obtain ⟨e, above, further⟩ := Option.bind_eq_some_iff.mp reached
    exact ih (upward d e isNode above) further

/-- `rows` lists the nodes, their ancestors and the distances. -/
def ClosureOf (parent : α → Option α) (node : α → Prop) (rows : α → α → Nat → Prop) : Prop :=
  ∀ a d n, rows a d n ↔ node d ∧ up parent n d = some a

theorem ClosureOf.below_iff {rows : α → α → Nat → Prop} (closure : ClosureOf parent node rows)
    (isNode : node d) : (∃ n, rows a d n) ↔ Below parent a d :=
  exists_congr fun n => (closure a d n).trans (and_iff_right isNode)

theorem ClosureOf.insert {rows : α → α → Nat → Prop} {c : α} (closure : ClosureOf parent node rows)
    (isolated : parent c = none) :
    ClosureOf parent (fun d => node d ∨ d = c)
      (fun a d n => rows a d n ∨ a = c ∧ d = c ∧ n = 0) := by
  have own (a : α) (n : Nat) : up parent n c = some a ↔ a = c ∧ n = 0 := by
    cases n with
    | zero => simp [up, eq_comm]
    | succ n => simp [up, isolated]
  intro a d n
  constructor
  · rintro (row | ⟨rfl, rfl, rfl⟩)
    · have ⟨old, reached⟩ := (closure a d n).mp row
      exact ⟨.inl old, reached⟩
    · exact ⟨.inr rfl, rfl⟩
  · rintro ⟨old | rfl, reached⟩
    · exact .inl ((closure a d n).mpr ⟨old, reached⟩)
    · have ⟨same, here⟩ := (own a n).mp reached
      exact .inr ⟨same, rfl, here⟩

theorem ClosureOf.leaf [DecidableEq α] {rows : α → α → Nat → Prop} {c p : α}
    (closure : ClosureOf parent node rows)
    (upward : ∀ d e, node d → parent d = some e → node e) (new : ¬ node c) (isNode : node p) :
    ClosureOf (graft parent c p) (fun d => node d ∨ d = c) (fun a d n =>
      rows a d n ∨ a = c ∧ d = c ∧ n = 0 ∨ d = c ∧ ∃ i, rows a p i ∧ n = i + 1) := by
  have outside {d : α} (isNode : node d) : ¬ Below parent c d :=
    fun ⟨_, reached⟩ => new (up_node upward isNode reached)
  intro a d n
  constructor
  · rintro (row | ⟨rfl, rfl, rfl⟩ | ⟨rfl, i, row, rfl⟩)
    · obtain ⟨old, reached⟩ := (closure a d n).mp row
      exact ⟨.inl old, by rw [up_graft_outside (outside old), reached]⟩
    · exact ⟨.inr rfl, rfl⟩
    · obtain ⟨-, reached⟩ := (closure a p i).mp row
      refine ⟨.inr rfl, ?_⟩
      rw [up, graft_self, Option.bind_some, up_graft_outside (outside isNode), reached]
  · rintro ⟨old | rfl, reached⟩
    · rw [up_graft_outside (outside old)] at reached
      exact .inl ((closure a d n).mpr ⟨old, reached⟩)
    · cases n with
      | zero => exact .inr (.inl ⟨(Option.some.inj reached).symm, rfl, rfl⟩)
      | succ n =>
        rw [up, graft_self, Option.bind_some, up_graft_outside (outside isNode)] at reached
        exact .inr (.inr ⟨rfl, n, (closure a p n).mpr ⟨isNode, reached⟩, rfl⟩)

/-- The closure after a graft: the rows into the part below `x` from outside of it give way to
those that lead through `p`. -/
theorem ClosureOf.graft [DecidableEq α] {rows : α → α → Nat → Prop} {x p : α}
    (closure : ClosureOf parent node rows)
    (acyclic : Acyclic parent) (upward : ∀ d e, node d → parent d = some e → node e)
    (isNode : node p) (outside : ¬ Below parent x p) :
    ClosureOf (graft parent x p) node (fun a d n =>
      rows a d n ∧ ((∃ k, rows x d k) → ∃ k, rows x a k) ∨
        ∃ i j, rows a p i ∧ rows x d j ∧ n = i + j + 1) := by
  intro a d n
  constructor
  · rintro (⟨row, kept⟩ | ⟨i, j, upper, lower, rfl⟩)
    · obtain ⟨old, reached⟩ := (closure a d n).mp row
      refine ⟨old, ?_⟩
      by_cases inside : Below parent x d
      · -- The row was kept, so `a` lies between `d` and `x`.
        obtain ⟨k, distance⟩ := inside
        obtain ⟨j, middle⟩ := kept ⟨k, (closure x d k).mpr ⟨old, distance⟩⟩
        have whole : up parent (n + j) d = some x := by
          rw [up_add, reached, Option.bind_some]
          exact ((closure x a j).mp middle).2
        have := acyclic.up_inj whole distance
        rw [up_graft_inside acyclic distance (by omega), reached]
      · rw [up_graft_outside inside, reached]
    · obtain ⟨old, distance⟩ := (closure x d j).mp lower
      refine ⟨old, ?_⟩
      rw [show i + j + 1 = j + 1 + i by omega, up_graft_beyond acyclic outside distance]
      exact ((closure a p i).mp upper).2
  · rintro ⟨old, reached⟩
    by_cases inside : Below parent x d
    · obtain ⟨k, distance⟩ := inside
      rcases (up_graft_iff acyclic outside distance).mp reached with ⟨le, before⟩ | ⟨m, rfl, after⟩
      · refine .inl ⟨(closure a d n).mpr ⟨old, before⟩, fun _ => ⟨k - n, ?_⟩⟩
        refine (closure x a _).mpr ⟨up_node upward old before, ?_⟩
        rwa [← Nat.add_sub_cancel' le, up_add, before, Option.bind_some] at distance
      · refine .inr ⟨m, k, (closure a p m).mpr ⟨isNode, after⟩,
          (closure x d k).mpr ⟨old, distance⟩, by omega⟩
    · rw [up_graft_outside inside] at reached
      refine .inl ⟨(closure a d n).mpr ⟨old, reached⟩, fun ⟨k, row⟩ => ?_⟩
      exact absurd ⟨k, ((closure x d k).mp row).2⟩ inside

end Forest
