import Manyforge.Connectors.Leases
import Mathlib.Tactic.Linarith

/-!
# When leases fence

While no claim takes an operation that another pass still has to finish, each row is written by one
dispatcher at a time, and the number of dispatches is the `attempts` column. A batch of `n`
operations that take `H` each is finished within `n * H`, so it is safe when that is within the
lease; `H` alone within the lease is not enough.
-/
namespace Manyforge.Connectors

open Table Transition

namespace Dispatching

variable {lease : Timestamp} {s : Dispatching}

/-- The operation is in a batch and its dispatch has not begun. -/
def Waiting (s : Dispatching) (id : UUID) : Prop := ∃ p ∈ s.passes, id ∈ p.ids.tail
  deriving Decidable

/-- No operation is in the batches of two passes. -/
def Apart (s : Dispatching) : Prop := Locks.Exclusive Pass.dispatcher Pass.ids s.passes
  deriving Decidable

/-- No operation occurs more often than permitted. -/
def Bounded (dispatched : List UUID) : Prop :=
  ∀ id ∈ dispatched, dispatched.count id ≤ maxOutboundAttempts
  deriving Decidable

/-- A row whose status is `done` or `failed` has that status afterwards. -/
def Final (s s' : Dispatching) : Prop :=
  ∀ op ∈ s.ops, op.status = .done ∨ op.status = .failed →
    ∃ op' ∈ s'.ops, op'.id = op.id ∧ op'.status = op.status
  deriving Decidable

/-- A step keeps the three promises of the queue. -/
structure Fenced (s s' : Dispatching) : Prop where
  apart : s'.Apart
  final : s.Final s'
  bounded : Bounded s'.dispatched

/-- What a step has to spare: a claim takes nothing that an open pass still has to finish, and no
dispatch begins on a claim that is beyond the permitted attempts. -/
def Spared (lease : Timestamp) (s : Dispatching) : DispatchAction → Prop
  | .enqueue _ => True
  | .claim dispatcher limit now passedOver => s.idle dispatcher = true →
      (∀ op ∈ s.taken lease limit now passedOver, ∀ p ∈ s.passes, op.id ∉ p.ids) ∧
      ∀ op ∈ (s.taken lease limit now passedOver).head?, op.attempts < maxOutboundAttempts
  | .finish dispatcher _ _ => ∀ p ∈ s.pass? dispatcher, ∀ op ∈ p.todo.tail.head?,
      op.attempts ≤ maxOutboundAttempts

/-! ### The invariant -/

structure Inv (s : Dispatching) : Prop where
  ids : UniqueOn (·.id) s.ops
  dispatchers : UniqueOn (·.dispatcher) s.passes
  apart : s.Apart
  distinct : ∀ p ∈ s.passes, p.ids.Nodup
  /-- The rows of a batch are as the claim has left them. -/
  rows : ∀ p ∈ s.passes, ∀ op ∈ p.todo,
    op ∈ s.ops ∧ op.status = .inProgress ∧ op.updatedAt = p.claimedAt
  counts : ∀ op ∈ s.ops, s.dispatched.count op.id + (if s.Waiting op.id then 1 else 0) = op.attempts
  known : ∀ id ∈ s.dispatched, ∃ op ∈ s.ops, op.id = id
  bounded : Bounded s.dispatched

theorem Inv.empty : Inv ⟨[], [], []⟩ :=
  ⟨List.nodup_nil, List.nodup_nil, List.forall_mem_nil _, List.forall_mem_nil _,
    List.forall_mem_nil _, List.forall_mem_nil _, List.forall_mem_nil _, List.forall_mem_nil _⟩

theorem pass?_some {dispatcher : UUID} {p : Pass} (found : s.pass? dispatcher = some p) :
    p ∈ s.passes ∧ p.dispatcher = dispatcher :=
  of_find? found

theorem mem_taken {limit : Nat} {now : Timestamp} {passedOver : List UUID} {op : OutboundOp}
    (member : op ∈ s.taken lease limit now passedOver) : op ∈ s.ops ∧
    op.claimable now lease = true := by
  obtain ⟨isRow, claimable, -⟩ := mem_selectForUpdate member
  exact ⟨isRow, claimable⟩

theorem count_begun (todo : List OutboundOp) (id : UUID) :
    (begun todo).count id = if id ∈ begun todo then 1 else 0 :=
  List.Nodup.count (by cases todo <;> simp [begun])

theorem mem_of_begun {todo : List OutboundOp} {id : UUID} (isBegun : id ∈ begun todo) :
    ∃ op ∈ todo, op.id = id := by
  simp only [begun, Option.mem_toList, Option.map_eq_some_iff] at isBegun
  obtain ⟨op, isFirst, same⟩ := isBegun
  exact ⟨op, List.mem_of_mem_head? isFirst, same⟩

theorem mem_waiting {todo : List OutboundOp} (distinct : (todo.map (·.id)).Nodup) {id : UUID} :
    id ∈ (todo.map (·.id)).tail ↔ id ∈ todo.map (·.id) ∧ id ∉ begun todo := by
  cases todo with
  | nil => simp
  | cons first rest =>
    obtain ⟨absent, -⟩ := List.nodup_cons.mp distinct
    by_cases same : id = first.id
    · simpa [begun, same] using absent
    · simp [begun, same]

theorem bounded_begun {dispatched : List UUID} (bounded : Bounded dispatched)
    (todo : List OutboundOp) :
    Bounded (dispatched ++ begun todo) ↔
      ∀ op ∈ todo.head?, dispatched.count op.id < maxOutboundAttempts := by
  cases todo with
  | nil => simpa [begun] using bounded
  | cons first rest =>
    have added (id : UUID) : (dispatched ++ begun (first :: rest)).count id =
        dispatched.count id + if first.id = id then 1 else 0 := by
      simp [begun, List.count_singleton, beq_iff_eq]
    simp only [List.head?_cons, Option.mem_def, Option.some.injEq, forall_eq']
    constructor
    · intro within
      have bound := within first.id (by simp [begun])
      rw [added, if_pos rfl] at bound
      omega
    · intro below id member
      rw [added]
      split
      next same => subst same; omega
      next differs =>
      have old : id ∈ dispatched := by
        simpa [begun, Ne.symm differs] using member
      exact bounded id old

/-- An operation that is in no batch has been dispatched as often as it was claimed. -/
theorem Inv.count_unheld (inv : s.Inv) {op : OutboundOp} (member : op ∈ s.ops)
    (unheld : ∀ p ∈ s.passes, op.id ∉ p.ids) : s.dispatched.count op.id = op.attempts := by
  have notWaiting : ¬ s.Waiting op.id := by
    rintro ⟨p, isPass, waits⟩
    exact unheld p isPass (List.mem_of_mem_tail waits)
  simpa [notWaiting] using inv.counts op member

/-! ### Enqueueing -/

theorem Inv.enqueue (inv : s.Inv) (op : OutboundOp) : Inv (next lease s (.enqueue op)) := by
  simp only [next]
  split
  · exact inv
  next absent =>
  have fresh := ne_of_not_any absent
  refine ⟨inv.ids.append_fresh fresh, inv.dispatchers, inv.apart, inv.distinct, ?_,
    forall_inserted inv.counts ?_, ?_, inv.bounded⟩
  · intro p isPass claimed inBatch
    obtain ⟨isRow, rest⟩ := inv.rows p isPass claimed inBatch
    exact ⟨List.mem_append_left _ isRow, rest⟩
  · -- A new operation has not been dispatched and is in no batch.
    have never : s.dispatched.count op.id = 0 := by
      refine List.count_eq_zero.mpr fun member => ?_
      obtain ⟨old, isRow, same⟩ := inv.known op.id member
      exact fresh old isRow same
    have notWaiting : ¬ s.Waiting op.id := by
      rintro ⟨p, isPass, waits⟩
      obtain ⟨claimed, inBatch, same⟩ := List.mem_map.mp (List.mem_of_mem_tail waits)
      exact fresh claimed (inv.rows p isPass claimed inBatch).1 same
    have still : ¬ Waiting
        { s with ops := s.ops ++ [{ op with status := .pending, attempts := 0 }] } op.id :=
      notWaiting
    simp [never, still]
  · intro id member
    obtain ⟨old, isRow, same⟩ := inv.known id member
    exact ⟨old, List.mem_append_left _ isRow, same⟩

/-! ### Claims -/

section Claim

variable {dispatcher : UUID} {limit : Nat} {now : Timestamp} {passedOver : List UUID}

theorem stays {p : Pass} (member : p ∈ s.passes.filter (·.dispatcher != dispatcher)) :
    p ∈ s.passes ∧ p.dispatcher ≠ dispatcher := by
  simpa using member

theorem todo_ids (rows : List OutboundOp) :
    (rows.map (·.claimed now)).map (·.id) = rows.map (·.id) := by
  simp [Function.comp_def, OutboundOp.claimed]

variable {rows : List OutboundOp}

theorem chosen_iff {op : OutboundOp} :
    rows.any (·.id == op.id) = true ↔ op.id ∈ rows.map (·.id) := by
  simp

theorem ids_of_idle (free : s.idle dispatcher = true) {p : Pass} (isPass : p ∈ s.passes)
    (own : p.dispatcher = dispatcher) : p.ids = [] := by
  have isIdle := List.all_eq_true.mp free p isPass
  simp only [own, bne_self_eq_false, Bool.false_or, List.isEmpty_iff] at isIdle
  simp [Pass.ids, isIdle]

theorem waiting_claim (free : s.idle dispatcher = true) (rows : List OutboundOp) (id : UUID) :
    (s.claim dispatcher now rows).Waiting id ↔ s.Waiting id ∨ id ∈ (rows.map (·.id)).tail := by
  constructor
  · rintro ⟨p, isPass, waits⟩
    rcases mem_inserted.mp isPass with old | rfl
    · exact .inl ⟨p, (stays old).1, waits⟩
    · rw [Pass.ids, todo_ids] at waits
      exact .inr waits
  · rintro (⟨p, isPass, waits⟩ | waits)
    · refine ⟨p, List.mem_append_left _ (List.mem_filter.mpr ⟨isPass, ?_⟩), waits⟩
      simp only [bne_iff_ne]
      intro own
      simp [ids_of_idle free isPass own] at waits
    · refine ⟨_, List.mem_concat_self, ?_⟩
      rwa [Pass.ids, todo_ids]

theorem Inv.counts_claim (inv : s.Inv) (free : s.idle dispatcher = true)
    (distinct : (rows.map (·.id)).Nodup) (unheld : ∀ row ∈ rows, ∀ p ∈ s.passes, row.id ∉ p.ids)
    {op : OutboundOp} (member : op ∈ s.ops) :
    (s.claim dispatcher now rows).dispatched.count op.id +
        (if (s.claim dispatcher now rows).Waiting op.id then 1 else 0) =
      op.attempts + if op.id ∈ rows.map (·.id) then 1 else 0 := by
  have sameBegun : begun (rows.map (·.claimed now)) = begun rows := by cases rows <;> rfl
  have counted : (s.claim dispatcher now rows).dispatched.count op.id =
      s.dispatched.count op.id + (begun rows).count op.id := sameBegun ▸ List.count_append
  rw [counted, count_begun]
  simp only [waiting_claim free, mem_waiting distinct]
  have before := inv.counts op member
  by_cases isTaken : op.id ∈ rows.map (·.id)
  · obtain ⟨row, isRow, same⟩ := List.mem_map.mp isTaken
    have notWaiting : ¬ s.Waiting op.id := by
      rintro ⟨p, isPass, waits⟩
      exact unheld row isRow p isPass (same ▸ List.mem_of_mem_tail waits)
    by_cases isBegun : op.id ∈ begun rows <;> simp_all
  · have notBegun : op.id ∉ begun rows := fun isBegun => isTaken (List.mem_map.mpr (mem_of_begun isBegun))
    simpa [isTaken, notBegun] using before

theorem Inv.bounded_claim_iff (inv : s.Inv) (isRow : ∀ row ∈ rows, row ∈ s.ops)
    (unheld : ∀ row ∈ rows, ∀ p ∈ s.passes, row.id ∉ p.ids) :
    Bounded (s.claim dispatcher now rows).dispatched ↔
      ∀ row ∈ rows.head?, row.attempts < maxOutboundAttempts := by
  refine (bounded_begun inv.bounded _).trans ?_
  cases rows with
  | nil => simp
  | cons row rest =>
    have counted := inv.count_unheld (isRow row List.mem_cons_self) (unheld row List.mem_cons_self)
    simp [counted]

theorem Inv.claim (inv : s.Inv) (free : s.idle dispatcher = true) {rows : List OutboundOp}
    (isRow : ∀ row ∈ rows, row ∈ s.ops) (distinct : (rows.map (·.id)).Nodup)
    (unheld : ∀ row ∈ rows, ∀ p ∈ s.passes, row.id ∉ p.ids)
    (first : ∀ row ∈ rows.head?, row.attempts < maxOutboundAttempts) :
    (s.claim dispatcher now rows).Inv := by
  refine ⟨inv.ids.updateWhere fun _ _ => rfl, (inv.dispatchers.filter _).append_fresh ?_, ?_,
    forall_inserted (fun p isPass => inv.distinct p (stays isPass).1) ?_,
    forall_inserted (fun p isPass op inBatch => ?_) (fun op inBatch => ?_), fun op' member => ?_,
    fun id member => ?_, ?_⟩
  · exact fun p isPass => (stays isPass).2
  · refine (inv.apart.of_subset fun p isPass => (stays isPass).1).begun fun id held p isPass => ?_
    simp only [Pass.ids, todo_ids] at held
    obtain ⟨row, isTaken, rfl⟩ := List.mem_map.mp held
    exact unheld row isTaken p (stays isPass).1
  · rwa [Pass.ids, todo_ids]
  · -- The batches of the other passes are not touched.
    obtain ⟨isOp, rest⟩ := inv.rows p (stays isPass).1 op inBatch
    refine ⟨kept_mem isOp fun chosen => ?_, rest⟩
    obtain ⟨row, isTaken, same⟩ := List.mem_map.mp (chosen_iff.mp chosen)
    exact unheld row isTaken p (stays isPass).1 (same ▸ List.mem_map_of_mem inBatch)
  · obtain ⟨row, isTaken, rfl⟩ := List.mem_map.mp inBatch
    exact ⟨updated_mem (isRow row isTaken) (chosen_iff.mpr (List.mem_map_of_mem isTaken)), rfl, rfl⟩
  · obtain ⟨op, isOp, ⟨chosen, rfl⟩ | ⟨other, rfl⟩⟩ := updated_or_kept member
    · refine (inv.counts_claim free distinct unheld isOp).trans ?_
      rw [if_pos (chosen_iff.mp chosen)]
      rfl
    · refine (inv.counts_claim free distinct unheld isOp).trans ?_
      rw [if_neg fun isTaken => other (chosen_iff.mpr isTaken), Nat.add_zero]
  · have known : ∃ op ∈ s.ops, op.id = id := by
      rcases List.mem_append.mp member with old | new
      · exact inv.known id old
      · obtain ⟨_, isFirst, rfl⟩ := mem_of_begun new
        obtain ⟨row, isTaken, rfl⟩ := List.mem_map.mp isFirst
        exact ⟨row, isRow row isTaken, rfl⟩
    obtain ⟨op, isOp, rfl⟩ := known
    refine ⟨_, List.mem_map_of_mem isOp, ?_⟩
    split <;> rfl
  · exact (inv.bounded_claim_iff isRow unheld).mpr first

theorem Inv.fenced_claim_iff (inv : s.Inv) (free : s.idle dispatcher = true) :
    Fenced s (s.claim dispatcher now (s.taken lease limit now passedOver)) ↔
      Spared lease s (.claim dispatcher limit now passedOver) := by
  have isRow (row : OutboundOp) (isTaken : row ∈ s.taken lease limit now passedOver) : row ∈ s.ops :=
    (mem_taken isTaken).1
  have distinct : ((s.taken lease limit now passedOver).map (·.id)).Nodup := inv.ids.selectFirst _ _
  constructor
  · intro fenced _
    have unheld (row : OutboundOp) (isTaken : row ∈ s.taken lease limit now passedOver) (p : Pass)
        (isPass : p ∈ s.passes) : row.id ∉ p.ids := by
      intro held
      -- The pass is not the dispatcher's own, so it stays beside the new one.
      have other : p.dispatcher ≠ dispatcher := by
        intro own
        rw [ids_of_idle free isPass own] at held
        cases held
      refine other (fenced.apart p ?_ _ List.mem_concat_self row.id held ?_)
      · exact List.mem_append_left _ (List.mem_filter.mpr ⟨isPass, by simpa using other⟩)
      · rw [Pass.ids, todo_ids]
        exact List.mem_map_of_mem isTaken
    exact ⟨unheld, (inv.bounded_claim_iff isRow unheld).mp fenced.bounded⟩
  · intro spared
    obtain ⟨unheld, first⟩ := spared free
    have kept : (s.claim dispatcher now (s.taken lease limit now passedOver)).Inv :=
      inv.claim free isRow distinct unheld first
    refine ⟨kept.apart, fun op member final =>
      ⟨op, kept_mem member fun chosen => ?_, rfl, rfl⟩, kept.bounded⟩
    obtain ⟨row, isTaken, same⟩ := List.mem_map.mp (chosen_iff.mp chosen)
    obtain ⟨isOp, claimable⟩ := mem_taken isTaken
    rw [inv.ids.eq_of_key isOp member same] at claimable
    rcases final with done | failed
    · simp [OutboundOp.claimable, done] at claimable
    · simp [OutboundOp.claimable, failed] at claimable

end Claim

/-! ### The end of a dispatch -/

section Finish

variable {p : Pass} {op : OutboundOp} {rest : List OutboundOp} {now : Timestamp} {ending : Finish}

@[simp]
theorem apply_id (row : OutboundOp) : (ending.apply now op row).id = row.id := by
  cases ending with
  | ok => rfl
  | impossible recorded | error recorded => cases recorded <;> rfl

@[simp]
theorem apply_attempts (row : OutboundOp) : (ending.apply now op row).attempts = row.attempts := by
  cases ending with
  | ok => rfl
  | impossible recorded | error recorded => cases recorded <;> rfl

variable (inv : s.Inv) (isPass : p ∈ s.passes) (todo : p.todo = op :: rest)

include inv isPass todo

theorem Inv.todo_distinct : op.id ∉ rest.map (·.id) ∧ (rest.map (·.id)).Nodup := by
  have distinct := inv.distinct p isPass
  rw [Pass.ids, todo, List.map_cons] at distinct
  exact List.nodup_cons.mp distinct

theorem Inv.waiting_finish (id : UUID) :
    (s.finish p op rest now ending).Waiting id ↔ s.Waiting id ∧ id ∉ begun rest := by
  obtain ⟨-, distinct⟩ := inv.todo_distinct isPass todo
  have ids : p.ids = op.id :: rest.map (·.id) := by rw [Pass.ids, todo, List.map_cons]
  constructor
  · rintro ⟨q, isOpen, waits⟩
    obtain ⟨old, wasOpen, ⟨-, rfl⟩ | ⟨other, rfl⟩⟩ := updated_or_kept isOpen
    · obtain ⟨inRest, notBegun⟩ := (mem_waiting distinct).mp waits
      exact ⟨⟨p, isPass, by rwa [ids]⟩, notBegun⟩
    · refine ⟨⟨old, wasOpen, waits⟩, fun isBegun => ?_⟩
      have held : id ∈ p.ids := ids ▸ List.mem_cons_of_mem _ (List.mem_map.mpr (mem_of_begun isBegun))
      exact inv.apart.apart isPass wasOpen (by simpa using other) held (List.mem_of_mem_tail waits)
  · rintro ⟨⟨q, isOpen, waits⟩, notBegun⟩
    by_cases own : q.dispatcher = p.dispatcher
    · obtain rfl := inv.dispatchers.eq_of_key isOpen isPass own
      rw [ids, List.tail_cons] at waits
      exact ⟨_, updated_mem isPass (beq_self_eq_true _), (mem_waiting distinct).mpr ⟨waits, notBegun⟩⟩
    · exact ⟨q, kept_mem isOpen (by simpa using own), waits⟩

theorem Inv.counts_finish {row : OutboundOp} (member : row ∈ s.ops) :
    (s.finish p op rest now ending).dispatched.count row.id +
      (if (s.finish p op rest now ending).Waiting row.id then 1 else 0) = row.attempts := by
  have counted : (s.finish p op rest now ending).dispatched.count row.id =
      s.dispatched.count row.id + (begun rest).count row.id := List.count_append
  have before := inv.counts row member
  simp only [counted, count_begun, inv.waiting_finish isPass todo]
  by_cases isBegun : row.id ∈ begun rest
  · have waited : s.Waiting row.id := by
      refine ⟨p, isPass, ?_⟩
      rw [Pass.ids, todo, List.map_cons, List.tail_cons]
      exact List.mem_map.mpr (mem_of_begun isBegun)
    simpa [isBegun, waited] using before
  · simpa [isBegun] using before

theorem Inv.bounded_finish_iff :
    Bounded (s.finish p op rest now ending).dispatched ↔
      ∀ op ∈ rest.head?, op.attempts ≤ maxOutboundAttempts := by
  refine (bounded_begun inv.bounded rest).trans ?_
  cases rest with
  | nil => simp
  | cons next rest =>
    have isRow := (inv.rows p isPass next (by simp [todo])).1
    have waits : s.Waiting next.id := ⟨p, isPass, by simp [Pass.ids, todo]⟩
    have counted := inv.counts next isRow
    rw [if_pos waits] at counted
    simp only [List.head?_cons, Option.mem_def, Option.some.injEq, forall_eq']
    omega

omit inv isPass todo in
theorem finish_kept {row : OutboundOp} (member : row ∈ s.ops) (other : row.id ≠ op.id) :
    row ∈ (s.finish p op rest now ending).ops :=
  kept_mem member (by simpa using other)

theorem Inv.finish (within : ∀ op ∈ rest.head?, op.attempts ≤ maxOutboundAttempts) :
    (s.finish p op rest now ending).Inv := by
  obtain ⟨absent, distinct⟩ := inv.todo_distinct isPass todo
  have ids : p.ids = op.id :: rest.map (·.id) := by rw [Pass.ids, todo, List.map_cons]
  have own : op.id ∈ p.ids := by simp [ids]
  refine ⟨inv.ids.updateWhere fun row _ => apply_id row, ?_, ?_,
    Locks.forall_advanced (fun q isOpen _ => inv.distinct q isOpen) distinct,
    Locks.forall_advanced (fun q isOpen differs row inBatch => ?_) (fun row inBatch => ?_),
    fun row' member => ?_, fun id member => ?_, ?_⟩
  · exact inv.dispatchers.updateWhere fun q chosen => (beq_iff_eq.mp chosen).symm
  · refine inv.apart.advanced isPass fun id held => .inl ?_
    rw [ids]
    exact List.mem_cons_of_mem _ held
  · -- The batches of other passes do not have the operation that was under way.
    obtain ⟨isRow, status⟩ := inv.rows q isOpen row inBatch
    refine ⟨finish_kept isRow fun same => ?_, status⟩
    exact inv.apart.apart isPass isOpen differs own (same ▸ List.mem_map_of_mem inBatch)
  · obtain ⟨isRow, status⟩ := inv.rows p isPass row (todo ▸ List.mem_cons_of_mem _ inBatch)
    exact ⟨finish_kept isRow fun same => absent (same ▸ List.mem_map_of_mem inBatch), status⟩
  · obtain ⟨row, isRow, ⟨-, rfl⟩ | ⟨-, rfl⟩⟩ := updated_or_kept member
    · rw [apply_id, apply_attempts]
      exact inv.counts_finish isPass todo isRow
    · exact inv.counts_finish isPass todo isRow
  · have known : ∃ row ∈ s.ops, row.id = id := by
      rcases List.mem_append.mp member with old | new
      · exact inv.known id old
      · obtain ⟨next, inRest, rfl⟩ := mem_of_begun new
        exact ⟨next, (inv.rows p isPass next (todo ▸ List.mem_cons_of_mem _ inRest)).1, rfl⟩
    obtain ⟨row, isRow, rfl⟩ := known
    refine ⟨_, List.mem_map_of_mem isRow, ?_⟩
    split
    · exact apply_id row
    · rfl
  · exact (inv.bounded_finish_iff isPass todo).mpr within

theorem Inv.fenced_finish_iff :
    Fenced s (s.finish p op rest now ending) ↔ ∀ op ∈ rest.head?, op.attempts ≤ maxOutboundAttempts := by
  constructor
  · intro fenced
    exact (inv.bounded_finish_iff isPass todo).mp fenced.bounded
  · intro within
    have kept : (s.finish p op rest now ending).Inv := inv.finish isPass todo within
    refine ⟨kept.apart, fun row member final => ⟨row, finish_kept member fun same => ?_, rfl, rfl⟩,
      kept.bounded⟩
    -- The operation under way is in progress.
    obtain ⟨isRow, status, -⟩ := inv.rows p isPass op (todo ▸ List.mem_cons_self)
    rw [inv.ids.eq_of_key isRow member same.symm] at status
    rcases final with done | failed
    · simp [status] at done
    · simp [status] at failed

end Finish

/-! ### Runs -/

theorem Fenced.refl (inv : s.Inv) : Fenced s s :=
  ⟨inv.apart, fun op member _ => ⟨op, member, rfl, rfl⟩, inv.bounded⟩

/-- A step keeps the promises exactly when it spares what it has to. -/
theorem Inv.fenced_iff (inv : s.Inv) (action : DispatchAction) :
    Fenced s (Dispatching.next lease s action) ↔ Spared lease s action := by
  cases action with
  | enqueue op =>
    refine iff_of_true ?_ trivial
    have kept : (Dispatching.next lease s (.enqueue op)).Inv := inv.enqueue op
    refine ⟨kept.apart, fun row member _ => ⟨row, ?_, rfl, rfl⟩, kept.bounded⟩
    simp only [Dispatching.next]
    split
    · exact member
    · exact List.mem_append_left _ member
  | claim dispatcher limit now passedOver =>
    simp only [Dispatching.next]
    split
    next free => exact inv.fenced_claim_iff free
    next busy => exact iff_of_true (.refl inv) fun free => absurd free busy
  | finish dispatcher now ending =>
    simp only [Dispatching.next, Spared]
    split
    next none => exact iff_of_true (.refl inv) (by simp [none])
    next p found =>
    split
    next todo => exact iff_of_true (.refl inv) (by simp [found, todo])
    next op rest todo =>
    refine (inv.fenced_finish_iff (pass?_some found).1 todo).trans
      ⟨fun within q isFound => ?_, fun spared => ?_⟩
    · obtain rfl : p = q := by simpa [found] using isFound
      rwa [todo]
    · have within := spared p found
      rwa [todo] at within

theorem Inv.next (inv : s.Inv) (action : DispatchAction) (spared : Spared lease s action) :
    (Dispatching.next lease s action).Inv := by
  cases action with
  | enqueue op => exact inv.enqueue op
  | claim dispatcher limit now passedOver =>
    simp only [Dispatching.next]
    split
    next free =>
      obtain ⟨unheld, first⟩ := spared free
      exact inv.claim free (fun row isTaken => (mem_taken isTaken).1)
        (inv.ids.selectFirst _ _) unheld first
    next => exact inv
  | finish dispatcher now ending =>
    simp only [Dispatching.next]
    split
    next => exact inv
    next p found =>
    split
    next => exact inv
    next op rest todo =>
      refine inv.finish (pass?_some found).1 todo fun next isNext => spared p found next ?_
      rwa [todo]

/-! ### Prompt dispatchers -/

/-- At this time no dispatch under way has taken longer than `longest`. -/
def OnTime (longest now : Timestamp) (s : Dispatching) : Prop :=
  ∀ p ∈ s.passes, p.todo ≠ [] → now ≤ p.turnedAt + longest

/-- A step of dispatchers that take at most `longest` for one operation. -/
def Punctual (longest : Timestamp) (s : Dispatching) : DispatchAction → Prop
  | .enqueue _ => True
  | .claim _ _ now _ | .finish _ now _ => s.OnTime longest now

/-- Besides, they claim no more operations than they can dispatch within the lease, and a failure of
the last permitted attempt is recorded. -/
def Prompt (lease longest : Timestamp) (s : Dispatching) : DispatchAction → Prop
  | .enqueue _ => True
  | .claim _ limit now _ => s.OnTime longest now ∧ (limit : Int) * longest ≤ lease
  | .finish dispatcher now ending =>
    s.OnTime longest now ∧ ∀ p ∈ s.pass? dispatcher, ∀ op ∈ p.todo.head?,
      (ending = .impossible false ∨ ending = .error false) → op.attempts < maxOutboundAttempts

/-- The time that is left to a pass, and the attempts that are left to an operation. -/
structure Paced (lease longest : Timestamp) (s : Dispatching) : Prop where
  inv : s.Inv
  passes : ∀ p ∈ s.passes,
    p.turnedAt + (p.todo.length : Int) * longest ≤ p.claimedAt + (p.size : Int) * longest ∧
      (p.size : Int) * longest ≤ lease
  pending : ∀ op ∈ s.ops, op.status = .pending → op.attempts < maxOutboundAttempts
  inProgress : ∀ op ∈ s.ops, op.status = .inProgress → op.attempts ≤ maxOutboundAttempts ∧
    (op.attempts = maxOutboundAttempts → ∃ p ∈ s.passes, op.id ∈ p.ids)

section Prompt

variable {longest : Timestamp} (nonneg : 0 ≤ longest) (paced : Paced lease longest s)

theorem Paced.empty : Paced lease longest ⟨[], [], []⟩ :=
  ⟨.empty, List.forall_mem_nil _, List.forall_mem_nil _, List.forall_mem_nil _⟩

include nonneg paced

variable {now : Timestamp} {op : OutboundOp}

theorem Paced.unclaimable (onTime : s.OnTime longest now) {p : Pass} (isPass : p ∈ s.passes)
    (member : op ∈ p.todo) : op.claimable now lease = false := by
  obtain ⟨-, status, stamped⟩ := paced.inv.rows p isPass op member
  obtain ⟨within, leased⟩ := paced.passes p isPass
  have late := onTime p isPass (List.ne_nil_of_mem member)
  -- At least the operation under way is left of the time of the batch.
  have left : longest ≤ (p.todo.length : Int) * longest := by
    refine le_mul_of_one_le_left nonneg ?_
    exact_mod_cast List.length_pos_of_mem member
  have live : now - lease ≤ p.claimedAt := by linarith
  simpa [OutboundOp.claimable, status, stamped] using live

theorem Paced.taken (onTime : s.OnTime longest now) {limit : Nat} {passedOver : List UUID}
    (isTaken : op ∈ s.taken lease limit now passedOver) :
    (∀ p ∈ s.passes, op.id ∉ p.ids) ∧ op.attempts < maxOutboundAttempts := by
  obtain ⟨isRow, claimable⟩ := mem_taken isTaken
  have unheld (p : Pass) (isPass : p ∈ s.passes) : op.id ∉ p.ids := by
    intro held
    obtain ⟨claimed, inBatch, same⟩ := List.mem_map.mp held
    have isRow' := (paced.inv.rows p isPass claimed inBatch).1
    obtain rfl := paced.inv.ids.eq_of_key isRow' isRow same
    simp [paced.unclaimable nonneg onTime isPass inBatch] at claimable
  refine ⟨unheld, ?_⟩
  simp only [OutboundOp.claimable, Bool.or_eq_true, beq_iff_eq, Bool.and_eq_true] at claimable
  rcases claimable with pending | ⟨inProgress, -⟩
  · exact paced.pending op isRow pending
  · obtain ⟨within, last⟩ := paced.inProgress op isRow inProgress
    refine lt_of_le_of_ne within fun isLast => ?_
    obtain ⟨p, isPass, held⟩ := last isLast
    exact unheld p isPass held

/-- Prompt dispatchers spare what they have to. -/
theorem Paced.spared {action : DispatchAction}
    (prompt : Prompt lease longest s action) : Spared lease s action := by
  cases action with
  | enqueue op => trivial
  | claim dispatcher limit now passedOver =>
    intro _
    refine ⟨fun op isTaken => (paced.taken nonneg prompt.1 isTaken).1, fun op isFirst => ?_⟩
    exact (paced.taken nonneg prompt.1 (List.mem_of_mem_head? isFirst)).2
  | finish dispatcher now ending =>
    intro p found op isNext
    have inBatch : op ∈ p.todo := List.mem_of_mem_tail (List.mem_of_mem_head? isNext)
    obtain ⟨isRow, status, -⟩ := paced.inv.rows p (pass?_some found).1 op inBatch
    exact (paced.inProgress op isRow status).1

theorem Paced.claim {dispatcher : UUID} {limit : Nat} {now : Timestamp}
    {passedOver : List UUID} (free : s.idle dispatcher = true) (onTime : s.OnTime longest now)
    (fits : (limit : Int) * longest ≤ lease) :
    Paced lease longest (s.claim dispatcher now (s.taken lease limit now passedOver)) := by
  have taken (row : OutboundOp) (isTaken : row ∈ s.taken lease limit now passedOver) :=
    paced.taken nonneg onTime isTaken
  refine ⟨?_, forall_inserted (fun p isPass => paced.passes p (stays isPass).1) ⟨le_rfl, ?_⟩,
    fun op' member => ?_, fun op' member => ?_⟩
  · exact paced.inv.claim free (fun row isTaken => (mem_taken isTaken).1) (paced.inv.ids.selectFirst _ _)
      (fun row isTaken => (taken row isTaken).1)
      fun row isFirst => (taken row (List.mem_of_mem_head? isFirst)).2
  · refine le_trans (mul_le_mul_of_nonneg_right ?_ nonneg) fits
    rw [List.length_map]
    exact_mod_cast length_selectForUpdate_le _ _ limit s.ops
  · obtain ⟨op, isRow, ⟨-, rfl⟩ | ⟨-, rfl⟩⟩ := updated_or_kept member
    · nofun
    · exact paced.pending op isRow
  · obtain ⟨op, isRow, ⟨chosen, rfl⟩ | ⟨-, rfl⟩⟩ := updated_or_kept member
    · intro _
      obtain ⟨row, isTaken, same⟩ := List.mem_map.mp (chosen_iff.mp chosen)
      obtain rfl := paced.inv.ids.eq_of_key (mem_taken isTaken).1 isRow same
      refine ⟨(taken row isTaken).2, fun _ => ⟨_, List.mem_concat_self, ?_⟩⟩
      rw [Pass.ids, todo_ids]
      exact chosen_iff.mp chosen
    · intro status
      obtain ⟨within, last⟩ := paced.inProgress op isRow status
      refine ⟨within, fun isLast => ?_⟩
      obtain ⟨p, isPass, held⟩ := last isLast
      refine ⟨p, List.mem_append_left _ (List.mem_filter.mpr ⟨isPass, ?_⟩), held⟩
      refine bne_iff_ne.mpr fun own => ?_
      rw [ids_of_idle free isPass own] at held
      cases held

omit nonneg paced in
theorem apply_paced {ending : Finish}
    (recorded : (ending = .impossible false ∨ ending = .error false) →
      op.attempts < maxOutboundAttempts) (open_ : (ending.apply now op op).status = .pending ∨
      (ending.apply now op op).status = .inProgress) :
    (ending.apply now op op).attempts < maxOutboundAttempts := by
  rw [apply_attempts]
  cases ending with
  | ok => simp [Finish.apply, OutboundOp.completed] at open_
  | impossible isRecorded =>
    cases isRecorded with
    | true => simp [Finish.apply, OutboundOp.failed] at open_
    | false => exact recorded (.inl rfl)
  | error isRecorded =>
    cases isRecorded with
    | true =>
      simp only [Finish.apply, OutboundOp.failed, ↓reduceIte] at open_
      split at open_
      next => simp at open_
      next early => simpa using early
    | false => exact recorded (.inr rfl)

omit nonneg in
theorem Paced.finish {dispatcher : UUID} {now : Timestamp} {ending : Finish}
    {p : Pass} (found : s.pass? dispatcher = some p) {op : OutboundOp} {rest : List OutboundOp}
    (todo : p.todo = op :: rest) (prompt : Prompt lease longest s (.finish dispatcher now ending)) :
    Paced lease longest (s.finish p op rest now ending) := by
  have isPass := (pass?_some found).1
  have recorded := prompt.2 p found op (by rw [todo]; rfl)
  have batched {row : OutboundOp} (inBatch : row ∈ p.todo) :
      row.status = .inProgress ∧ row.attempts ≤ maxOutboundAttempts := by
    obtain ⟨isRow, status, -⟩ := paced.inv.rows p isPass row inBatch
    exact ⟨status, (paced.inProgress row isRow status).1⟩
  -- The row under way is the claimed one.
  have own {row : OutboundOp} (isRow : row ∈ s.ops) (same : row.id = op.id) : row = op :=
    paced.inv.ids.eq_of_key isRow (paced.inv.rows p isPass op (todo ▸ List.mem_cons_self)).1 same
  refine ⟨?_, Locks.forall_advanced (fun q isOpen _ => paced.passes q isOpen) ?_, fun row' member =>
    ?_, fun row' member => ?_⟩
  · refine paced.inv.finish isPass todo fun next isNext => ?_
    exact (batched (todo ▸ List.mem_cons_of_mem _ (List.mem_of_mem_head? isNext))).2
  · obtain ⟨bound, leased⟩ := paced.passes p isPass
    have late := prompt.1 p isPass (by simp [todo])
    rw [todo, List.length_cons, Nat.cast_succ, add_mul, one_mul] at bound
    exact ⟨by dsimp only; linarith, leased⟩
  · obtain ⟨row, isRow, ⟨same, rfl⟩ | ⟨-, rfl⟩⟩ := updated_or_kept member
    · obtain rfl := own isRow (by simpa using same)
      exact fun pending => apply_paced recorded (.inl pending)
    · exact paced.pending row isRow
  · obtain ⟨row, isRow, ⟨same, rfl⟩ | ⟨differs, rfl⟩⟩ := updated_or_kept member
    · obtain rfl := own isRow (by simpa using same)
      intro inProgress
      have below := apply_paced recorded (.inr inProgress)
      exact ⟨below.le, fun last => absurd last below.ne⟩
    · intro inProgress
      obtain ⟨bound, last⟩ := paced.inProgress row isRow inProgress
      refine ⟨bound, fun isLast => ?_⟩
      obtain ⟨q, isOpen, held⟩ := last isLast
      by_cases isOwn : q.dispatcher = p.dispatcher
      · obtain rfl := paced.inv.dispatchers.eq_of_key isOpen isPass isOwn
        refine ⟨_, updated_mem isPass (beq_self_eq_true _), ?_⟩
        rw [Pass.ids, todo, List.map_cons] at held
        exact (List.mem_cons.mp held).resolve_left (by simpa using differs)
      · exact ⟨q, kept_mem isOpen (by simpa using isOwn), held⟩

theorem Paced.next {action : DispatchAction} (prompt : Prompt lease longest s action) :
    Paced lease longest (Dispatching.next lease s action) := by
  cases action with
  | enqueue op =>
    have inv : (Dispatching.next lease s (.enqueue op)).Inv := paced.inv.enqueue op
    simp only [Dispatching.next] at inv ⊢
    split at inv
    · rwa [if_pos ‹_›]
    · rw [if_neg ‹_›]
      exact ⟨inv, paced.passes, forall_inserted paced.pending fun _ => Nat.zero_lt_succ 4,
        forall_inserted paced.inProgress nofun⟩
  | claim dispatcher limit now passedOver =>
    simp only [Dispatching.next]
    split
    next free => exact paced.claim nonneg free prompt.1 prompt.2
    next => exact paced
  | finish dispatcher now ending =>
    simp only [Dispatching.next]
    split
    next => exact paced
    next p found =>
    split
    next => exact paced
    next op rest todo => exact paced.finish found todo prompt

end Prompt

instance (longest : Timestamp) (s : Dispatching) (action : DispatchAction) :
    Decidable (Punctual longest s action) := by
  cases action <;> dsimp only [Punctual, OnTime] <;> infer_instance

end Dispatching

open Dispatching

/-- No operation is in two batches, `done` and `failed` are final and no operation is dispatched
more than `maxOutboundAttempts` times, exactly in those runs in which no claim takes an operation
out of an open batch and no dispatch begins on a claim beyond the permitted attempts. All runs of
dispatchers are so when a whole batch fits into the lease and the failure of a last attempt is
recorded. -/
theorem leases_iff (lease : Timestamp) (actions : List DispatchAction) :
    (Along (next lease) (fun s action => Fenced s (next lease s action)) ⟨[], [], []⟩ actions ↔
        Along (next lease) (Spared lease) ⟨[], [], []⟩ actions) ∧
      ∀ longest, 0 ≤ longest → Along (next lease) (Prompt lease longest) ⟨[], [], []⟩ actions →
        Along (next lease) (Spared lease) ⟨[], [], []⟩ actions := by
  constructor
  · have decided (s : Dispatching) (action : DispatchAction) (inv : s.Inv) :
        Fenced s (next lease s action) ↔ Spared lease s action := inv.fenced_iff action
    have kept (s : Dispatching) (action : DispatchAction) (inv : s.Inv) (spared : Spared lease s action) :
        (next lease s action).Inv := inv.next action spared
    exact Along.iff_of_cond decided kept .empty
  · intro longest nonneg prompt
    have kept (s : Dispatching) (action : DispatchAction) (paced : Paced lease longest s)
        (prompt : Prompt lease longest s action) : Paced lease longest (next lease s action) :=
      paced.next nonneg prompt
    have spared (s : Dispatching) (action : DispatchAction) (paced : Paced lease longest s)
        (prompt : Prompt lease longest s action) : Spared lease s action := paced.spared nonneg prompt
    exact Along.of_invariant kept spared .empty prompt

namespace Sample

def seconds (n : Int) : Timestamp := 1000000 * n

def comment (id : UUID) : OutboundOp :=
  ⟨id, 1, 2, 3, some id, .comment, .pending, 0, none, false, 0, 0⟩

/-- Six operations of a minute each in one batch, under a lease of five minutes. The last one is
claimed again while it is under way. -/
def outrun : List DispatchAction :=
  [.enqueue (comment 1), .enqueue (comment 2), .enqueue (comment 3), .enqueue (comment 4),
    .enqueue (comment 5), .enqueue (comment 6), .claim 0 20 0 [], .finish 0 (seconds 60) .ok,
    .finish 0 (seconds 120) .ok, .finish 0 (seconds 180) .ok, .finish 0 (seconds 240) .ok,
    .finish 0 (seconds 300) .ok, .claim 1 20 (seconds 301) [], .finish 0 (seconds 360) .ok,
    .finish 1 (seconds 361) (.error true)]

/-- Each operation takes a minute, the lease is five minutes, and yet an operation is in two batches
and goes back from `done` to `pending`. -/
theorem lease_outrun :
    Along (next (seconds 300)) (Punctual (seconds 60)) ⟨[], [], []⟩ outrun ∧
      ¬ Along (next (seconds 300)) (fun s action => (next (seconds 300) s action).Apart)
        ⟨[], [], []⟩ outrun ∧
      ¬ Along (next (seconds 300)) (fun s action => s.Final (next (seconds 300) s action)) ⟨[], [], []⟩
        outrun := by
  decide +kernel

end Sample

end Manyforge.Connectors
