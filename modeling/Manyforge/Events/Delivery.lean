import Manyforge.Events.Outbox

/-!
# What the outbox worker delivers

The columns of an outbox row, the committed writes of its subscribers and its committed failures are
all read off the committed dispatches of the event: any number that were rescheduled, and at most
one that ended it. The claim's row locks give each event to one transaction at a time.
-/
namespace Manyforge.Events

open Table Transition

variable {Payload : Type} {w : Worker} {subscribers : String → Nat} {s : OutboxState Payload}

/-- The writes of all subscribers of an event. -/
def OutboxRow.block (subscribers : String → Nat) (row : OutboxRow Payload) : List Effect :=
  (List.range (subscribers row.topic)).map (⟨row.id, ·⟩)

/-- The writes that a dispatch leaves in its transaction. -/
def Dispatched.effects (subscribers : String → Nat) (result : Dispatched Payload) : List Effect :=
  if result.verdict = .delivered then result.row.block subscribers else []

namespace OutboxState

def own (s : OutboxState Payload) (id : UUID) : List Effect := s.effects.filter (·.event == id)

end OutboxState

/-! ### One dispatch -/

theorem runHandlers_ok {event : UUID} {fails : Nat → Bool} {indices : List Nat}
    {effects effects' : List Effect}
    (run : runHandlers event fails indices effects = .ok effects') :
    effects' = effects ++ indices.map (⟨event, ·⟩) := by
  induction indices generalizing effects with
  | nil => simpa [runHandlers, eq_comm] using run
  | cons i rest ih =>
    unfold runHandlers at run
    split at run
    · cases run
    · rw [ih run]
      simp

theorem verdict_failed (threshold : Nat) (e : OutboxRow Payload) :
    verdict threshold e false ≠ .delivered := by
  simp only [verdict, Bool.false_eq_true, ↓reduceIte]
  split
  · decide
  · decide

theorem dispatch_failed {e : OutboxRow Payload} {weather : Weather} {effects effects' : List Effect}
    (run : dispatch subscribers e weather effects = some (false, effects')) :
    subscribers e.topic ≠ 0 := by
  intro none
  simp [dispatch, none] at run

theorem dispatch_some {e : OutboxRow Payload} {weather : Weather} {effects effects' : List Effect}
    {ok : Bool} (run : dispatch subscribers e weather effects = some (ok, effects'))
    (threshold : Nat) :
    effects' = effects ++ Dispatched.effects subscribers ⟨e, verdict threshold e ok⟩ := by
  have failed : Dispatched.effects subscribers ⟨e, verdict threshold e false⟩ = [] := by
    simp [Dispatched.effects, verdict_failed]
  unfold dispatch at run
  split at run
  next none =>
    cases run
    simp [Dispatched.effects, verdict, OutboxRow.block, none]
  next =>
  split at run
  next =>
    cases run
    simp [failed]
  next =>
  split at run
  next =>
    cases run
    simp [failed]
  next handled =>
  split at run
  next =>
    cases run
    rw [runHandlers_ok handled]
    simp [Dispatched.effects, verdict, OutboxRow.block]
  next => cases run

/-! ### The marks of a transaction -/

theorem mark_id (now : Timestamp) (verdict : Verdict) (row : OutboxRow Payload) :
    (row.mark now verdict).id = row.id := by
  cases verdict <;> rfl

/-- What becomes of a row at a commit. -/
def DrainTx.markedRow (tx : DrainTx Payload) (row : OutboxRow Payload) : OutboxRow Payload :=
  tx.results.foldl (fun row result =>
    if row.id == result.row.id then row.mark tx.now result.verdict else row) row

theorem marked_eq (tx : DrainTx Payload) : s.marked tx = s.rows.map tx.markedRow :=
  foldl_updateWhere _ _ _ _

variable {results : List (Dispatched Payload)} {result : Dispatched Payload}

theorem foldl_mark_other {now : Timestamp} {row : OutboxRow Payload}
    (absent : ∀ result ∈ results, result.row.id ≠ row.id) :
    results.foldl (fun row result => if row.id == result.row.id then row.mark now result.verdict
      else row) row = row := by
  induction results with
  | nil => rfl
  | cons result rest ih =>
    have differs : (row.id == result.row.id) = false :=
      beq_eq_false_iff_ne.mpr (absent result List.mem_cons_self).symm
    rw [List.foldl_cons, differs]
    exact ih fun other member => absent other (List.mem_cons_of_mem _ member)

theorem split_results (distinct : (results.map (·.row.id)).Nodup) (member : result ∈ results) :
    ∃ before after, results = before ++ result :: after ∧
      (∀ other ∈ before, other.row.id ≠ result.row.id) ∧
      ∀ other ∈ after, other.row.id ≠ result.row.id := by
  obtain ⟨before, after, rfl⟩ := List.append_of_mem member
  rw [List.map_append, List.map_cons] at distinct
  obtain ⟨-, tail, apart⟩ := List.nodup_append.mp distinct
  refine ⟨before, after, rfl, fun other isBefore same => ?_, fun other isAfter same => ?_⟩
  · exact apart _ (List.mem_map_of_mem isBefore) _ List.mem_cons_self same
  · exact (List.nodup_cons.mp tail).1 (same ▸ List.mem_map_of_mem isAfter)

theorem markedRow_of_mem {tx : DrainTx Payload} (distinct : (tx.results.map (·.row.id)).Nodup)
    (member : result ∈ tx.results) :
    tx.markedRow result.row = result.row.mark tx.now result.verdict := by
  obtain ⟨before, after, split, first, last⟩ := split_results distinct member
  rw [DrainTx.markedRow, split, List.foldl_append, List.foldl_cons, foldl_mark_other first]
  rw [beq_self_eq_true, if_pos rfl]
  exact foldl_mark_other fun other isAfter => by rw [mark_id]; exact last other isAfter

theorem markedRow_id (tx : DrainTx Payload) (row : OutboxRow Payload) :
    (tx.markedRow row).id = row.id := by
  unfold DrainTx.markedRow
  induction tx.results generalizing row with
  | nil => rfl
  | cons result rest ih =>
    rw [List.foldl_cons, ih]
    split
    · exact mark_id _ _ _
    · rfl

/-! ### The writes and the failures of a transaction -/

theorem effects_event {effect : Effect} (member : effect ∈ result.effects subscribers) :
    effect.event = result.row.id := by
  unfold Dispatched.effects at member
  split at member
  · obtain ⟨i, -, rfl⟩ := List.mem_map.mp member
    rfl
  · cases member

theorem filter_effects_other {id : UUID} (absent : ∀ result ∈ results, result.row.id ≠ id) :
    (results.flatMap (Dispatched.effects subscribers)).filter (·.event == id) = [] := by
  refine List.filter_eq_nil_iff.mpr fun effect member => ?_
  obtain ⟨result, isResult, isEffect⟩ := List.mem_flatMap.mp member
  rw [effects_event isEffect, beq_iff_eq]
  exact absent result isResult

theorem filter_effects_of_mem (distinct : (results.map (·.row.id)).Nodup)
    (member : result ∈ results) :
    (results.flatMap (Dispatched.effects subscribers)).filter (·.event == result.row.id) =
      result.effects subscribers := by
  obtain ⟨before, after, rfl, first, last⟩ := split_results distinct member
  rw [List.flatMap_append, List.flatMap_cons, List.filter_append, List.filter_append,
    filter_effects_other first, filter_effects_other last, List.nil_append, List.append_nil]
  exact List.filter_eq_self.mpr fun effect isEffect => beq_iff_eq.mpr (effects_event isEffect)

theorem failed_append (first last : List (Dispatched Payload)) :
    OutboxState.failed (first ++ last) = OutboxState.failed first ++ OutboxState.failed last := by
  simp [OutboxState.failed]

theorem count_failed_other {id : UUID} (absent : ∀ result ∈ results, result.row.id ≠ id) :
    (OutboxState.failed results).count id = 0 := by
  refine List.count_eq_zero.mpr fun member => ?_
  obtain ⟨result, isResult, isId⟩ := List.mem_map.mp member
  exact absent result (List.mem_filter.mp isResult).1 isId

theorem count_failed_of_mem (distinct : (results.map (·.row.id)).Nodup)
    (member : result ∈ results) :
    (OutboxState.failed results).count result.row.id = if result.verdict = .delivered then 0 else 1 := by
  obtain ⟨before, after, rfl, first, last⟩ := split_results distinct member
  rw [← List.singleton_append, failed_append, failed_append, List.count_append, List.count_append,
    count_failed_other first, count_failed_other last]
  by_cases delivered : result.verdict = .delivered
  · simp [OutboxState.failed, delivered]
  · simp [OutboxState.failed, delivered]

/-! ### The invariant -/

/-- What a transaction holds: its rows as they are committed, not yet processed, each once. -/
structure DrainTx.Valid (w : Worker) (subscribers : String → Nat) (rows : List (OutboxRow Payload))
    (tx : DrainTx Payload) : Prop where
  distinct : tx.locks.Nodup
  batch : ∀ row ∈ tx.batch, row ∈ rows ∧ row.processedAt = none
  results : ∀ result ∈ tx.results, result.row ∈ rows ∧ result.row.processedAt = none
  effects : tx.effects = tx.results.flatMap (Dispatched.effects subscribers)
  dropped : ∀ result ∈ tx.results, result.verdict = .dropped →
    isFinalAttempt w.threshold result.row.attempts = true ∧ subscribers result.row.topic ≠ 0
  rescheduled : ∀ result ∈ tx.results, result.verdict = .rescheduled →
    isFinalAttempt w.threshold result.row.attempts = false

theorem DrainTx.Valid.mono {rows rows' : List (OutboxRow Payload)} {tx : DrainTx Payload}
    (valid : tx.Valid w subscribers rows) (kept : ∀ row ∈ rows, row.id ∈ tx.locks → row ∈ rows') :
    tx.Valid w subscribers rows' where
  distinct := valid.distinct
  batch row member := by
    obtain ⟨isRow, unprocessed⟩ := valid.batch row member
    exact ⟨kept row isRow (List.mem_append_right _ (List.mem_map_of_mem member)), unprocessed⟩
  results result member := by
    obtain ⟨isRow, unprocessed⟩ := valid.results result member
    refine ⟨kept result.row isRow (List.mem_append_left _ ?_), unprocessed⟩
    exact List.mem_map_of_mem (f := fun result : Dispatched Payload => result.row.id) member
  effects := valid.effects
  dropped := valid.dropped
  rescheduled := valid.rescheduled

/-- An event that is pending, that was delivered, or that was dropped. -/
inductive Accounted (w : Worker) (subscribers : String → Nat) (row : OutboxRow Payload)
    (own : List Effect) (failures : Nat) : Prop
  | pending (open_ : row.processedAt = none) (none : own = []) (attempts : failures = row.attempts)
      (left : row.attempts < w.threshold)
  | delivered (done : row.processedAt.isSome = true) (all : own = row.block subscribers)
      (attempts : failures = row.attempts)
  | dropped (done : row.processedAt.isSome = true) (none : own = [])
      (subscribed : subscribers row.topic ≠ 0) (attempts : failures = row.attempts + 1)
        (last : failures = w.threshold)

namespace OutboxState

structure Inv (w : Worker) (subscribers : String → Nat) (s : OutboxState Payload) : Prop where
  ids : UniqueOn (·.id) s.rows
  workers : UniqueOn (·.worker) s.open_
  exclusive : Locks.Exclusive DrainTx.worker DrainTx.locks s.open_
  open_ : ∀ tx ∈ s.open_, tx.Valid w subscribers s.rows
  rows : ∀ row ∈ s.rows, Accounted w subscribers row (s.own row.id) (s.failures.count row.id)
  effects : ∀ effect ∈ s.effects, ∃ row ∈ s.rows, row.id = effect.event
  failures : ∀ id ∈ s.failures, ∃ row ∈ s.rows, row.id = id

theorem Inv.empty : Inv w subscribers (⟨[], [], [], []⟩ : OutboxState Payload) :=
  ⟨List.nodup_nil, List.nodup_nil, nofun, nofun, nofun, nofun, nofun⟩

variable (inv : s.Inv w subscribers)

include inv

theorem Inv.close (worker : UUID) : (s.close worker).Inv w subscribers := by
  have stay (tx : DrainTx Payload) (isOpen : tx ∈ (s.close worker).open_) : tx ∈ s.open_ :=
    (List.mem_filter.mp isOpen).1
  exact ⟨inv.ids, inv.workers.filter _, inv.exclusive.of_subset stay,
    fun tx isOpen => inv.open_ tx (stay tx isOpen), inv.rows, inv.effects, inv.failures⟩

omit inv in
theorem threshold_pos (w : Worker) : 0 < w.threshold := by
  unfold Worker.threshold
  split
  · decide
  · omega

theorem Inv.enqueue (id : UUID) (topic : String) (payload : Payload) (now : Timestamp) :
    (s.next w subscribers (.enqueue id topic payload now)).Inv w subscribers := by
  simp only [next]
  split
  · exact inv
  next absent =>
  have fresh := ne_of_not_any absent
  refine ⟨inv.ids.append_fresh fresh, inv.workers, inv.exclusive, fun tx isOpen => ?_,
    fun row member => ?_, fun effect member => ?_, fun other member => ?_⟩
  · exact (inv.open_ tx isOpen).mono fun row member _ => List.mem_append_left _ member
  · rcases mem_inserted.mp member with old | rfl
    · exact inv.rows row old
    · -- Nothing is committed for an event that was not there.
      have none : s.own id = [] := List.filter_eq_nil_iff.mpr fun effect isEffect => by
        obtain ⟨row, isRow, isEvent⟩ := inv.effects effect isEffect
        simpa [← isEvent] using fresh row isRow
      have never : s.failures.count id = 0 := List.count_eq_zero.mpr fun failed => by
        obtain ⟨row, isRow, isId⟩ := inv.failures id failed
        exact fresh row isRow isId
      exact .pending rfl none never (threshold_pos w)
  · obtain ⟨row, isRow, isEvent⟩ := inv.effects effect member
    exact ⟨row, List.mem_append_left _ isRow, isEvent⟩
  · obtain ⟨row, isRow, isId⟩ := inv.failures other member
    exact ⟨row, List.mem_append_left _ isRow, isId⟩

theorem Inv.claim (worker : UUID) (now : Timestamp) (passedOver : List UUID) :
    (s.next w subscribers (.claim worker now passedOver)).Inv w subscribers := by
  simp only [next]
  split
  · exact inv
  next absent =>
  have fresh := ne_of_not_any absent
  have claimed (row : OutboxRow Payload) (member : row ∈ s.claimOutboxBatch w worker now passedOver) :
      row ∈ s.rows ∧ row.processedAt = none ∧ ∀ tx ∈ s.open_, row.id ∉ tx.locks := by
    obtain ⟨isRow, chosen, free⟩ := mem_selectForUpdate member
    simp only [Bool.and_eq_true, Option.isNone_iff_eq_none] at chosen
    simp only [Bool.or_eq_false_iff, Bool.not_eq_false'] at free
    exact ⟨isRow, chosen.1, fun tx isOpen => Locks.free_iff.mp free.2 tx isOpen (fresh tx isOpen)⟩
  refine ⟨inv.ids, inv.workers.append_fresh fresh, inv.exclusive.begun fun id held tx isOpen => ?_,
    forall_inserted inv.open_ ⟨?_, fun row member => ?_, nofun, rfl, nofun, nofun⟩, inv.rows,
    inv.effects, inv.failures⟩
  · obtain ⟨row, member, rfl⟩ := List.mem_map.mp held
    exact (claimed row member).2.2 tx isOpen
  · exact inv.ids.selectFirst _ _
  · exact ⟨(claimed row member).1, (claimed row member).2.1⟩

variable {tx : DrainTx Payload}

section

variable (isOpen : tx ∈ s.open_)

include isOpen

theorem Inv.turn {e : OutboxRow Payload} {rest : List (OutboxRow Payload)}
    (batch : tx.batch = e :: rest)
    (weather : Weather) : (s.turn w subscribers tx e rest weather).Inv w subscribers := by
  unfold OutboxState.turn
  split
  · exact inv.close tx.worker
  next ok effects run =>
  have valid := inv.open_ tx isOpen
  -- The event moves from the batch to the results, so the locks are the same.
  have sameLocks (verdict : Verdict) : DrainTx.locks { tx with
      batch := rest, results := tx.results ++ [⟨e, verdict⟩], effects } = tx.locks := by
    simp [DrainTx.locks, batch]
  refine ⟨inv.ids, ?_, ?_,
    Locks.forall_advanced (fun other isOther _ => inv.open_ other isOther) ?_,
    inv.rows, inv.effects, inv.failures⟩
  · exact inv.workers.updateWhere fun other chosen => (beq_iff_eq.mp chosen).symm
  · exact inv.exclusive.advanced isOpen fun id held => .inl (by rwa [sameLocks] at held)
  · have current := valid.batch e (by simp [batch])
    refine ⟨by rw [sameLocks]; exact valid.distinct, fun row member => ?_, ?_, ?_, ?_, ?_⟩
    · exact valid.batch row (by simp [batch, member])
    · exact forall_inserted valid.results current
    · rw [dispatch_some run w.threshold, valid.effects, List.flatMap_append, List.flatMap_singleton]
    · refine forall_inserted valid.dropped fun isDropped => ?_
      cases ok with
      | true => simp [verdict] at isDropped
      | false =>
        refine ⟨?_, dispatch_failed run⟩
        by_contra early
        simp [verdict, early] at isDropped
    · refine forall_inserted valid.rescheduled fun isRescheduled => ?_
      by_contra final
      cases ok <;> simp [verdict, final] at isRescheduled

/-! ### The commit -/

def committed (s : OutboxState Payload) (tx : DrainTx Payload) : OutboxState Payload :=
  { s.close tx.worker with
    rows := s.marked tx
    effects := s.effects ++ tx.effects
    failures := s.failures ++ failed tx.results }

theorem Inv.marked_cases {row : OutboxRow Payload} (member : row ∈ s.rows) :
    (∃ result ∈ tx.results, result.row = row ∧ tx.markedRow row = row.mark tx.now result.verdict ∧
        (s.committed tx).own row.id = s.own row.id ++ result.effects subscribers ∧
        (s.committed tx).failures.count row.id =
          s.failures.count row.id + if result.verdict = .delivered then 0 else 1) ∨
      ((∀ result ∈ tx.results, result.row.id ≠ row.id) ∧ tx.markedRow row = row ∧
        (s.committed tx).own row.id = s.own row.id ∧
        (s.committed tx).failures.count row.id = s.failures.count row.id) := by
  have valid := inv.open_ tx isOpen
  have distinct : (tx.results.map (·.row.id)).Nodup := (List.nodup_append.mp valid.distinct).1
  have owns (id : UUID) : (s.committed tx).own id = s.own id ++
      (tx.results.flatMap (Dispatched.effects subscribers)).filter (·.event == id) := by
    simp [own, committed, valid.effects]
  have counts (id : UUID) : (s.committed tx).failures.count id =
      s.failures.count id + (failed tx.results).count id := by
    simp [committed]
  by_cases dispatched : ∃ result ∈ tx.results, result.row.id = row.id
  · obtain ⟨result, isResult, same⟩ := dispatched
    obtain rfl := inv.ids.eq_of_key (valid.results result isResult).1 member same
    refine .inl ⟨result, isResult, rfl, markedRow_of_mem distinct isResult, ?_, ?_⟩
    · rw [owns, filter_effects_of_mem distinct isResult]
    · rw [counts, count_failed_of_mem distinct isResult]
  · have absent (result : Dispatched Payload) (isResult : result ∈ tx.results) : result.row.id ≠ row.id :=
      fun same => dispatched ⟨result, isResult, same⟩
    refine .inr ⟨absent, foldl_mark_other absent, ?_, ?_⟩
    · rw [owns, filter_effects_other absent, List.append_nil]
    · rw [counts, count_failed_other absent, Nat.add_zero]

theorem Inv.accounted_mark {result : Dispatched Payload} (isResult : result ∈ tx.results) :
    Accounted w subscribers (result.row.mark tx.now result.verdict)
      (s.own result.row.id ++ result.effects subscribers)
      (s.failures.count result.row.id + if result.verdict = .delivered then 0 else 1) := by
  have valid := inv.open_ tx isOpen
  obtain ⟨isRow, unprocessed⟩ := valid.results result isResult
  have account := inv.rows result.row isRow
  cases account with
  | delivered done | dropped done => simp [unprocessed] at done
  | pending _ none attempts left =>
    cases verdict : result.verdict with
    | delivered =>
      refine .delivered rfl ?_ ?_
      · simp only [none, List.nil_append, Dispatched.effects, verdict, ↓reduceIte]
        rfl
      · simpa [OutboxRow.mark] using attempts
    | dropped =>
      obtain ⟨final, subscribed⟩ := valid.dropped result isResult verdict
      simp only [isFinalAttempt, decide_eq_true_eq] at final
      refine .dropped rfl ?_ subscribed ?_ ?_
      · simp [none, Dispatched.effects, verdict]
      · simpa [OutboxRow.mark] using attempts
      · simp only [reduceCtorEq, ↓reduceIte]
        omega
    | rescheduled =>
      have early := valid.rescheduled result isResult verdict
      simp only [isFinalAttempt, decide_eq_false_iff_not, not_le] at early
      refine .pending unprocessed ?_ ?_ early
      · simp [none, Dispatched.effects, verdict]
      · simpa [OutboxRow.mark] using attempts

theorem Inv.commit : (s.committed tx).Inv w subscribers := by
  have valid := inv.open_ tx isOpen
  have rows : (s.committed tx).rows = s.rows.map tx.markedRow := marked_eq tx
  have stays {id : UUID} (known : ∃ row ∈ s.rows, row.id = id) :
      ∃ row ∈ (s.committed tx).rows, row.id = id := by
    obtain ⟨row, isRow, isId⟩ := known
    rw [rows]
    exact ⟨tx.markedRow row, List.mem_map_of_mem isRow, (markedRow_id tx row).trans isId⟩
  refine ⟨?_, inv.workers.filter _, ?_, fun other isOther => ?_, fun row' member => ?_,
    fun effect member => ?_, fun id member => ?_⟩
  · have ids : (s.rows.map tx.markedRow).map (·.id) = s.rows.map (·.id) := by
      rw [List.map_map]
      exact List.map_congr_left fun row _ => markedRow_id tx row
    rw [rows, UniqueOn, ids]
    exact inv.ids
  · exact inv.exclusive.of_subset fun other isOther => (List.mem_filter.mp isOther).1
  · obtain ⟨wasOpen, differs⟩ := List.mem_filter.mp isOther
    -- The rows of another transaction are locked by it, so they were not marked.
    refine (inv.open_ other wasOpen).mono fun row isRow held => ?_
    rw [rows]
    refine List.mem_map.mpr ⟨row, isRow, foldl_mark_other fun result isResult same => ?_⟩
    have taken : row.id ∈ tx.locks := by
      rw [← same]
      exact List.mem_append_left _
        (List.mem_map_of_mem (f := fun result : Dispatched Payload => result.row.id) isResult)
    exact inv.exclusive.apart wasOpen isOpen (bne_iff_ne.mp differs).symm held taken
  · rw [rows] at member
    obtain ⟨row, isRow, rfl⟩ := List.mem_map.mp member
    rw [markedRow_id]
    rcases inv.marked_cases isOpen isRow with ⟨result, isResult, rfl, marked, owns, counts⟩ |
      ⟨-, same, owns, counts⟩
    · rw [marked, owns, counts]
      exact inv.accounted_mark isOpen isResult
    · rw [same, owns, counts]
      exact inv.rows row isRow
  · rcases List.mem_append.mp member with old | new
    · exact stays (inv.effects effect old)
    · rw [valid.effects] at new
      obtain ⟨result, isResult, isEffect⟩ := List.mem_flatMap.mp new
      exact stays ⟨result.row, (valid.results result isResult).1, (effects_event isEffect).symm⟩
  · rcases List.mem_append.mp member with old | new
    · exact stays (inv.failures id old)
    · obtain ⟨result, isResult, rfl⟩ := List.mem_map.mp new
      exact stays ⟨result.row, (valid.results result (List.mem_filter.mp isResult).1).1, rfl⟩

end

omit inv in
theorem tx?_some {worker : UUID} (found : s.tx? worker = some tx) :
    tx ∈ s.open_ ∧ tx.worker = worker :=
  of_find? found

theorem Inv.next (action : OutboxAction Payload) :
    (s.next w subscribers action).Inv w subscribers := by
  cases action with
  | enqueue id topic payload now => exact inv.enqueue id topic payload now
  | claim worker now passedOver => exact inv.claim worker now passedOver
  | dispatch worker weather =>
    simp only [OutboxState.next]
    split
    · exact inv
    next tx found =>
    split
    · exact inv
    next e rest batch => exact inv.turn (tx?_some found).1 batch weather
  | commit worker =>
    simp only [OutboxState.next]
    split
    · exact inv
    next tx found =>
    obtain ⟨isOpen, rfl⟩ := tx?_some found
    split
    · exact inv.commit isOpen
    · exact inv
  | crash worker => exact inv.close worker

/-! ### What one action delivers -/

/-- Every subscriber of an event has its writes committed once, or none has. -/
def AllOrNone (subscribers : String → Nat) (s : OutboxState Payload) : Prop :=
  ∀ row ∈ s.rows, s.own row.id = [] ∨ s.own row.id = row.block subscribers

/-- The attempts of an event are its committed failures; those of an event with a subscriber that
was processed without a write are one less, and the failures are as many as the worker allows. -/
def CountsFailures (w : Worker) (subscribers : String → Nat) (s : OutboxState Payload) : Prop :=
  ∀ row ∈ s.rows,
    if subscribers row.topic ≠ 0 ∧ row.processedAt.isSome = true ∧ s.own row.id = [] then
      s.failures.count row.id = row.attempts + 1 ∧ s.failures.count row.id = w.threshold
    else s.failures.count row.id = row.attempts

/-- An event is marked as processed by the transaction that commits the writes of all its
subscribers, or by the one whose failure is the last. -/
def EndsWith (w : Worker) (subscribers : String → Nat) (s s' : OutboxState Payload) : Prop :=
  ∀ row ∈ s.rows, ∀ row' ∈ s'.rows, row'.id = row.id → row.processedAt = none →
    row'.processedAt.isSome = true →
    (s.own row.id = [] ∧ s'.own row.id = row.block subscribers) ∨
      (s'.failures.count row.id = s.failures.count row.id + 1 ∧ s'.failures.count row.id = w.threshold)

/-- Committed writes stay, and a commit keeps the writes of every dispatch that succeeded, whatever
became of the others in the batch. -/
def KeepsEffects (subscribers : String → Nat) (s s' : OutboxState Payload)
    (action : OutboxAction Payload) : Prop :=
  s.effects <+: s'.effects ∧ ∀ tx ∈ s.open_, action = .commit tx.worker → tx.batch = [] →
    ∀ result ∈ tx.results, result.verdict = .delivered →
      ∀ effect ∈ result.row.block subscribers, effect ∈ s'.effects

theorem Inv.allOrNone : s.AllOrNone subscribers := by
  intro row member
  cases inv.rows row member with
  | pending _ none | dropped _ none => exact .inl none
  | delivered _ all => exact .inr all

theorem Inv.countsFailures : s.CountsFailures w subscribers := by
  intro row member
  cases inv.rows row member with
  | pending open_ _ attempts =>
    rw [if_neg (by simp [open_])]
    exact attempts
  | delivered _ all attempts =>
    -- The writes of the subscribers are none only if there is no subscriber.
    have written : ¬ (subscribers row.topic ≠ 0 ∧ row.processedAt.isSome = true ∧
        s.own row.id = []) := by
      rintro ⟨subscribed, -, none⟩
      simp [all, OutboxRow.block, subscribed] at none
    rw [if_neg written]
    exact attempts
  | dropped done none subscribed attempts last =>
    rw [if_pos ⟨subscribed, done, none⟩]
    exact ⟨attempts, last⟩

variable (w subscribers) in
omit inv in
/-- Only a commit adds effects or failures or ends an event. -/
theorem next_cases (action : OutboxAction Payload) :
    (∃ tx ∈ s.open_, action = .commit tx.worker ∧ s.next w subscribers action = s.committed tx) ∨
      (s.next w subscribers action).effects = s.effects ∧
        (s.next w subscribers action).failures = s.failures ∧
        ∀ row ∈ (s.next w subscribers action).rows, row ∈ s.rows ∨ row.processedAt = none := by
  have same : (s.effects = s.effects) ∧ (s.failures = s.failures) ∧
      ∀ row ∈ s.rows, row ∈ s.rows ∨ row.processedAt = none := ⟨rfl, rfl, fun _ member => .inl member⟩
  cases action with
  | enqueue id topic payload now =>
    refine .inr ?_
    simp only [next]
    split
    · exact same
    · refine ⟨rfl, rfl, fun row member => ?_⟩
      rcases List.mem_append.mp member with old | new
      · exact .inl old
      · exact .inr (List.mem_singleton.mp new ▸ rfl)
  | claim worker now passedOver =>
    refine .inr ?_
    simp only [next]
    split
    · exact same
    · exact same
  | dispatch worker weather =>
    refine .inr ?_
    simp only [next]
    split
    · exact same
    split
    · exact same
    unfold turn
    split
    · exact same
    · exact same
  | commit worker =>
    simp only [next]
    split
    · exact .inr same
    next tx found =>
    obtain ⟨isOpen, rfl⟩ := tx?_some found
    split
    · exact .inl ⟨tx, isOpen, rfl, rfl⟩
    · exact .inr same
  | crash worker => exact .inr same

theorem Inv.endsWith_commit (isOpen : tx ∈ s.open_) :
    EndsWith w subscribers s (s.committed tx) := by
  intro row member row' member' sameId unprocessed done
  rw [show (s.committed tx).rows = s.rows.map tx.markedRow from marked_eq tx] at member'
  obtain ⟨other, isOther, rfl⟩ := List.mem_map.mp member'
  rw [markedRow_id] at sameId
  obtain rfl := inv.ids.eq_of_key isOther member sameId
  rcases inv.marked_cases isOpen member with ⟨result, isResult, rfl, marked, owns, counts⟩ |
    ⟨-, same, -, -⟩
  · rw [owns, counts]
    cases inv.rows result.row member with
    | delivered before | dropped before => simp [unprocessed] at before
    | pending _ none attempts left =>
      cases verdict : result.verdict with
      | delivered => exact .inl ⟨none, by simp [none, Dispatched.effects, verdict]⟩
      | dropped =>
        have final := ((inv.open_ tx isOpen).dropped result isResult verdict).1
        simp only [isFinalAttempt, decide_eq_true_eq] at final
        refine .inr ⟨rfl, ?_⟩
        simp only [reduceCtorEq, ↓reduceIte]
        omega
      | rescheduled =>
        -- A rescheduled event is not processed.
        rw [marked, verdict] at done
        simp [OutboxRow.mark, unprocessed] at done
  · rw [same, unprocessed] at done
    cases done

/-- An event ends with all its writes or with its last failure. -/
theorem Inv.endsWith (action : OutboxAction Payload) :
    EndsWith w subscribers s (s.next w subscribers action) := by
  rcases next_cases w subscribers action with ⟨tx, isOpen, -, isCommit⟩ | ⟨-, -, rows⟩
  · rw [isCommit]
    exact inv.endsWith_commit isOpen
  · intro row member row' member' sameId unprocessed done
    rcases rows row' member' with old | open_
    · rw [inv.ids.eq_of_key old member sameId, unprocessed] at done
      cases done
    · rw [open_] at done
      cases done

theorem Inv.next_commit (isOpen : tx ∈ s.open_) (finished : tx.batch = []) :
    s.next w subscribers (.commit tx.worker) = s.committed tx := by
  have found : s.tx? tx.worker = some tx := inv.workers.find?_key isOpen
  simp only [OutboxState.next, found, finished, List.isEmpty_nil, ↓reduceIte]
  rfl

/-- A failed dispatch takes no other writes back. -/
theorem Inv.keepsEffects (action : OutboxAction Payload) :
    KeepsEffects subscribers s (s.next w subscribers action) action := by
  constructor
  · rcases next_cases w subscribers action with ⟨tx, -, -, isCommit⟩ | ⟨same, -, -⟩
    · rw [isCommit]
      exact List.prefix_append _ _
    · exact same.symm ▸ List.prefix_refl _
  · rintro tx isOpen rfl finished result isResult delivered effect isEffect
    rw [inv.next_commit isOpen finished]
    refine List.mem_append_right _ ?_
    rw [(inv.open_ tx isOpen).effects]
    refine List.mem_flatMap.mpr ⟨result, isResult, ?_⟩
    rwa [Dispatched.effects, if_pos delivered]

end OutboxState

open OutboxState

/-- Along every interleaving of workers, with any failures and crashes, from an empty outbox. -/
theorem outbox_delivery (w : Worker) (subscribers : String → Nat)
    (actions : List (OutboxAction Payload)) :
    Along (next w subscribers) (fun s action =>
      (s.next w subscribers action).AllOrNone subscribers ∧
      (s.next w subscribers action).CountsFailures w subscribers ∧
      s.EndsWith w subscribers (s.next w subscribers action) ∧
      s.KeepsEffects subscribers (s.next w subscribers action) action) ⟨[], [], [], []⟩ actions := by
  have kept (s : OutboxState Payload) (action : OutboxAction Payload) (inv : s.Inv w subscribers) :
      (s.next w subscribers action).Inv w subscribers := inv.next action
  refine Along.of_kept kept (fun s action inv => ?_) Inv.empty actions
  have inv' := kept s action inv
  exact ⟨inv'.allOrNone, inv'.countsFailures, inv.endsWith action, inv.keepsEffects action⟩

namespace Sample

/-- The events of one run: one subscriber, which fails twice; the worker gives up after two
attempts. -/
def poisoned : OutboxState Unit :=
  let failing : Weather := ⟨true, fun _ => true, true⟩
  [.enqueue 1 "ticket.created" () 0, .claim 7 0 [], .dispatch 7 failing, .commit 7,
    .claim 7 10000000 [], .dispatch 7 failing, .commit 7].foldl
      (next ⟨50, 2⟩ fun _ => 1) ⟨[], [], [], []⟩

/-- The event has failed twice, and its row says once. -/
theorem last_failure_uncounted :
    poisoned.failures = [1, 1] ∧
      poisoned.rows = [⟨1, "ticket.created", (), 2000000, some 10000000, 1⟩] := by
  decide +kernel

end Sample

end Manyforge.Events
