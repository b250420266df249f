import Manyforge.Agents.Approvals

/-!
# How approved actions end

An item moves along `pending`, `approved`, `executed` or `failed`, and to `denied` or `expired` only
from `pending`. Every event belongs to an item that was approved in time, so the executor runs
nothing else. Whether the event is processed only after the item is finished depends on the last
statement that the executor makes on the item: `Handle` returns `nil` after a `MarkFailed` that did
not reach the row, and on the final attempt the worker drops the event whatever the error was.
-/
namespace Manyforge.Agents

open Table Events Transition
open ApprovalExecutor (precheck afterInvoke afterMark)

variable {Args : Type} {executor : ApprovalExecutor} {w : Worker} {s : Approvals Args}

/-! ### Items -/

def ApprovalItem.ApprovedInTime (item : ApprovalItem Args) : Prop :=
  (item.state = .approved ∨ item.state.finished = true) ∧
    ∃ decided, item.decidedAt = some decided ∧ decided < item.expiresAt

/-- How the state of an item can change. -/
inductive ApprovalItem.Turn (item item' : ApprovalItem Args) : Prop
  | same (state : item'.state = item.state) (decidedAt : item'.decidedAt = item.decidedAt)
  | refused (was : item.state = .pending) (now : item'.state = .denied ∨ item'.state = .expired)
  | approved (was : item.state = .pending) (now : item'.state = .approved)
      (inTime : ∃ decided, item'.decidedAt = some decided ∧ decided < item.expiresAt)
  | finished (was : item.state = .approved) (now : item'.state.finished = true)
      (decidedAt : item'.decidedAt = item.decidedAt)

/-- What one step can do to an item. -/
structure ApprovalItem.Moves (item item' : ApprovalItem Args) : Prop where
  id : item'.id = item.id
  businessId : item'.businessId = item.businessId
  tool : item'.tool = item.tool
  args : item'.args = item.args
  expiresAt : item'.expiresAt = item.expiresAt
  turn : item.Turn item'

theorem ApprovalItem.Moves.refl (item : ApprovalItem Args) : item.Moves item :=
  ⟨rfl, rfl, rfl, rfl, rfl, .same rfl rfl⟩

theorem ApprovalState.terminal_of_finished {state : ApprovalState}
    (finished : state.finished = true) : state.terminal = true := by
  cases state <;> first | rfl | cases finished

theorem ApprovalItem.Moves.terminal {item item' : ApprovalItem Args} (moves : item.Moves item')
    (terminal : item.state.terminal = true) : item'.state = item.state := by
  cases moves.turn with
  | same state => exact state
  | refused was | approved was | finished was => simp [was, ApprovalState.terminal] at terminal

theorem ApprovalItem.Moves.approvedInTime {item item' : ApprovalItem Args}
    (moves : item.Moves item') (inTime : item.ApprovedInTime) : item'.ApprovedInTime := by
  obtain ⟨state, decided, isDecided, early⟩ := inTime
  have notPending (was : item.state = .pending) : False := by
    simp [was, ApprovalState.finished] at state
  cases moves.turn with
  | same same decidedAt =>
    exact ⟨same ▸ state, decided, decidedAt.trans isDecided, moves.expiresAt ▸ early⟩
  | refused was | approved was => exact (notPending was).elim
  | finished _ now decidedAt =>
    exact ⟨.inr now, decided, decidedAt.trans isDecided, moves.expiresAt ▸ early⟩

def Moved (items items' : List (ApprovalItem Args)) : Prop :=
  ∀ item ∈ items, ∃ item' ∈ items', item.Moves item'

theorem Moved.refl (items : List (ApprovalItem Args)) : Moved items items :=
  fun item member => ⟨item, member, .refl item⟩

variable {items : List (ApprovalItem Args)}

theorem Moved.updateWhere {chosen : ApprovalItem Args → Bool}
    {change : ApprovalItem Args → ApprovalItem Args}
    (moves : ∀ item, chosen item = true → item.Moves (change item)) :
    Moved items (updateWhere chosen change items) := by
  intro item member
  refine ⟨_, List.mem_map_of_mem member, ?_⟩
  split
  next isChosen => exact moves item isChosen
  next => exact .refl item

theorem decided_moved (id businessId : UUID) (now : Timestamp) {state : ApprovalState}
    (decision : state = .approved ∨ state = .denied) :
    Moved s.items (s.decided id businessId state now) := by
  refine Moved.updateWhere fun item chosen => ⟨rfl, rfl, rfl, rfl, rfl, ?_⟩
  simp only [Approvals.toDecide, Bool.and_eq_true, beq_iff_eq, decide_eq_true_eq] at chosen
  rcases decision with rfl | rfl
  · exact .approved chosen.1.2 rfl ⟨now, rfl, chosen.2⟩
  · exact .refused chosen.1.2 (.inl rfl)

theorem expireStaleApprovals_moved (now : Timestamp) (passedOver : List UUID) :
    Moved s.items (s.expireStaleApprovals now passedOver) := by
  refine Moved.updateWhere fun item chosen => ⟨rfl, rfl, rfl, rfl, rfl, ?_⟩
  simp only [Bool.and_eq_true, beq_iff_eq] at chosen
  exact .refused chosen.1.1 (.inr rfl)

theorem marked_moved (payload : ApprovalEventPayload Args) (stage : Stage) :
    Moved s.items (s.marked payload stage) := by
  refine Moved.updateWhere fun item chosen => ?_
  simp only [Bool.and_eq_true, beq_iff_eq] at chosen
  cases stage with
  | waiting | invoking | marking | failing reason =>
    exact ⟨rfl, rfl, rfl, rfl, rfl, .finished chosen.2 rfl rfl⟩

/-! ### What stands behind an event -/

/-- The item of an event: approved in time, with the tool and the arguments of the event. -/
structure Backs (payload : ApprovalEventPayload Args) (item : ApprovalItem Args) : Prop where
  id : item.id = payload.approvalId
  businessId : item.businessId = payload.businessId
  tool : item.tool = payload.tool
  args : item.args = payload.args
  inTime : item.ApprovedInTime

def Finished (items : List (ApprovalItem Args)) (payload : ApprovalEventPayload Args) : Prop :=
  ∃ item ∈ items, item.id = payload.approvalId ∧ item.state.finished = true
  deriving Decidable

def Enqueued (events : List (ApprovalRow Args)) (row : ApprovalRow Args) : Prop :=
  ∃ e ∈ events, e.id = row.id ∧ e.payload = row.payload

theorem Moved.backs {items' : List (ApprovalItem Args)} (moved : Moved items items')
    {payload : ApprovalEventPayload Args} (backed : ∃ item ∈ items, Backs payload item) :
    ∃ item ∈ items', Backs payload item := by
  obtain ⟨item, member, backs⟩ := backed
  obtain ⟨item', member', moves⟩ := moved item member
  exact ⟨item', member', moves.id.trans backs.id, moves.businessId.trans backs.businessId,
    moves.tool.trans backs.tool, moves.args.trans backs.args, moves.approvedInTime backs.inTime⟩

theorem Moved.finished {items' : List (ApprovalItem Args)} (moved : Moved items items')
    {payload : ApprovalEventPayload Args} (finished : Finished items payload) :
    Finished items' payload := by
  obtain ⟨item, member, isItem, state⟩ := finished
  obtain ⟨item', member', moves⟩ := moved item member
  refine ⟨item', member', moves.id.trans isItem, ?_⟩
  rw [moves.terminal (ApprovalState.terminal_of_finished state)]
  exact state

theorem marked_finished {payload : ApprovalEventPayload Args}
    (backed : ∃ item ∈ s.items, Backs payload item) (stage : Stage) :
    Finished (s.marked payload stage) payload := by
  obtain ⟨item, member, backs⟩ := backed
  rcases backs.inTime.1 with approved | finished
  · refine ⟨_, List.mem_map_of_mem member, ?_⟩
    rw [if_pos (by simp [backs.id, backs.businessId, approved])]
    cases stage <;> exact ⟨backs.id, rfl⟩
  · exact (marked_moved payload stage).finished ⟨item, member, backs.id, finished⟩

/-! ### Deliveries -/

def Handled.ends (result : Handled Args) : Prop := result.verdict ≠ .rescheduled

/-- A delivery works on events of the outbox, and what it has recorded is so. -/
structure Delivery.Valid (items : List (ApprovalItem Args))
    (events : List (ApprovalRow Args)) (d : Delivery Args) : Prop where
  batch : ∀ row ∈ d.batch, Enqueued events row
  results : ∀ result ∈ d.results, Enqueued events result.row
  recorded : ∀ result ∈ d.results, result.recorded = true → result.ends →
    Finished items result.row.payload

theorem Delivery.Valid.mono {items' : List (ApprovalItem Args)}
    {events events' : List (ApprovalRow Args)} {d : Delivery Args} (valid : d.Valid items events)
    (moved : Moved items items') (kept : ∀ row, Enqueued events row → Enqueued events' row) :
    d.Valid items' events' where
  batch row member := kept row (valid.batch row member)
  results result member := kept result.row (valid.results result member)
  recorded result member isRecorded ends :=
    moved.finished (valid.recorded result member isRecorded ends)

/-- What `Handle` may report when it returns. -/
def Honest (threshold : Nat) (items : List (ApprovalItem Args))
    (e : ApprovalRow Args) : Progress → Prop
  | .goOn _ => True
  | .returned ok recorded =>
    recorded = true → verdict threshold e ok ≠ .rescheduled → Finished items e.payload

theorem Delivery.Valid.proceed {events : List (ApprovalRow Args)} {d : Delivery Args}
    (valid : d.Valid items events) {e : ApprovalRow Args}
    {rest : List (ApprovalRow Args)} (batch : d.batch = e :: rest) {threshold : Nat}
    {progress : Progress} (honest : Honest threshold items e progress) :
    (d.proceed threshold e rest progress).Valid items events := by
  cases progress with
  | goOn stage => exact ⟨valid.batch, valid.results, valid.recorded⟩
  | returned ok recorded =>
    refine ⟨fun row member => valid.batch row (batch ▸ List.mem_cons_of_mem e member), ?_, ?_⟩
    · exact forall_inserted valid.results (valid.batch e (batch ▸ List.mem_cons_self))
    · exact forall_inserted valid.recorded honest

/-! ### The invariant -/

namespace Approvals

structure Inv (s : Approvals Args) : Prop where
  ids : UniqueOn (·.id) s.items
  eventIds : UniqueOn (·.id) s.events
  events : ∀ e ∈ s.events, ∃ item ∈ s.items, Backs e.payload item
  open_ : ∀ d ∈ s.open_, d.Valid s.items s.events

theorem Inv.empty : Inv (⟨[], [], [], []⟩ : Approvals Args) :=
  ⟨List.nodup_nil, List.nodup_nil, nofun, nofun⟩

theorem Inv.backed (inv : s.Inv) {row : ApprovalRow Args}
    (enqueued : Enqueued s.events row) : ∃ item ∈ s.items, Backs row.payload item := by
  obtain ⟨e, member, -, same⟩ := enqueued
  exact same ▸ inv.events e member

/-! ### Approval -/

variable {s' : Approvals Args} {action : ApprovalAction Args}

theorem approve_ok {id businessId : UUID} {now : Timestamp} {actor : Option UUID} {event : UUID}
    (ok : s.approve id businessId now actor event = .ok s') :
    ∃ item principal, id = item.id ∧ actor = some principal ∧ item ∈ s.items ∧
      toDecide id businessId now item = true ∧ (∀ e ∈ s.events, e.id ≠ event) ∧ s' = { s with
      items := s.decided id businessId .approved now
      events := s.events ++ [⟨event, topicAgentApproved, ⟨item.id, item.agentRunId, principal,
        businessId, item.tool, item.args⟩, now, none, 0⟩] } := by
  unfold approve at ok
  split at ok
  next => cases ok
  next item found =>
  split at ok
  next => cases ok
  next principal =>
  split at ok
  next => cases ok
  next absent =>
  cases ok
  have chosen := List.find?_some found
  have isItem : id = item.id := by
    simp only [toDecide, Bool.and_eq_true, beq_iff_eq] at chosen
    exact chosen.1.1.1.symm
  exact ⟨item, principal, isItem, rfl, List.mem_of_find?_eq_some found, chosen,
    ne_of_not_any absent, rfl⟩

/-! ### The executor -/

theorem precheck_honest (inv : s.Inv) {e : ApprovalRow Args}
    (enqueued : Enqueued s.events e) (answer : Answer) (threshold : Nat) :
    Honest threshold s.items e (executor.precheck e.payload (s.found e answer)) := by
  unfold precheck
  split
  next => exact nofun
  next item isFound =>
  split
  next notApproved =>
    intro _ _
    unfold found at isFound
    split at isFound
    next =>
      obtain ⟨backing, member, backs⟩ := inv.backed enqueued
      have isItem := List.find?_some isFound
      simp only [Bool.and_eq_true, beq_iff_eq] at isItem
      obtain rfl := inv.ids.eq_of_key member (List.mem_of_find?_eq_some isFound)
        (backs.id.trans isItem.1.symm)
      exact ⟨backing, member, backs.id, backs.inTime.1.resolve_left notApproved⟩
    next => cases isFound
  next =>
  split
  · split
    · trivial
    · trivial
  · split
    · trivial
    · trivial

theorem afterInvoke_honest (threshold : Nat) (items : List (ApprovalItem Args))
    (e : ApprovalRow Args) (error : Option ToolError) :
    Honest threshold items e
      (afterInvoke (isFinalAttempt threshold e.attempts) error) := by
  unfold afterInvoke
  split
  · trivial
  · split
    · trivial
    next early =>
      intro _ ends
      exact absurd (by simp [verdict, early]) ends

theorem afterMark_honest (inv : s.Inv) {e : ApprovalRow Args}
    (enqueued : Enqueued s.events e) (stage : Stage) (answer : Answer) (threshold : Nat) :
    Honest threshold (if answer.reached then s.marked e.payload stage else s.items) e
      (afterMark stage answer) := by
  have finished := marked_finished (inv.backed enqueued) stage
  have reached (isReached : answer.reached = true) :
      Finished (if answer.reached then s.marked e.payload stage else s.items) e.payload := by
    rwa [if_pos isReached]
  cases stage <;> exact fun isReached _ => reached isReached

/-! ### Marking the events -/

def markedEvent (d : Delivery Args) (e : ApprovalRow Args) : ApprovalRow Args :=
  d.results.foldl (fun e result =>
    if e.id == result.row.id then e.mark d.now result.verdict else e) e

theorem markedEvents_eq (d : Delivery Args) : s.markedEvents d = s.events.map (markedEvent d) :=
  foldl_updateWhere _ _ _ _

theorem mark_processed (now : Timestamp) (verdict : Verdict) (e : ApprovalRow Args) :
    (e.mark now verdict).processedAt.isSome = true ↔
      e.processedAt.isSome = true ∨ verdict ≠ .rescheduled := by
  cases verdict <;> simp [OutboxRow.mark]

/-- A committed delivery has processed the events that its results end, and changed nothing that an
event is about. -/
theorem foldl_mark (now : Timestamp) (results : List (Handled Args)) (e : ApprovalRow Args) :
    let marked := results.foldl (fun e result =>
      if e.id == result.row.id then e.mark now result.verdict else e) e
    marked.id = e.id ∧ marked.payload = e.payload ∧
      (marked.processedAt.isSome = true ↔
        e.processedAt.isSome = true ∨ ∃ result ∈ results, result.row.id = e.id ∧ result.ends) := by
  induction results generalizing e with
  | nil => simp
  | cons result rest ih =>
    rw [List.foldl_cons]
    obtain ⟨id, payload, processed⟩ := ih (if e.id == result.row.id then e.mark now result.verdict else e)
    refine ⟨id.trans ?_, payload.trans ?_, processed.trans ?_⟩
    · split
      · cases result.verdict <;> rfl
      · rfl
    · split
      · cases result.verdict <;> rfl
      · rfl
    · split
      next same =>
        have same : e.id = result.row.id := beq_iff_eq.mp same
        have kept : (e.mark now result.verdict).id = e.id := by cases result.verdict <;> rfl
        rw [mark_processed, kept]
        simp [same, Handled.ends, or_assoc]
      next differs =>
        have differs : result.row.id ≠ e.id := fun same => differs (beq_iff_eq.mpr same.symm)
        simp [differs]

/-! ### Steps -/

/-- Everything that a step can do. -/
inductive Effect (executor : ApprovalExecutor) (w : Worker) (s : Approvals Args) :
    ApprovalAction Args → Approvals Args → Prop
  | idle {action : ApprovalAction Args}
      (recorded : ∀ worker, action = .commit worker → ∀ d ∈ s.delivery? worker,
        d.alive = true → d.batch = [] → False) : Effect executor w s action s
  | items {action : ApprovalAction Args} (items : List (ApprovalItem Args))
      (other : ∀ worker, action ≠ .commit worker) (moved : Moved s.items items)
      (ids : UniqueOn (·.id) s.items → UniqueOn (·.id) items) :
      Effect executor w s action { s with items }
  | approved (item : ApprovalItem Args) (businessId principal event : UUID) (now : Timestamp)
      (member : item ∈ s.items) (chosen : toDecide item.id businessId now item = true)
      (fresh : ∀ e ∈ s.events, e.id ≠ event) :
      Effect executor w s (.approve item.id businessId now (some principal) event) { s with
        items := s.decided item.id businessId .approved now
        events := s.events ++ [⟨event, topicAgentApproved, ⟨item.id, item.agentRunId, principal,
          businessId, item.tool, item.args⟩, now, none, 0⟩] }
  | claimed (worker : UUID) (now : Timestamp) (passedOver : List UUID) :
      Effect executor w s (.claim worker now passedOver) { s with
        open_ := s.open_ ++ [⟨worker, now, true, s.claimBatch w worker now passedOver, .waiting, []⟩] }
  | read (worker : UUID) (answer : Answer) (d : Delivery Args)
      (e : ApprovalRow Args) (rest : List (ApprovalRow Args))
      (isOpen : d ∈ s.open_) (batch : d.batch = e :: rest) :
      Effect executor w s (.read worker answer) { s with
        open_ := s.replaced (d.proceed w.threshold e rest
          (executor.precheck e.payload (s.found e answer))) }
  | invoked (worker : UUID) (error : Option ToolError) (d : Delivery Args)
      (e : ApprovalRow Args) (rest : List (ApprovalRow Args))
      (isOpen : d ∈ s.open_) (batch : d.batch = e :: rest) :
      Effect executor w s (.invoke worker error) { s with
        open_ := s.replaced (d.proceed w.threshold e rest
          (afterInvoke (isFinalAttempt w.threshold e.attempts) error))
        calls := s.calls ++ [⟨e.payload.approvalId, e.payload.agentPrincipalId, e.payload.businessId,
          e.payload.tool, e.payload.args⟩] }
  | marked (worker : UUID) (answer : Answer) (d : Delivery Args)
      (e : ApprovalRow Args) (rest : List (ApprovalRow Args))
      (isOpen : d ∈ s.open_) (batch : d.batch = e :: rest) :
      Effect executor w s (.mark worker answer) { s with
        items := if answer.reached then s.marked e.payload d.stage else s.items
        open_ := s.replaced
          (d.proceed w.threshold e rest (afterMark d.stage answer)) }
  | committed (worker : UUID) (d : Delivery Args) (found : s.delivery? worker = some d)
      (alive : d.alive = true) (batch : d.batch = []) :
      Effect executor w s (.commit worker) { s with
        events := s.markedEvents d, open_ := s.closed worker }
  | lost (worker : UUID) (d : Delivery Args) (isOpen : d ∈ s.open_) :
      Effect executor w s (.lose worker) { s with open_ := s.replaced { d with alive := false } }
  | crashed (worker : UUID) : Effect executor w s (.crash worker) { s with open_ := s.closed worker }

/-- A step on the first event of a worker's batch. -/
theorem Effect.onEvent {worker : UUID} {act : Delivery Args → ApprovalRow Args →
    List (ApprovalRow Args) → Approvals Args} (other : ∀ worker, action ≠ .commit worker)
    (first : ∀ d e rest, d ∈ s.open_ → d.batch = e :: rest → Effect executor w s action (act d e rest)) :
    Effect executor w s action (s.onEvent worker act) := by
  have idle : Effect executor w s action s := .idle fun worker same => absurd same (other worker)
  unfold Approvals.onEvent
  split
  · exact idle
  next d found =>
  split
  · exact idle
  next e rest batch => exact first d e rest (List.mem_of_find?_eq_some found) batch

/-- Every action has one of these effects. -/
theorem next_effect (executor : ApprovalExecutor) (w : Worker) (s : Approvals Args)
    (action : ApprovalAction Args) : Effect executor w s action (next executor w s action) := by
  cases action with
  | propose id agentRunId businessId tool args now ttlSeconds =>
    simp only [next]
    split
    · exact .idle nofun
    next absent =>
    refine .items _ nofun (fun item member => ⟨item, List.mem_append_left _ member, .refl item⟩) ?_
    exact fun ids => ids.append_fresh (ne_of_not_any absent)
  | approve id businessId now actor event =>
    simp only [next]
    split
    · exact .idle nofun
    next ok =>
    obtain ⟨item, principal, rfl, rfl, member, chosen, fresh, rfl⟩ := approve_ok ok
    exact .approved item businessId principal event now member chosen fresh
  | deny id businessId now =>
    simp only [next, deny]
    split
    · exact .idle nofun
    next ok =>
    split at ok
    · cases ok
    · cases ok
      exact .items _ nofun (decided_moved id businessId now (.inr rfl)) fun ids =>
        ids.updateWhere fun _ _ => rfl
  | sweep now passedOver =>
    exact .items _ nofun (expireStaleApprovals_moved now passedOver) fun ids =>
      ids.updateWhere fun _ _ => rfl
  | claim worker now passedOver =>
    simp only [next]
    split
    · exact .idle nofun
    · exact .claimed worker now passedOver
  | read worker answer =>
    refine .onEvent nofun fun d e rest isOpen batch => ?_
    rw [readItem]
    split
    · exact .read worker answer d e rest isOpen batch
    · exact .idle nofun
  | invoke worker error =>
    refine .onEvent nofun fun d e rest isOpen batch => ?_
    rw [invokeTool]
    split
    · exact .invoked worker error d e rest isOpen batch
    · exact .idle nofun
  | mark worker answer =>
    refine .onEvent nofun fun d e rest isOpen batch => ?_
    rw [markItem]
    split
    · exact .idle nofun
    · exact .marked worker answer d e rest isOpen batch
  | commit worker =>
    simp only [next]
    split
    next none =>
      refine .idle fun worker' same d found => ?_
      cases same
      simp [none] at found
    next d found =>
    split
    next ready =>
      obtain ⟨alive, batch⟩ := Bool.and_eq_true_iff.mp ready
      exact .committed worker d found alive (List.isEmpty_iff.mp batch)
    next waiting =>
    refine .idle fun worker' same d' isFound alive batch => ?_
    cases same
    obtain rfl : d = d' := by simpa [found] using isFound
    simp [alive, batch] at waiting
  | lose worker =>
    simp only [next]
    split
    · exact .idle nofun
    next d found => exact .lost worker d (List.mem_of_find?_eq_some found)
  | crash worker => exact .crashed worker

section

variable (acts : Effect executor w s action s')

include acts

theorem Effect.moved : Moved s.items s'.items := by
  cases acts with
  | items items other moved => exact moved
  | approved item businessId principal event now =>
    exact decided_moved item.id businessId now (.inl rfl)
  | marked worker answer d e =>
    dsimp only
    split
    · exact marked_moved e.payload d.stage
    · exact .refl _
  | idle | claimed | read | invoked | committed | lost | crashed => exact .refl _

theorem Effect.ids (ids : UniqueOn (·.id) s.items) : UniqueOn (·.id) s'.items := by
  cases acts with
  | items items other moved kept => exact kept ids
  | approved => exact ids.updateWhere fun _ _ => rfl
  | marked worker answer d e =>
    dsimp only
    split
    · exact ids.updateWhere fun _ _ => by cases d.stage <;> rfl
    · exact ids
  | idle | claimed | read | invoked | committed | lost | crashed => exact ids

theorem Effect.enqueued {row : ApprovalRow Args}
    (enqueued : Enqueued s.events row) : Enqueued s'.events row := by
  obtain ⟨e, isEvent, id, payload⟩ := enqueued
  cases acts with
  | approved => exact ⟨e, List.mem_append_left _ isEvent, id, payload⟩
  | committed worker d =>
    obtain ⟨sameId, samePayload, -⟩ := foldl_mark d.now d.results e
    rw [Enqueued, markedEvents_eq]
    exact ⟨_, List.mem_map_of_mem isEvent, sameId.trans id, samePayload.trans payload⟩
  | idle | items | claimed | read | invoked | marked | lost | crashed =>
    exact ⟨e, isEvent, id, payload⟩

theorem Inv.effect (inv : s.Inv) : s'.Inv := by
  have still (d : Delivery Args) (isOpen : d ∈ s.open_) : d.Valid s'.items s'.events :=
    (inv.open_ d isOpen).mono acts.moved fun _ => acts.enqueued
  have backed (e : ApprovalRow Args) (member : e ∈ s.events) :
      ∃ item ∈ s'.items, Backs e.payload item := acts.moved.backs (inv.events e member)
  have first {d : Delivery Args} (isOpen : d ∈ s.open_) {e : ApprovalRow Args}
      {rest : List (ApprovalRow Args)} (batch : d.batch = e :: rest) :
      Enqueued s.events e := (inv.open_ d isOpen).batch e (batch ▸ List.mem_cons_self)
  have ids := acts.ids inv.ids
  have advanced {d : Delivery Args} (valid : d.Valid s'.items s'.events) (other : Delivery Args)
      (isOpen : other ∈ s.replaced d) : other.Valid s'.items s'.events :=
    Locks.forall_advanced (fun other isOther _ => still other isOther) valid other isOpen
  cases acts with
  | idle => exact inv
  | items => exact ⟨ids, inv.eventIds, backed, still⟩
  | approved item businessId principal event now member chosen fresh =>
    refine ⟨ids, inv.eventIds.append_fresh fresh, forall_inserted backed ?_, still⟩
    refine ⟨_, List.mem_map_of_mem member, ?_⟩
    rw [if_pos chosen]
    simp only [toDecide, Bool.and_eq_true, beq_iff_eq, decide_eq_true_eq] at chosen
    exact ⟨rfl, chosen.1.1.2, rfl, rfl, .inl rfl, now, rfl, chosen.2⟩
  | claimed =>
    refine ⟨ids, inv.eventIds, backed, forall_inserted still ⟨fun row member => ?_, nofun, nofun⟩⟩
    exact ⟨row, (mem_selectForUpdate member).1, rfl, rfl⟩
  | read worker answer d e rest isOpen batch =>
    refine ⟨ids, inv.eventIds, backed, advanced ?_⟩
    exact (still d isOpen).proceed batch (precheck_honest inv (first isOpen batch) answer _)
  | invoked worker error d e rest isOpen batch =>
    refine ⟨ids, inv.eventIds, backed, advanced ?_⟩
    exact (still d isOpen).proceed batch (afterInvoke_honest _ _ e error)
  | marked worker answer d e rest isOpen batch =>
    refine ⟨ids, inv.eventIds, backed, advanced ?_⟩
    exact (still d isOpen).proceed batch (afterMark_honest inv (first isOpen batch) d.stage answer _)
  | committed worker d =>
    refine ⟨ids, ?_, fun e' member => ?_, fun other isOpen => still other (List.mem_filter.mp isOpen).1⟩
    · have same : (s.events.map (markedEvent d)).map (·.id) = s.events.map (·.id) := by
        rw [List.map_map]
        exact List.map_congr_left fun e _ => (foldl_mark d.now d.results e).1
      rw [markedEvents_eq, UniqueOn, same]
      exact inv.eventIds
    · simp only [markedEvents_eq] at member
      obtain ⟨e, isEvent, rfl⟩ := List.mem_map.mp member
      have payload : (markedEvent d e).payload = e.payload := (foldl_mark d.now d.results e).2.1
      exact payload ▸ backed e isEvent
  | lost worker d isOpen =>
    have valid := still d isOpen
    exact ⟨ids, inv.eventIds, backed, advanced ⟨valid.batch, valid.results, valid.recorded⟩⟩
  | crashed worker =>
    exact ⟨ids, inv.eventIds, backed, fun other isOpen => still other (List.mem_filter.mp isOpen).1⟩

theorem Effect.mem_calls {call : ToolCall Args} (member : call ∈ s'.calls) :
    call ∈ s.calls ∨ ∃ d ∈ s.open_, ∃ e ∈ d.batch, call.approvalId = e.payload.approvalId ∧
      call.tool = e.payload.tool ∧ call.args = e.payload.args := by
  cases acts with
  | invoked worker error d e rest isOpen batch =>
    rcases mem_inserted.mp member with old | rfl
    · exact .inl old
    · exact .inr ⟨d, isOpen, e, batch ▸ List.mem_cons_self, rfl, rfl, rfl⟩
  | idle | items | approved | claimed | read | marked | committed | lost | crashed =>
    exact .inl member

end

structure Sound (executor : ApprovalExecutor) (w : Worker) (s : Approvals Args)
    (action : ApprovalAction Args) : Prop where
  calls : ∀ call ∈ (next executor w s action).calls, call ∈ s.calls ∨ ∃ item ∈ s.items,
    item.id = call.approvalId ∧ item.tool = call.tool ∧ item.args = call.args ∧ item.ApprovedInTime
  moved : Moved s.items (next executor w s action).items
  terminal : ∀ item ∈ s.items, item.state.terminal = true →
    ∃ item' ∈ (next executor w s action).items, item'.id = item.id ∧ item'.state = item.state
  ids : UniqueOn (·.id) (next executor w s action).items

/-- A step calls only what was approved in time, and final items stay as they are. -/
theorem Inv.sound (inv : s.Inv) (action : ApprovalAction Args) : Sound executor w s action where
  calls call member := by
    rcases (next_effect executor w s action).mem_calls member with
      old | ⟨d, isOpen, e, isEvent, id, tool, args⟩
    · exact .inl old
    · obtain ⟨item, isItem, backs⟩ := inv.backed ((inv.open_ d isOpen).batch e isEvent)
      exact .inr ⟨item, isItem, backs.id.trans id.symm, backs.tool.trans tool.symm,
        backs.args.trans args.symm, backs.inTime⟩
  moved := (next_effect executor w s action).moved
  terminal item member terminal := by
    obtain ⟨item', member', moves⟩ := (next_effect executor w s action).moved item member
    exact ⟨item', member', moves.id, moves.terminal terminal⟩
  ids := (next_effect executor w s action).ids inv.ids

/-! ### Processed events -/

def Ended (s : Approvals Args) : Prop :=
  ∀ e ∈ s.events, e.processedAt.isSome = true → Finished s.items e.payload
  deriving Decidable

/-- For each event that a commit marks as processed, the executor's last statement in that delivery
has reached the item, or the item was finished by another delivery. -/
def Recorded (s : Approvals Args) : ApprovalAction Args → Prop
  | .commit worker => ∀ d ∈ s.delivery? worker, d.alive = true → d.batch = [] →
      ∀ result ∈ d.results, result.ends →
        result.recorded = true ∨ Finished s.items result.row.payload
  | _ => True

theorem Inv.committed_iff (inv : s.Inv) (ended : s.Ended) {worker : UUID} {d : Delivery Args}
    (found : s.delivery? worker = some d) :
    Ended { s with events := s.markedEvents d, open_ := s.closed worker } ↔
      ∀ result ∈ d.results, result.ends →
        result.recorded = true ∨ Finished s.items result.row.payload := by
  have valid := inv.open_ d (List.mem_of_find?_eq_some found)
  constructor
  · intro after result isResult ends
    -- The event of the result is in the outbox, so it is marked.
    obtain ⟨e, isEvent, id, payload⟩ := valid.results result isResult
    obtain ⟨-, samePayload, processed⟩ := foldl_mark d.now d.results e
    have isMarked : markedEvent d e ∈ s.markedEvents d := by
      rw [markedEvents_eq]
      exact List.mem_map_of_mem isEvent
    have finished := after _ isMarked (processed.mpr (.inr ⟨result, isResult, id.symm, ends⟩))
    have isPayload : (markedEvent d e).payload = result.row.payload := samePayload.trans payload
    exact .inr (isPayload ▸ finished)
  · intro recorded e' member isProcessed
    simp only [markedEvents_eq] at member
    obtain ⟨e, isEvent, rfl⟩ := List.mem_map.mp member
    obtain ⟨-, samePayload, processed⟩ := foldl_mark d.now d.results e
    have isPayload : (markedEvent d e).payload = e.payload := samePayload
    rw [isPayload]
    rcases processed.mp isProcessed with before | ⟨result, isResult, id, ends⟩
    · exact ended e isEvent before
    · obtain ⟨e', isEvent', id', payload⟩ := valid.results result isResult
      obtain rfl := inv.eventIds.eq_of_key isEvent isEvent' (id.symm.trans id'.symm)
      rw [payload]
      rcases recorded result isResult ends with isRecorded | finished
      · exact valid.recorded result isResult isRecorded ends
      · exact finished

theorem Ended.kept (ended : s.Ended) (moved : Moved s.items s'.items)
    (same : ∀ e ∈ s'.events, e ∈ s.events ∨ e.processedAt = none) : s'.Ended := by
  intro e member processed
  rcases same e member with old | unprocessed
  · exact moved.finished (ended e old processed)
  · simp [unprocessed] at processed

/-- Processed items stay finished exactly when the results are recorded. -/
theorem Inv.ended_iff (inv : s.Inv) (ended : s.Ended) (action : ApprovalAction Args) :
    (Approvals.next executor w s action).Ended ↔ s.Recorded action := by
  have effect := next_effect executor w s action
  have moved := effect.moved
  generalize Approvals.next executor w s action = s' at effect moved
  cases effect with
  | committed worker d found alive batch =>
    refine (inv.committed_iff ended found).trans ⟨fun recorded d' isFound _ _ => ?_, fun recorded => ?_⟩
    · obtain rfl : d = d' := by simpa [found] using isFound
      exact recorded
    · exact recorded d found alive batch
  | idle recorded =>
    refine iff_of_true ended ?_
    cases action with
    | commit worker =>
      exact fun d found alive batch => (recorded worker rfl d found alive batch).elim
    | _ => trivial
  | items items other =>
    refine iff_of_true (ended.kept moved fun e member => .inl member) ?_
    cases action with
    | commit worker => exact absurd rfl (other worker)
    | _ => trivial
  | approved =>
    exact iff_of_true (ended.kept moved (forall_inserted (fun e member => .inl member) (.inr rfl)))
      trivial
  | claimed | read | invoked | marked | lost | crashed =>
    exact iff_of_true (ended.kept moved fun e member => .inl member) trivial

end Approvals

open Approvals

/-- A tool runs only for an item that was approved before its expiry, with the tool and the
arguments stored on it, and an item takes one terminal state for good. The event of an approval is
processed only after the item is executed or failed exactly in those runs in which each delivery
that ends the event reaches the item with its last statement, unless another delivery has finished
the item. -/
theorem approvals_iff (executor : ApprovalExecutor) (w : Worker)
    (actions : List (ApprovalAction Args)) :
    Along (next executor w) (Sound executor w) ⟨[], [], [], []⟩ actions ∧
      (Along (next executor w)
        (fun s action => (next executor w s action).Ended)
          ⟨[], [], [], []⟩ actions ↔
        Along (next executor w) Recorded ⟨[], [], [], []⟩ actions) := by
  have kept (s : Approvals Args) (action : ApprovalAction Args) (inv : s.Inv) :
      (next executor w s action).Inv :=
        inv.effect (next_effect executor w s action)
  refine ⟨Along.of_kept kept (fun s action inv => inv.sound action) .empty actions, ?_⟩
  exact Along.iff_of_step Ended
    (fun s action inv ended => inv.ended_iff ended action) kept
    .empty nofun

namespace Sample

/-- One tool is registered and there is no MCP host. -/
def tools : ApprovalExecutor := ⟨false, (· == "draft_reply")⟩

/-- A worker that gives up after the second failed delivery. -/
def outboxWorker : Worker := ⟨50, 2⟩

/-- An approved reply. The first delivery crashes after the tool has run, the second one fails and
is rescheduled; `last` is the executor's work in the third one, which is the final attempt. -/
def redelivered (last : List (ApprovalAction String)) : List (ApprovalAction String) :=
  [.propose 1 7 9 "draft_reply" "body" 0 60, .approve 1 9 10 (some 4) 100,
    .claim 0 20 [], .read 0 ⟨true, false⟩, .invoke 0 none, .crash 0,
    .claim 0 30 [], .read 0 ⟨true, false⟩, .invoke 0 (some .internal), .commit 0,
    .claim 0 3000000 []] ++ last ++ [.commit 0]

/-- The item of a processed event stays approved: the tool fails on the final attempt and so does
`MarkFailed`; the tool succeeds and `MarkExecuted` fails; or the item cannot be read. -/
theorem left_approved :
    (∀ last ∈ [[.read 0 ⟨true, false⟩, .invoke 0 (some .internal), .mark 0 ⟨false, true⟩],
        [.read 0 ⟨true, false⟩, .invoke 0 none, .mark 0 ⟨false, true⟩], [.read 0 ⟨false, true⟩]],
      ¬ Along (next tools outboxWorker)
        (fun s action => (next tools outboxWorker s action).Ended) ⟨[], [], [], []⟩
        (redelivered last)) ∧
    Along (next tools outboxWorker)
      (fun s action => (next tools outboxWorker s action).Ended) ⟨[], [], [], []⟩
      (redelivered [.read 0 ⟨true, false⟩, .invoke 0 (some .internal), .mark 0 ⟨true, false⟩]) := by
  decide +kernel

end Sample

end Manyforge.Agents
