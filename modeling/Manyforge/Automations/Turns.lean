import Manyforge.Automations.History
import Manyforge.Automations.Walk

/-!
# The loop as a walk

The rows of an enrollment show a walk on its graph: its steps in the order they
were entered, and its current node. `turn_spec` says what one iteration of
`Advance` does to it, for any answers of the ports.
-/
namespace Manyforge

open Table Validate

/-! ### The loop, one node at a time -/

/-- How one iteration of the loop ends. -/
inductive Engine.Turn (σ : Type) where
  | stop (result : Engine.Result σ)
  | goOn (next : String) (s : σ)

/-- The loop changes only the attempts of the enrollment it was called with. -/
def Enrollment.SameClaim (claimed enrollment : Enrollment) : Prop :=
  enrollment.id = claimed.id ∧ enrollment.claimGeneration = claimed.claimGeneration

namespace Engine

variable {σ : Type} (engine : Engine σ) (steps : StepStore σ) (graph : Graph) (now : Timestamp)

/-- The body of the loop of `Advance`. -/
def turn (processed : Nat) (enrollment : Enrollment) (current : String) (s : σ) : Turn σ :=
  match graph.node? current with
  | none => .stop (engine.fail steps enrollment processed (.graphNodeMissing current) now s)
  | some node =>
    match engine.perform steps graph enrollment node now s with
    | .fail s cause => .stop (engine.fail steps enrollment (processed + 1) cause now s)
    | .abort s error => .stop ⟨s, runningOutcome (processed + 1), some error⟩
    | .recordAndStop s record parks => .stop (recordAndStop steps record parks (processed + 1) s)
    | .record s record next =>
      match steps.record record s with
      | (.error error, s) => .stop ⟨s, runningOutcome (processed + 1), some (.dependency error)⟩
      | (.ok false, s) =>
        .stop ⟨s, { runningOutcome (processed + 1) with leaseLost := true }, some .lostFence⟩
      | (.ok true, s) =>
        if record.status ≠ .active then
          .stop ⟨s, { runningOutcome (processed + 1) with status := record.status }, none⟩
        else .goOn next s

theorem advanceLoop_succ (budget processed : Nat) (enrollment : Enrollment) (current : String)
    (s : σ) :
    engine.advanceLoop steps graph now (budget + 1) processed enrollment current s =
      match engine.turn steps graph now processed enrollment current s with
      | .stop result => result
      | .goOn next s => engine.advanceLoop steps graph now budget (processed + 1)
          { enrollment with nodeAttempts := 0 } next s := by
  unfold turn
  conv_lhs => unfold advanceLoop
  cases graph.node? current with
  | none => rfl
  | some node =>
    simp only []
    cases engine.perform steps graph enrollment node now s with
    | fail t cause => rfl
    | abort t error => rfl
    | recordAndStop t record parks => rfl
    | record t record next =>
      simp only []
      rcases steps.record record t with ⟨result, u⟩
      cases result with
      | error error => rfl
      | ok changed =>
        cases changed with
        | false => rfl
        | true =>
          simp only []
          split <;> rfl

def executions : (budget processed : Nat) → Enrollment → (current : String) → σ → List (String × σ)
  | 0, _, _, _, _ => []
  | budget + 1, processed, enrollment, current, s =>
    if (graph.node? current).isNone then []
    else
      (current, s) :: match engine.turn steps graph now processed enrollment current s with
        | .stop _ => []
        | .goOn next s =>
          executions budget (processed + 1) { enrollment with nodeAttempts := 0 } next s

variable {engine steps graph now}

/-- What holds of every node and state the loop comes to, when one iteration hands it on. -/
theorem executions_stand {stands : String → σ → Prop} {claimed : Enrollment}
    (handed : ∀ processed enrollment current s next t, claimed.SameClaim enrollment →
      stands current s →
      engine.turn steps graph now processed enrollment current s = .goOn next t → stands next t)
    (budget processed : Nat) (enrollment : Enrollment)
    (same : claimed.SameClaim enrollment) (current : String) (s : σ) (start : stands current s) :
    ∀ visit ∈ engine.executions steps graph now budget processed enrollment current s,
      stands visit.1 visit.2 := by
  induction budget generalizing processed enrollment current s with
  | zero => simp [executions]
  | succ budget ih =>
    unfold executions
    split
    · simp
    · intro visit member
      rcases List.mem_cons.mp member with rfl | member
      · exact start
      · cases taken : engine.turn steps graph now processed enrollment current s with
        | stop result => simp [taken] at member
        | goOn next t =>
          rw [taken] at member
          exact ih (processed + 1) { enrollment with nodeAttempts := 0 } same next t
            (handed _ _ _ _ _ _ same start taken) visit member

/-- The rule for the loop: `stands` holds wherever it comes to, `post` wherever it ends. -/
theorem advanceLoop_rule (stands : String → σ → Prop) {post : Result σ → Prop}
    (claimed : Enrollment)
    (quota : ∀ processed current s, stands current s → post ⟨s, runningOutcome processed, none⟩)
    (stopped : ∀ processed enrollment current s result, claimed.SameClaim enrollment →
      stands current s →
      engine.turn steps graph now processed enrollment current s = .stop result → post result)
    (handed : ∀ processed enrollment current s next t, claimed.SameClaim enrollment →
      stands current s →
      engine.turn steps graph now processed enrollment current s = .goOn next t → stands next t)
    (budget processed : Nat) (enrollment : Enrollment)
    (same : claimed.SameClaim enrollment) (current : String) (s : σ) (start : stands current s) :
    post (engine.advanceLoop steps graph now budget processed enrollment current s) := by
  induction budget generalizing processed enrollment current s with
  | zero => exact quota _ _ _ start
  | succ budget ih =>
    rw [advanceLoop_succ]
    cases taken : engine.turn steps graph now processed enrollment current s with
    | stop result => exact stopped _ _ _ _ _ same start taken
    | goOn next t =>
      exact ih (processed + 1) { enrollment with nodeAttempts := 0 } same next t
        (handed _ _ _ _ _ _ same start taken)

end Engine

/-! ### The walk an enrollment's rows show -/

/-- The steps of an enrollment in the order they were entered, and whether each is completed. -/
def journal (id : UUID) (steps : List EnrollmentStep) : List (String × Bool) :=
  (steps.filter fun s => s.enrollmentId == id).map fun s => (s.nodeId, s.completedAt.isSome)

/-- The enrollment is active at a node, or it has ended. -/
def AutomationEnrollment.At (e : AutomationEnrollment) : Option String → Prop
  | some node => e.status = .active ∧ e.currentNodeId = some node
  | none => e.status ≠ .active

structure Database.Shows (db : Database) (id : UUID) (w : Walk) : Prop where
  row : ∃ e, db.enrollments.filter (fun e => e.id == id) = [e] ∧ e.At w.current
  steps : journal id db.steps = w.done.map (·, true) ++ w.waiting.toList.map (·, false)
  waits : ∀ s ∈ db.steps, s.enrollmentId = id → s.completedAt = none → s.outcome = .waiting

variable {id : UUID}

theorem Database.Shows.at_row {db : Database} {w : Walk} (shown : db.Shows id w)
    {e : AutomationEnrollment} (member : e ∈ db.enrollments) (named : e.id = id) :
    e.At w.current := by
  obtain ⟨row, only, here⟩ := shown.row
  have found : e ∈ db.enrollments.filter (fun e => e.id == id) :=
    List.mem_filter.mpr ⟨member, by simp [named]⟩
  rw [only, List.mem_singleton] at found
  exact found ▸ here

variable {steps : List EnrollmentStep} {new : EnrollmentStep}

theorem mem_journal {node : String} {completed : Bool} :
    (node, completed) ∈ journal id steps ↔
      ∃ s ∈ steps, s.key = (id, node) ∧ s.completedAt.isSome = completed := by
  simp only [journal, List.mem_map, List.mem_filter, beq_iff_eq, Prod.mk.injEq, EnrollmentStep.key]
  constructor
  · rintro ⟨s, ⟨member, owner⟩, node, completed⟩
    exact ⟨s, member, ⟨owner, node⟩, completed⟩
  · rintro ⟨s, member, ⟨owner, node⟩, completed⟩
    exact ⟨s, ⟨member, owner⟩, node, completed⟩

theorem journal_append (steps : List EnrollmentStep) (owner : new.enrollmentId = id) :
    journal id (steps ++ [new]) = journal id steps ++ [(new.nodeId, new.completedAt.isSome)] := by
  simp [journal, owner]

theorem journal_merge (steps : List EnrollmentStep) (owner : new.enrollmentId = id) :
    journal id (updateWhere (fun s => s.key == new.key) (Database.mergeStep new) steps) =
      (journal id steps).map fun entry =>
        if entry.1 = new.nodeId then (entry.1, entry.2 || new.completedAt.isSome) else entry := by
  simp only [journal]
  rw [filter_updateWhere _ (by intro _ _; rfl)]
  simp only [updateWhere, List.map_map]
  refine List.map_congr_left fun s member => ?_
  have mine : s.enrollmentId = id := by simpa using (List.mem_filter.mp member).2
  by_cases same : s.nodeId = new.nodeId
  · simp [EnrollmentStep.key, mine, owner, same, Database.mergeStep]
  · simp [EnrollmentStep.key, same]

/-- Entering or leaving the current node writes its entry after those of the completed nodes. -/
theorem journal_upsertStep {done : List String}
    {waiting : Option String} (owner : new.enrollmentId = id)
    (shown : journal id steps = done.map (·, true) ++ waiting.toList.map (·, false))
    (fresh : new.nodeId ∉ done) (here : ∀ node ∈ waiting, node = new.nodeId) :
    journal id (Database.upsertStep new steps) =
      done.map (·, true) ++ [(new.nodeId, new.completedAt.isSome)] := by
  have present : (steps.any fun s => s.key == new.key) = waiting.isSome := by
    rw [Bool.eq_iff_iff, List.any_eq_true]
    constructor
    · rintro ⟨s, member, same⟩
      have entry : (new.nodeId, s.completedAt.isSome) ∈ journal id steps :=
        mem_journal.mpr ⟨s, member, by rw [eq_of_beq same, EnrollmentStep.key, owner], rfl⟩
      rw [shown] at entry
      cases waiting with
      | none => simp [fresh] at entry
      | some node => rfl
    · intro some_waiting
      obtain ⟨node, rfl⟩ := Option.isSome_iff_exists.mp some_waiting
      have entry : (node, false) ∈ journal id steps := by rw [shown]; simp
      obtain ⟨s, member, key, -⟩ := mem_journal.mp entry
      refine ⟨s, member, ?_⟩
      rw [key, here node rfl, EnrollmentStep.key, owner]
      simp
  unfold Database.upsertStep
  rw [present]
  cases waiting with
  | none => simp [journal_append _ owner, shown]
  | some node =>
    have same := here node rfl
    have unchanged : ∀ old ∈ done, old ≠ new.nodeId := fun old member equal => fresh (equal ▸ member)
    simp only [Option.isSome_some, if_true]
    rw [journal_merge _ owner, shown, List.map_append, List.map_map]
    congr 1
    · refine List.map_congr_left fun old member => ?_
      simp [unchanged old member]
    · simp [same]

theorem upsertStep_waits
    (waits : ∀ s ∈ steps, s.enrollmentId = id → s.completedAt = none → s.outcome = .waiting)
    (waiting : new.completedAt = none → new.outcome = .waiting) :
    ∀ s ∈ Database.upsertStep new steps,
      s.enrollmentId = id → s.completedAt = none → s.outcome = .waiting := by
  intro s member owner pending
  unfold Database.upsertStep at member
  split at member
  · obtain ⟨old, old_mem, ⟨-, rfl⟩ | ⟨-, rfl⟩⟩ := updated_or_kept member
    · simp only [Database.mergeStep, Option.or_eq_none_iff] at pending ⊢
      exact waiting pending.2
    · exact waits old old_mem owner pending
  · rcases mem_inserted.mp member with old | rfl
    · exact waits s old owner pending
    · exact waiting pending

namespace Database

variable {db : Database} {id : UUID} {w : Walk}

theorem find?_of_filter {e : AutomationEnrollment}
    (only : db.enrollments.filter (fun e => e.id == id) = [e]) :
    (db.enrollments.find? fun e => e.id == id) = some e ∧ e.id = id ∧ e ∈ db.enrollments := by
  have member : e ∈ db.enrollments.filter (fun e => e.id == id) := by rw [only]; simp
  refine ⟨?_, by simpa using (List.mem_filter.mp member).2, (List.mem_filter.mp member).1⟩
  rw [← List.head?_filter, only, List.head?_cons]

theorem filter_update {e : AutomationEnrollment}
    (only : db.enrollments.filter (fun e => e.id == id) = [e])
    (chosen : AutomationEnrollment → Bool) (change : AutomationEnrollment → AutomationEnrollment)
    (kept : ∀ e, (change e).id = e.id) :
    (updateWhere chosen change db.enrollments).filter (fun e => e.id == id) =
      [if chosen e then change e else e] := by
  rw [filter_updateWhere _ (fun e _ => by rw [kept e]), only]
  rfl

variable (shows : db.Shows id w)

include shows

theorem Shows.completed (node : String) : db.stepCompleted id node = true ↔ node ∈ w.done := by
  have entry : db.stepCompleted id node = true ↔ (node, true) ∈ journal id db.steps := by
    rw [mem_journal, stepCompleted, List.any_eq_true]
    simp only [Bool.and_eq_true, beq_iff_eq]
  rw [entry, shows.steps]
  simp

theorem Shows.waiting (node : String) :
    db.automationStepWaiting id node = true ↔ node ∈ w.waiting := by
  have entry : db.automationStepWaiting id node = true ↔ (node, false) ∈ journal id db.steps := by
    rw [mem_journal, automationStepWaiting, List.any_eq_true]
    simp only [Bool.and_eq_true, beq_iff_eq, Option.isNone_iff_eq_none, Option.isSome_eq_false_iff]
    constructor
    · rintro ⟨s, member, ⟨key, -⟩, pending⟩
      exact ⟨s, member, key, pending⟩
    · rintro ⟨s, member, key, pending⟩
      exact ⟨s, member, ⟨key, shows.waits s member (congrArg Prod.fst key) pending⟩, pending⟩
  rw [entry, shows.steps]
  simp

theorem automationRecordStep_shows {db' : Database} {r : StepRecord} (named : r.enrollmentId = id)
    (current : w.current = some r.nodeId) (fresh : r.nodeId ∉ w.done)
    (here : ∀ node ∈ w.waiting, node = r.nodeId)
    (entered : r.outcome ≠ .entered) (ran : db.automationRecordStep r = .ok (db', true)) :
    db'.Shows id
      { done := if r.outcome = .waiting then w.done else w.done ++ [r.nodeId]
        waiting := if r.outcome = .waiting then some r.nodeId else none
        current := if r.status = .active then r.nextNodeId.or (some r.nodeId) else none } := by
  obtain ⟨e, only, here_row⟩ := shows.row
  obtain ⟨found, e_id, -⟩ := find?_of_filter only
  rw [current] at here_row
  obtain ⟨impossible, -⟩ | ⟨-, -, e', found', completed | ⟨-, rfl⟩⟩ :=
    automationRecordStep_cases ran
  · cases impossible
  · rw [named, found] at found'
    cases found'
    rw [e_id] at completed
    exact absurd ((shows.completed r.nodeId).mp completed.1) fresh
  · rw [named, found] at found'
    cases found'
    constructor
    · refine ⟨applyRecord r e, ?_, ?_⟩
      · refine (filter_update only (fun x => x.id == e.id) (applyRecord r) fun _ => rfl).trans ?_
        simp
      · by_cases active : r.status = .active
        · simp only [active, if_true]
          cases next : r.nextNodeId with
          | none => exact ⟨active, by simp [applyRecord, active, next, here_row.2]⟩
          | some target => exact ⟨active, by simp [applyRecord, active, next]⟩
        · simp only [active, if_false]
          exact active
    · refine (journal_upsertStep e_id shows.steps fresh here).trans ?_
      by_cases waits : r.outcome = .waiting
      · simp [waits, newStep]
      · simp [waits, entered, newStep]
    · refine upsertStep_waits shows.waits fun pending => ?_
      simp only [newStep] at pending ⊢
      by_contra other
      simp [entered, other] at pending

/-- The enrollment still shows the walk, or shows that it has ended. -/
def StillShows (db : Database) (id : UUID) (w : Walk) : Prop :=
  db.Shows id w ∨ db.Shows id { w with current := none }

theorem Shows.update {db' : Database} {chosen : AutomationEnrollment → Bool}
    {change : AutomationEnrollment → AutomationEnrollment} (steps : db'.steps = db.steps)
    (enrollments : db'.enrollments = updateWhere chosen change db.enrollments)
    (kept : ∀ e, (change e).id = e.id)
    (moved : ∀ e, e.At w.current → (change e).At w.current ∨ (change e).status ≠ .active) :
    db'.StillShows id w := by
  obtain ⟨e, only, here⟩ := shows.row
  have only' := filter_update only chosen change kept
  rw [← enrollments] at only'
  have shown : journal id db'.steps = w.done.map (·, true) ++ w.waiting.toList.map (·, false) := by
    rw [steps]; exact shows.steps
  have waits : ∀ s ∈ db'.steps, s.enrollmentId = id → s.completedAt = none →
      s.outcome = .waiting := by
    rw [steps]; exact shows.waits
  by_cases hit : chosen e = true
  · rw [if_pos hit] at only'
    rcases moved e here with stays | ended
    · exact .inl ⟨⟨_, only', stays⟩, shown, waits⟩
    · exact .inr ⟨⟨_, only', ended⟩, shown, waits⟩
  · rw [if_neg hit] at only'
    exact .inl ⟨⟨_, only', here⟩, shown, waits⟩

theorem automationFailStep_shows (now : Timestamp) (f : StepFailure) :
    (db.automationFailStep now f).1.StillShows id w := by
  refine shows.update rfl rfl (fun _ => rfl) fun e here => ?_
  by_cases terminal : f.terminal = true
  · right
    simp [terminal]
  · left
    cases current : w.current with
    | none | some node => rw [current] at here; simpa [terminal, AutomationEnrollment.At] using here

/-- Neither the rows of the enrollments nor their steps change. -/
def SameProgress (db db' : Database) : Prop :=
  db'.steps = db.steps ∧ db'.enrollments = db.enrollments

theorem Shows.of_same {db' : Database} (same : db.SameProgress db') : db'.Shows id w := by
  obtain ⟨steps, enrollments⟩ := same
  exact ⟨by rw [enrollments]; exact shows.row, by rw [steps]; exact shows.steps,
    by rw [steps]; exact shows.waits⟩

end Database

/-! ### One iteration, as a move of the walk -/

/-- The parts of a record that the fence and the `CHECK` constraints read. -/
structure Recordable (enrollment : Enrollment) (r : StepRecord) : Prop where
  enrollmentId : r.enrollmentId = enrollment.id
  generation : r.claimGeneration = enrollment.claimGeneration
  nodeId : graphIDPattern r.nodeId = true
  kind : r.nodeKind.known = true
  next : ∀ id ∈ r.nextNodeId, graphIDPattern id = true

section Turn

variable {rt : Runtime} {refs : References} {graph : Graph} {start : String} {id : UUID} {w : Walk}
  {engine : Engine Tx} {env : SqlEnv} {good : Tx → Prop} {allowed : EngineError → Prop}

/-- What one iteration does to the walk `w`: the states in which it calls the store satisfy
`good`, and it fails or aborts only with an allowed error. -/
inductive TurnSpec (engine : Engine Tx) (env : SqlEnv) (graph : Graph) (now : Timestamp)
    (enrollment : Enrollment) (id : UUID) (w : Walk) (good : Tx → Prop)
    (allowed : EngineError → Prop) : Engine.Turn Tx → Prop
  | failed (processed : Nat) (tx : Tx) (cause : EngineError) (shown : tx.db.Shows id w)
      (cause_allowed : allowed cause) :
      TurnSpec engine env graph now enrollment id w good allowed
        (.stop (engine.fail (sqlStepStore env) enrollment processed cause now tx))
  | aborted (processed : Nat) (tx : Tx) (error : EngineError) (error_allowed : allowed error) :
      TurnSpec engine env graph now enrollment id w good allowed
        (.stop ⟨tx, Engine.runningOutcome processed, some error⟩)
  | refused (tx : Tx) (r : StepRecord) (result : Engine.Result Tx) (shown : tx.db.Shows id w)
      (called : good tx) (recordable : Recordable enrollment r) (current : w.current = some r.nodeId)
      (refused : ((sqlStepStore env).record r tx).1 ≠ .ok true)
      (error : ∃ error ∈ result.error, error.fromGraph = false)
      (clean : result.outcome.lastError = none) :
      TurnSpec engine env graph now enrollment id w good allowed (.stop result)
  | recorded (tx : Tx) (r : StepRecord) (result : Engine.Result Tx) (w' : Walk) (called : good tx)
      (recorded : (sqlStepStore env).record r tx = (.ok true, result.state))
      (progress : Walk.Progresses graph w w') (shown : result.state.db.Shows id w')
      (error : result.error = none) (clean : result.outcome.lastError = none) :
      TurnSpec engine env graph now enrollment id w good allowed (.stop result)
  | handed (tx tx' : Tx) (r : StepRecord) (next : String) (w' : Walk) (called : good tx)
      (recordable : Recordable enrollment r) (active : r.status = .active)
      (recorded : (sqlStepStore env).record r tx = (.ok true, tx'))
      (progress : Walk.Progresses graph w w') (shown : tx'.db.Shows id w')
      (current : w'.current = some next) :
      TurnSpec engine env graph now enrollment id w good allowed (.goOn next tx')

theorem Tx.query_ok {α : Type} {statement : Database → Except SqlError (Database × α)} {tx tx' : Tx}
    {value : α} (ran : Tx.query statement tx = (.ok value, tx')) :
    statement tx.db = .ok (tx'.db, value) ∧ tx'.aborted = tx.aborted := by
  unfold Tx.query at ran
  split at ran
  · cases ran
  · split at ran
    · cases ran
    next db answer same => cases ran; exact ⟨same, rfl⟩

theorem sqlStepStore_record_ok {r : StepRecord} {tx tx' : Tx} {changed : Bool}
    (ran : (sqlStepStore env).record r tx = (.ok changed, tx')) :
    tx.db.automationRecordStep r = .ok (tx'.db, changed) ∧ tx'.aborted = tx.aborted :=
  Tx.query_ok (show Tx.query (fun db => db.automationRecordStep r) tx = _ from ran)

theorem sqlStepStore_waiting_ok {enrollment : UUID} {node : String} {tx : Tx} {answer : Bool}
    (ran : ((sqlStepStore env).waiting enrollment node tx).1 = .ok answer) :
    tx.db.automationStepWaiting enrollment node = answer := by
  simp only [sqlStepStore, Tx.select, Tx.query] at ran
  split at ran
  · cases ran
  · exact Except.ok.inj ran

theorem recordable_of_sound {now : Timestamp} (valid : ValidGraph rt refs graph) {node : Node}
    (member : node ∈ graph.nodes) {enrollment : Enrollment} {r : StepRecord}
    (identifies : Engine.Identifies enrollment node now r)
    (next : ∀ target ∈ r.nextNodeId, graph.Adjacent node.id target) : Recordable enrollment r := by
  obtain ⟨enrollmentId, generation, nodeId, kind, -⟩ := identifies
  obtain ⟨pattern, config⟩ := valid.nodes node member
  refine ⟨enrollmentId, generation, by rw [nodeId]; exact pattern, ?_, fun target found => ?_⟩
  · rw [kind]
    unfold validateConfig at config
    cases kind : node.kind with
    | unknown name => rw [kind] at config; cases config
    | _ => rfl
  · obtain ⟨node', member', same⟩ := hasNode_iff.mp (valid.adjacent_known (next target found)).2
    rw [← same]
    exact (valid.nodes node' member').1

/-- One iteration, at a node of any kind of a valid graph. -/
theorem turn_spec (valid : ValidGraph rt refs graph) (runtime : engine.runtime = rt)
    (answers : engine.deps.Answers (fun tx => tx.db.Shows id w ∧ good tx) allowed)
    (reads : (sqlStepStore env).Answers (fun tx => tx.db.Shows id w ∧ good tx) allowed)
    (on : w.OnPath graph start) {tx : Tx} (shown : tx.db.Shows id w) (held : good tx)
    {enrollment : Enrollment} (named : enrollment.id = id) {current : String}
    (standing : w.current = some current) (now : Timestamp) (processed : Nat) :
    TurnSpec engine env graph now enrollment id w good allowed
      (engine.turn (sqlStepStore env) graph now processed enrollment current tx) := by
  obtain ⟨node, found⟩ := Graph.node?_isSome (on.known current (by simp [Walk.path, standing]))
  obtain ⟨member, same⟩ := Graph.node?_some found
  have yields : (engine.perform (sqlStepStore env) graph enrollment node now tx).Yields
      (fun tx => tx.db.Shows id w ∧ good tx) allowed :=
    Engine.perform_yields answers reads (by rw [runtime]; exact absurd (valid.nodes node member).2) graph
      enrollment now ⟨shown, held⟩
  have sound : (engine.perform (sqlStepStore env) graph enrollment node now tx).Sound
      (sqlStepStore env) graph enrollment node now tx := Engine.perform_sound graph enrollment node now tx
  have fresh : current ∉ w.done := on.current_fresh valid standing
  have here : ∀ n ∈ w.waiting, n = current := by
    intro n waiting
    rcases on.waiting n waiting with ended | at_n
    · rw [standing] at ended; cases ended
    · rw [standing] at at_n; exact (Option.some.inj at_n).symm
  have after : ∀ (t u : Tx) (r : StepRecord), t.db.Shows id w →
      Engine.Identifies enrollment node now r → r.outcome ≠ .entered →
      (sqlStepStore env).record r t = (.ok true, u) →
      u.db.Shows id
        { done := if r.outcome = .waiting then w.done else w.done ++ [current]
          waiting := if r.outcome = .waiting then some current else none
          current := if r.status = .active then r.nextNodeId.or (some current) else none } := by
    intro t u r shows identifies entered recorded
    obtain ⟨owner, -, nodeId, -⟩ := identifies
    rw [same] at nodeId
    have moved := Database.automationRecordStep_shows shows (owner.trans named)
      (by rw [nodeId]; exact standing) (by rw [nodeId]; exact fresh) (by rw [nodeId]; exact here)
      entered (sqlStepStore_record_ok recorded).1
    rw [nodeId] at moved
    exact moved
  obtain ⟨done, waiting, position⟩ := w
  simp only [] at standing
  subst standing
  unfold Engine.turn
  rw [found]
  simp only []
  cases decided : engine.perform (sqlStepStore env) graph enrollment node now tx with
  | fail t cause =>
    rw [decided] at yields
    exact .failed _ t cause yields.1.1 yields.2
  | abort t error =>
    rw [decided] at yields
    exact .aborted _ t error yields.2
  | recordAndStop t r parks =>
    rw [decided] at yields sound
    obtain ⟨identifies, stops⟩ := sound
    have no_next : r.nextNodeId = none := by
      rcases stops with ⟨-, -, none⟩ | ⟨-, -, -, none⟩ <;> exact none
    have recordable : Recordable enrollment r :=
      recordable_of_sound valid member identifies (by simp [no_next])
    have nodeId : r.nodeId = current := identifies.2.2.1.trans same
    simp only [Engine.recordAndStop]
    rcases answered : (sqlStepStore env).record r t with ⟨result, u⟩
    cases result with
    | error error =>
      exact .refused t r _ yields.1 yields.2 recordable (by rw [nodeId]) (by simp [answered])
        ⟨_, rfl, rfl⟩ rfl
    | ok changed =>
      cases changed with
      | false =>
        exact .refused t r _ yields.1 yields.2 recordable (by rw [nodeId]) (by simp [answered])
          ⟨_, rfl, rfl⟩ rfl
      | true =>
        rcases stops with ⟨status, outcome, -⟩ | ⟨idle, status, outcome, -⟩
        · have shows := after t u r yields.1 identifies (by simp [outcome]) answered
          simp only [status, outcome, no_next] at shows
          exact .recorded t r _ _ yields.2 answered (.finish done waiting current) shows rfl rfl
        · -- The store had no unfinished wait of this node, so the walk was not waiting.
          have not_waiting : waiting = none := by
            cases waiting with
            | none => rfl
            | some n =>
              have waits := (shown.waiting n).mpr rfl
              have idle := sqlStepStore_waiting_ok idle
              rw [named, same, ← here n rfl, waits] at idle
              cases idle
          subst not_waiting
          have shows := after t u r yields.1 identifies (by simp [outcome]) answered
          simp only [status, outcome, no_next] at shows
          exact .recorded t r _ _ yields.2 answered (.park done current) shows rfl rfl
  | record t r next =>
    rw [decided] at yields sound
    obtain ⟨identifies, waits, entered, ends⟩ := sound
    have edge : ∀ target ∈ r.nextNodeId, graph.Adjacent node.id target := by
      intro target found
      rcases ends with ⟨-, none⟩ | ⟨-, some_next, adjacent⟩
      · rw [none] at found; cases found
      · rw [some_next] at found; cases found; exact adjacent
    have recordable : Recordable enrollment r := recordable_of_sound valid member identifies edge
    have nodeId : r.nodeId = current := identifies.2.2.1.trans same
    simp only []
    rcases answered : (sqlStepStore env).record r t with ⟨result, u⟩
    cases result with
    | error error =>
      exact .refused t r _ yields.1 yields.2 recordable (by rw [nodeId]) (by simp [answered])
        ⟨_, rfl, rfl⟩ rfl
    | ok changed =>
      cases changed with
      | false =>
        exact .refused t r _ yields.1 yields.2 recordable (by rw [nodeId]) (by simp [answered])
          ⟨_, rfl, rfl⟩ rfl
      | true =>
        have shows := after t u r yields.1 identifies entered answered
        rcases ends with ⟨status, none⟩ | ⟨status, some_next, adjacent⟩
        · simp only [status, waits, none] at shows ⊢
          exact .recorded t r _ _ yields.2 answered (.finish done waiting current) shows rfl rfl
        · simp only [status, waits, some_next] at shows ⊢
          rw [same] at adjacent
          exact .handed t u r next _ yields.2 recordable status answered
            (.go done waiting current next adjacent) shows rfl

end Turn

end Manyforge
