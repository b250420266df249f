import Manyforge.Automations.Turns
import Manyforge.Lib.Transition

/-!
# Validated graphs run

Any number of calls of `Advance` for one enrollment of a graph without issues,
with any quota, any clock and any answers of the ports, and with the rest of the
program working in between: the engine never finds fault with the graph, the
completed nodes are a path of it, no completed node is executed again, and while
the ports succeed the enrollment comes to an end.
-/
namespace Manyforge

open Table Transition Validate

/-! ### One call -/

/-- A call of `Advance` for an enrollment of `db` at its current node. The ports other than the
step store answer as they like, as long as they leave the tables of the engine alone. -/
structure Call (rt : Runtime) (id : UUID) (db : Database) where
  engine : Engine Tx
  env : SqlEnv
  enrollment : Enrollment
  now : Timestamp
  runtime : engine.runtime = rt
  store : engine.deps.steps = some (sqlStepStore env)
  ports : engine.deps.Respects (Tx.Along Database.SameProgress)
  named : enrollment.id = id
  standing : ∃ e ∈ db.enrollments, e.id = id ∧ e.status = .active ∧
    e.currentNodeId = some enrollment.currentNodeId

namespace Call

variable {rt : Runtime} {id : UUID} {db : Database} (call : Call rt id db) (graph : Graph)

def result : Engine.Result Tx :=
  call.engine.advance call.enrollment graph call.now ⟨db, false⟩

def committed : Database := commit db (call.result graph)

/-- The nodes the call executes, each with the transaction as it finds it. -/
def executions : List (String × Tx) :=
  call.engine.executions (sqlStepStore call.env) graph call.now call.engine.limit 0 call.enrollment
    call.enrollment.currentNodeId ⟨db, false⟩

/-- The transaction is open and the enrollment is still this worker's. -/
def Open (tx : Tx) : Prop :=
  tx.aborted = false ∧
    tx.db.automationExecutionFence id call.enrollment.claimGeneration none none none = true

/-- Every dependency call of it succeeds. -/
structure Succeeds : Prop where
  fence : call.Open ⟨db, false⟩
  ports : call.engine.deps.Answers call.Open fun _ => False

variable {call graph}

theorem result_eq : call.result graph =
    call.engine.advanceLoop (sqlStepStore call.env) graph call.now call.engine.limit 0
      call.enrollment call.enrollment.currentNodeId ⟨db, false⟩ := by
  simp only [result, Engine.advance, call.store]

theorem shows_current {w : Walk} (shown : db.Shows id w) :
    w.current = some call.enrollment.currentNodeId := by
  obtain ⟨e, member, e_id, active, current⟩ := call.standing
  have here := shown.at_row member e_id
  cases position : w.current with
  | none => rw [position] at here; exact absurd active here
  | some node =>
    rw [position] at here
    exact here.2.symm.trans current

end Call

/-! ### What the ports may answer -/

section Ports

variable {deps : Deps Tx} {good : Tx → Prop} {allowed : EngineError → Prop}

theorem Deps.Answers.keeping {rel : Tx → Tx → Prop} {inv : Tx → Prop}
    (answers : deps.Answers good allowed)
    (ports : deps.Respects rel) (kept : ∀ s t, rel s t → inv s → inv t) :
    deps.Answers (fun tx => inv tx ∧ good tx) allowed where
  subscribers := answers.subscribers
  snapshot reader found key s held :=
    have answered := answers.snapshot reader found key s held.2
    ⟨⟨kept _ _ (ports.snapshot reader found key s) held.1, answered.1⟩, answered.2⟩
  activeOnList reader found business email list s held :=
    have answered := answers.activeOnList reader found business email list s held.2
    ⟨⟨kept _ _ (ports.activeOnList reader found business email list s) held.1, answered.1⟩,
      answered.2⟩
  sender := answers.sender
  enqueue enqueue found spec s held :=
    have answered := answers.enqueue enqueue found spec s held.2
    ⟨⟨kept _ _ (ports.sender enqueue found spec s) held.1, answered.1⟩, answered.2⟩
  engagement := answers.engagement
  engagementOf reader found key s held :=
    have answered := answers.engagementOf reader found key s held.2
    ⟨⟨kept _ _ (ports.engagement reader found key s) held.1, answered.1⟩, answered.2⟩
  tagger := answers.tagger
  addTag tagger found spec s held :=
    have answered := answers.addTag tagger found spec s held.2
    ⟨⟨kept _ _ (ports.addTag tagger found spec s) held.1, answered.1⟩, answered.2⟩
  removeTag tagger found spec s held :=
    have answered := answers.removeTag tagger found spec s held.2
    ⟨⟨kept _ _ (ports.removeTag tagger found spec s) held.1, answered.1⟩, answered.2⟩

theorem Deps.Answers.showing (answers : deps.Answers good allowed)
    (ports : deps.Respects (Tx.Along Database.SameProgress)) (id : UUID) (w : Walk) :
    deps.Answers (fun tx => tx.db.Shows id w ∧ good tx) allowed :=
  answers.keeping ports fun _ _ same shown => shown.of_same same

theorem Deps.answers_any (deps : Deps Tx) :
    deps.Answers (fun _ => True) fun error => error.fromGraph = false where
  subscribers _ := rfl
  snapshot _ _ _ _ _ := ⟨trivial, fun _ _ => rfl⟩
  activeOnList _ _ _ _ _ _ _ := ⟨trivial, fun _ _ => rfl⟩
  sender _ := rfl
  enqueue _ _ _ _ _ := ⟨trivial, fun _ _ => rfl⟩
  engagement _ := rfl
  engagementOf _ _ _ _ _ := ⟨trivial, fun _ _ => rfl⟩
  tagger _ := rfl
  addTag _ _ _ _ _ := ⟨trivial, fun _ _ => rfl⟩
  removeTag _ _ _ _ _ := ⟨trivial, fun _ _ => rfl⟩

theorem Tx.select_yields {α : Type} (read : Database → α) {tx : Tx} (held : good tx)
    (closed : tx.aborted = true → allowed (.dependency (Tx.sqlError .transactionAborted))) :
    Yields good (allowed <| .dependency ·) (Tx.select read tx) := by
  simp only [Tx.select, Tx.query]
  split
  next aborted => exact .error held (closed aborted)
  next => exact .ok held

theorem sqlStepStore_answers (env : SqlEnv) (closed : ∀ tx, good tx → tx.aborted = true →
      allowed (.dependency (Tx.sqlError .transactionAborted))) :
    (sqlStepStore env).Answers good allowed where
  waiting _ _ tx held := Tx.select_yields _ held (closed tx held)
  delivery _ _ tx held := Tx.select_yields _ held (closed tx held)
  eventExists _ tx held := Tx.select_yields _ held (closed tx held)

end Ports

/-! ### Any answers -/

section Safety

variable {rt : Runtime} {refs : References} {graph : Graph} {start : String} {id : UUID}
  {db : Database} {w : Walk}

/-- The result has no error of the graph, and what it leaves to commit shows moves of the walk. -/
structure Settles (graph : Graph) (id : UUID) (w : Walk) (result : Engine.Result Tx) : Prop where
  error : ∀ error ∈ result.error, error.fromGraph = false
  lastError : ∀ cause ∈ result.outcome.lastError, cause.fromGraph = false
  moved : result.error = none →
    ∃ w', Relation.ReflTransGen (Walk.Moves graph) w w' ∧ result.state.db.Shows id w'

theorem Settles.after {w' : Walk} {result : Engine.Result Tx}
    (moves : Relation.ReflTransGen (Walk.Moves graph) w w') (settles : Settles graph id w' result) :
    Settles graph id w result := by
  refine ⟨settles.error, settles.lastError, fun clean => ?_⟩
  obtain ⟨w'', moves', shown⟩ := settles.moved clean
  exact ⟨w'', moves.trans moves', shown⟩

theorem fail_settles {engine : Engine Tx} {env : SqlEnv} {tx : Tx} (shown : tx.db.Shows id w)
    {cause : EngineError} (other : cause.fromGraph = false) (enrollment : Enrollment)
    (processed : Nat) (now : Timestamp) :
    Settles graph id w (engine.fail (sqlStepStore env) enrollment processed cause now tx) := by
  simp only [Engine.fail]
  split
  next =>
    exact ⟨by simp [EngineError.fromGraph], by simp [Engine.runningOutcome], by simp⟩
  next =>
    exact ⟨by simp [EngineError.fromGraph], by simp [Engine.runningOutcome], by simp⟩
  next f t answered =>
  refine ⟨by simp, by simpa using other, fun _ => ?_⟩
  have failed := (Tx.query_ok (show Tx.query (fun db => .ok (db.automationFailStep env.now _)) tx =
    _ from answered)).1
  have state := congrArg Prod.fst (Except.ok.inj failed)
  simp only [] at state
  rw [← state]
  rcases Database.automationFailStep_shows shown env.now _ with same | ended
  · exact ⟨w, .refl, same⟩
  · exact ⟨_, .single (.leave w), ended⟩

section Valid

variable (valid : ValidGraph rt refs graph) (call : Call rt id db) (on : w.OnPath graph start)
  (shown : db.Shows id w)

/-- The loop has come to `current`, and its transaction shows moves of the walk. -/
def Stands (graph : Graph) (start : String) (id : UUID) (w : Walk) (current : String) (tx : Tx) :
    Prop :=
  ∃ w', Relation.ReflTransGen (Walk.Moves graph) w w' ∧ w'.OnPath graph start ∧
    tx.db.Shows id w' ∧ w'.current = some current

include valid

theorem Call.turn_any {w' : Walk} (on : w'.OnPath graph start) {tx : Tx}
    (shown : tx.db.Shows id w') {enrollment : Enrollment} (named : enrollment.id = id)
    {current : String} (standing : w'.current = some current) (processed : Nat) :
    TurnSpec call.engine call.env graph call.now enrollment id w' (fun _ => True)
      (fun error => error.fromGraph = false)
      (call.engine.turn (sqlStepStore call.env) graph call.now processed enrollment current tx) :=
  turn_spec valid call.runtime (call.engine.deps.answers_any.showing call.ports id w')
    (sqlStepStore_answers call.env fun _ _ _ => rfl) on shown trivial named standing call.now
    processed

theorem Call.handed {processed : Nat} {enrollment : Enrollment} {current next : String}
    {tx tx' : Tx} (same : call.enrollment.SameClaim enrollment)
    (stands : Stands graph start id w current tx)
    (taken : call.engine.turn (sqlStepStore call.env) graph call.now processed enrollment current
      tx = .goOn next tx') : Stands graph start id w next tx' := by
  obtain ⟨w', moves, on, shown, standing⟩ := stands
  have spec := call.turn_any valid on shown (same.1.trans call.named) standing processed
  rw [taken] at spec
  cases spec with
  | handed _ _ _ _ w'' _ _ _ _ progress shown' standing' =>
    exact ⟨w'', moves.tail (.progress progress), on.moves valid (.progress progress), shown',
      standing'⟩

theorem Call.stopped {processed : Nat} {enrollment : Enrollment} {current : String} {tx : Tx}
    {result : Engine.Result Tx} (same : call.enrollment.SameClaim enrollment)
    (stands : Stands graph start id w current tx)
    (taken : call.engine.turn (sqlStepStore call.env) graph call.now processed enrollment current
      tx = .stop result) : Settles graph id w result := by
  obtain ⟨w', moves, on, shown, standing⟩ := stands
  have spec := call.turn_any valid on shown (same.1.trans call.named) standing processed
  rw [taken] at spec
  refine Settles.after moves ?_
  cases spec with
  | failed processed tx cause shown allowed => exact fail_settles shown allowed _ _ _
  | aborted processed tx error allowed =>
    exact ⟨by simpa using allowed, by simp [Engine.runningOutcome], by simp⟩
  | refused _ _ _ _ _ _ _ _ error clean =>
    obtain ⟨error, found, other⟩ := error
    rw [Option.mem_def] at found
    exact ⟨by simpa [found] using other, by simp [clean], by simp [found]⟩
  | recorded _ _ _ w'' _ _ progress shown error clean =>
    exact ⟨by simp [error], by simp [clean], fun _ => ⟨w'', .single (.progress progress), shown⟩⟩

include on shown

/-- A call meets no error of the graph, and commits moves of the walk. -/
theorem Call.settles : Settles graph id w (call.result graph) := by
  rw [Call.result_eq]
  refine Engine.advanceLoop_rule (Stands graph start id w) call.enrollment ?_ ?_ ?_ _ _ _
    ⟨rfl, rfl⟩ _ _ ⟨w, .refl, on, shown, call.shows_current shown⟩
  · rintro processed current tx ⟨w', moves, -, shown, -⟩
    exact ⟨by simp, by simp [Engine.runningOutcome], fun _ => ⟨w', moves, shown⟩⟩
  · exact fun _ _ _ _ _ same stands taken => call.stopped valid same stands taken
  · exact fun _ _ _ _ _ _ same stands taken => call.handed valid same stands taken

theorem Call.executes_fresh : ∀ visit ∈ call.executions graph,
    visit.2.db.stepCompleted id visit.1 = false := by
  intro visit member
  obtain ⟨w', -, on', shown', standing⟩ : Stands graph start id w visit.1 visit.2 :=
    Engine.executions_stand
      (fun _ _ _ _ _ _ same stands taken => call.handed valid same stands taken) _ _ _ ⟨rfl, rfl⟩
      _ _ ⟨w, .refl, on, shown, call.shows_current shown⟩ visit member
  have fresh := on'.current_fresh valid standing
  simpa using mt (shown'.completed visit.1).mp fresh

theorem Call.committed_shows : ∃ w', Relation.ReflTransGen (Walk.Moves graph) w w' ∧
    (call.committed graph).Shows id w' := by
  unfold Call.committed commit
  split
  · exact ⟨w, .refl, shown⟩
  next clean =>
  split
  · exact ⟨w, .refl, shown⟩
  · exact (call.settles valid on shown).moved clean

end Valid

end Safety

/-! ### Ports that succeed -/

namespace Database

theorem automationRecordStep_fence {db db' : Database} {r : StepRecord} {id : UUID}
    {generation : Nat} (named : r.enrollmentId = id) (active : r.status = .active)
    (fence : db.automationExecutionFence id generation none none none = true)
    (ran : db.automationRecordStep r = .ok (db', true)) :
    db'.automationExecutionFence id generation none none none = true := by
  obtain ⟨impossible, -⟩ | ⟨-, -, e, found, ⟨-, rfl⟩ | ⟨-, rfl⟩⟩ := automationRecordStep_cases ran
  · cases impossible
  · exact fence
  · have e_id : e.id = id := by
      have matched : e.id = r.enrollmentId := by simpa using List.find?_some found
      exact matched.trans named
    obtain ⟨row, member, row_id, status, same, -, -, -, runnable⟩ := automationExecutionFence_row fence
    refine List.any_eq_true.mpr ⟨applyRecord r row, mem_updateWhere.mpr ⟨row, member, ?_⟩, ?_⟩
    · simp [row_id, e_id]
    · simp only [Bool.and_eq_true, beq_iff_eq, Option.all_none, and_true]
      exact ⟨⟨⟨row_id, active⟩, same⟩, runnable⟩

theorem automationRecordStep_succeeds {db : Database} {id : UUID} {w : Walk} {r : StepRecord}
    {enrollment : Enrollment} (shown : db.Shows id w) (named : enrollment.id = id)
    (recordable : Recordable enrollment r) (current : w.current = some r.nodeId)
    (fence : db.automationExecutionFence id enrollment.claimGeneration none none none = true) :
    ∃ db', db.automationRecordStep r = .ok (db', true) := by
  obtain ⟨e, only, here⟩ := shown.row
  obtain ⟨found, e_id, -⟩ := find?_of_filter only
  rw [current] at here
  have owner : r.enrollmentId = id := recordable.enrollmentId.trans named
  have next : ((applyRecord r e).currentNodeId.any fun node => !graphIDPattern node) = false := by
    simp only [applyRecord]
    split
    · cases target : r.nextNodeId with
      | none => simpa [here.2] using recordable.nodeId
      | some id => simpa using recordable.next id target
    · rfl
  unfold automationRecordStep
  rw [owner, recordable.generation, fence, found]
  simp only [Bool.true_eq_false, if_false]
  split
  · exact ⟨_, rfl⟩
  · rw [if_neg (by simp [recordable.nodeId]), if_neg (by simp [recordable.kind]),
      if_neg (by simp [next])]
    exact ⟨_, rfl⟩

end Database

section Progress

variable {rt : Runtime} {refs : References} {graph : Graph} {start : String} {id : UUID}
  {db : Database} {w : Walk} (valid : ValidGraph rt refs graph) {call : Call rt id db}
  (succeeds : call.Succeeds)
  {enrollment : Enrollment}

/-- The store takes the records of an open transaction, and an active one leaves it open. -/
theorem Call.Open.record {call : Call rt id db} {tx : Tx} (opened : call.Open tx)
    (shown : tx.db.Shows id w) (named : enrollment.id = id)
    (generation : enrollment.claimGeneration = call.enrollment.claimGeneration) {r : StepRecord}
    (recordable : Recordable enrollment r) (current : w.current = some r.nodeId) :
    ((sqlStepStore call.env).record r tx).1 = .ok true := by
  obtain ⟨db', ran⟩ := Database.automationRecordStep_succeeds shown named recordable current
    (by rw [generation]; exact opened.2)
  simp only [sqlStepStore, Tx.query, opened.1, ran]
  rfl

theorem Call.Open.recorded {call : Call rt id db} {tx tx' : Tx} (opened : call.Open tx)
    {r : StepRecord} (named : r.enrollmentId = id) (active : r.status = .active)
    (ran : (sqlStepStore call.env).record r tx = (.ok true, tx')) : call.Open tx' := by
  obtain ⟨recorded, same⟩ := sqlStepStore_record_ok ran
  exact ⟨same.trans opened.1, Database.automationRecordStep_fence named active opened.2 recorded⟩

include valid succeeds

theorem Call.turn_succeeds {w' : Walk} (on : w'.OnPath graph start) {tx : Tx}
    (shown : tx.db.Shows id w') (opened : call.Open tx) (named : enrollment.id = id)
    {current : String} (standing : w'.current = some current) (processed : Nat) :
    TurnSpec call.engine call.env graph call.now enrollment id w' call.Open (fun _ => False)
      (call.engine.turn (sqlStepStore call.env) graph call.now processed enrollment current tx) :=
  turn_spec valid call.runtime (succeeds.ports.showing call.ports id w')
    (sqlStepStore_answers call.env fun _ held aborted => by simp [held.2.1] at aborted) on shown
    opened named standing call.now processed

/-- The loop has come to `current` in an open transaction that shows progress of the walk. -/
private def Strides (graph : Graph) (start : String) (id : UUID) (call : Call rt id db) (w : Walk)
    (current : String) (tx : Tx) : Prop :=
  ∃ w', Relation.TransGen (Walk.Progresses graph) w w' ∧ w'.OnPath graph start ∧
    tx.db.Shows id w' ∧ w'.current = some current ∧ call.Open tx

/-- Nothing failed, and what is left to commit shows progress of the walk. -/
private def Arrives (graph : Graph) (id : UUID) (w : Walk) (result : Engine.Result Tx) : Prop :=
  result.error = none ∧ result.state.aborted = false ∧
    ∃ w', Relation.TransGen (Walk.Progresses graph) w w' ∧ result.state.db.Shows id w'

private theorem turn_arrives {w' : Walk}
    (before : Relation.ReflTransGen (Walk.Progresses graph) w w')
    (on : w'.OnPath graph start) {tx : Tx} (shown : tx.db.Shows id w') (opened : call.Open tx)
    (same : call.enrollment.SameClaim enrollment) {current : String}
    (standing : w'.current = some current) (processed : Nat) :
    match call.engine.turn (sqlStepStore call.env) graph call.now processed enrollment current tx with
    | .stop result => Arrives graph id w result
    | .goOn next tx' => Strides graph start id call w next tx' := by
  have named := same.1.trans call.named
  have spec := call.turn_succeeds valid succeeds on shown opened named standing processed
  generalize call.engine.turn _ graph _ _ _ _ _ = taken at spec ⊢
  cases spec with
  | failed _ _ _ _ impossible | aborted _ _ _ impossible => exact impossible.elim
  | refused tx r result shown opened recordable current refused =>
    exact absurd (opened.record shown named same.2 recordable current) refused
  | recorded tx r result w'' opened ran progress shown error =>
    refine ⟨error, (sqlStepStore_record_ok ran).2.trans opened.1, w'', ?_, shown⟩
    exact Relation.TransGen.tail' before progress
  | handed tx tx' r next w'' opened recordable active ran progress shown standing =>
    refine ⟨w'', Relation.TransGen.tail' before progress, on.moves valid (.progress progress), shown,
      standing, opened.recorded (recordable.enrollmentId.trans named) active ran⟩

theorem Call.Succeeds.progress (on : w.OnPath graph start) (shown : db.Shows id w) :
    ∃ w', Relation.TransGen (Walk.Progresses graph) w w' ∧ (call.committed graph).Shows id w' := by
  have arrives : Arrives graph id w (call.result graph) := by
    obtain ⟨budget, quota⟩ : ∃ budget, call.engine.limit = budget + 1 := by
      refine ⟨call.engine.limit - 1, ?_⟩
      simp only [Engine.limit]
      split <;> omega
    rw [Call.result_eq, quota, Engine.advanceLoop_succ]
    have first := turn_arrives valid succeeds .refl on shown succeeds.fence ⟨rfl, rfl⟩
      (call.shows_current shown) 0
    cases taken : call.engine.turn (sqlStepStore call.env) graph call.now 0 call.enrollment
      call.enrollment.currentNodeId ⟨db, false⟩ with
    | stop result => rw [taken] at first; exact first
    | goOn next tx =>
      rw [taken] at first
      simp only []
      refine Engine.advanceLoop_rule (Strides graph start id call w) call.enrollment ?_ ?_ ?_ _ _
        { call.enrollment with nodeAttempts := 0 } ⟨rfl, rfl⟩ _ _ first
      · rintro processed current tx ⟨w', moves, -, shown, -, opened⟩
        exact ⟨rfl, opened.1, w', moves, shown⟩
      · rintro processed enrollment current tx result same ⟨w', moves, on, shown, at_w', opened⟩ taken
        have ends := turn_arrives valid succeeds moves.to_reflTransGen on shown opened same at_w'
          processed
        rw [taken] at ends
        exact ends
      · rintro processed enrollment current tx next tx' same ⟨w', moves, on, shown, at_w', opened⟩ taken
        have goes := turn_arrives valid succeeds moves.to_reflTransGen on shown opened same at_w'
          processed
        rw [taken] at goes
        exact goes
  obtain ⟨clean, live, w', moves, shown'⟩ := arrives
  refine ⟨w', moves, ?_⟩
  unfold Call.committed commit
  rw [clean]
  simp only [live]
  exact shown'

end Progress

/-! ### The life of an enrollment -/

/-- What the rest of the program does to an enrollment between two calls: it keeps its steps, and
leaves it where it is (claiming, pausing and resuming write other columns) or ends it. -/
structure Database.Leaves (id : UUID) (db db' : Database) : Prop where
  steps : (db'.steps.filter fun s => s.enrollmentId == id) =
    db.steps.filter fun s => s.enrollmentId == id
  row : ∀ e, db.enrollments.filter (fun e => e.id == id) = [e] →
    ∃ e', db'.enrollments.filter (fun e => e.id == id) = [e'] ∧
      ((e'.status = e.status ∧ e'.currentNodeId = e.currentNodeId) ∨ e'.status ≠ .active)

theorem Database.Shows.leaves {id : UUID} {db db' : Database} {w : Walk} (shown : db.Shows id w)
    (leaves : db.Leaves id db') : db'.StillShows id w := by
  obtain ⟨e, only, here⟩ := shown.row
  obtain ⟨e', only', moved⟩ := leaves.row e only
  have steps : journal id db'.steps = w.done.map (·, true) ++ w.waiting.toList.map (·, false) := by
    rw [← shown.steps, journal, leaves.steps, journal]
  have waits : ∀ s ∈ db'.steps, s.enrollmentId = id → s.completedAt = none →
      s.outcome = .waiting := by
    intro s member owner
    have kept : s ∈ db'.steps.filter fun s => s.enrollmentId == id :=
      List.mem_filter.mpr ⟨member, by simp [owner]⟩
    rw [leaves.steps] at kept
    exact shown.waits s (List.mem_filter.mp kept).1 owner
  rcases moved with ⟨status, node⟩ | ended
  · refine .inl ⟨⟨e', only', ?_⟩, steps, waits⟩
    cases current : w.current with
    | none => rw [current] at here; exact fun active => here (status ▸ active)
    | some target => rw [current] at here; exact ⟨status.trans here.1, node.trans here.2⟩
  · exact .inr ⟨⟨e', only', ended⟩, steps, waits⟩

namespace Database

theorem Leaves.refl (id : UUID) (db : Database) : db.Leaves id db :=
  ⟨rfl, fun e only => ⟨e, only, .inl ⟨rfl, rfl⟩⟩⟩

theorem Leaves.update {id : UUID} {db db' : Database} {chosen : AutomationEnrollment → Bool}
    {change : AutomationEnrollment → AutomationEnrollment} (steps : db'.steps = db.steps)
    (enrollments : db'.enrollments = updateWhere chosen change db.enrollments)
    (kept : ∀ e, (change e).id = e.id)
    (moved : ∀ e, ((change e).status = e.status ∧ (change e).currentNodeId = e.currentNodeId) ∨
      (change e).status ≠ .active) : db.Leaves id db' := by
  refine ⟨by rw [steps], fun e only => ?_⟩
  have only' := filter_update only chosen change kept
  rw [← enrollments] at only'
  refine ⟨_, only', ?_⟩
  split
  · exact moved e
  · exact .inl ⟨rfl, rfl⟩

end Database

theorem stepperClaim_leaves (id : UUID) (db : Database) (now : Timestamp) (batch lease : Int)
    (locked : UUID → Bool) : db.Leaves id (stepperClaim db now batch lease locked).1 := by
  simp only [stepperClaim]
  split
  · exact .refl id db
  · exact .update rfl rfl (fun _ => rfl) fun _ => .inl ⟨rfl, rfl⟩

/-- One step in the life of the enrollment `id`. -/
inductive Lives (rt : Runtime) (graph : Graph) (id : UUID) : Database → Database → Prop
  | advance {db : Database} (call : Call rt id db) : Lives rt graph id db (call.committed graph)
  | other {db db' : Database} (leaves : db.Leaves id db') : Lives rt graph id db db'

/-- A call of which every dependency call succeeds, after what the rest of the program has done: the
claim of the enrollment, for one. -/
def Advances (rt : Runtime) (graph : Graph) (id : UUID) (db db' : Database) : Prop :=
  ∃ between, db.Leaves id between ∧
    ∃ call : Call rt id between, call.Succeeds ∧ db' = call.committed graph

def Database.completedNodes (db : Database) (id : UUID) : List String :=
  (db.steps.filter fun s => s.enrollmentId == id && s.completedAt.isSome).map (·.nodeId)

theorem Database.Shows.completedNodes {db : Database} {id : UUID} {w : Walk}
    (shown : db.Shows id w) : db.completedNodes id = w.done := by
  have entries : db.completedNodes id =
      ((journal id db.steps).filter (·.2)).map (·.1) := by
    simp only [Database.completedNodes, journal, List.filter_map, List.map_map, List.filter_filter]
    congr 2
    funext s
    simp [Bool.and_comm]
  rw [entries, shown.steps]
  simp [List.filter_map, Function.comp_def]

section Runs

variable {rt : Runtime} {refs : References} {graph : Graph} {start : String} {id : UUID}
  (valid : ValidGraph rt refs graph)

include valid

/-- Every step in the life of an enrollment is a sequence of moves of its walk. -/
theorem Lives.moves {db db' : Database} {w : Walk} (lives : Lives rt graph id db db')
    (on : w.OnPath graph start) (shown : db.Shows id w) :
    ∃ w', Relation.ReflTransGen (Walk.Moves graph) w w' ∧ db'.Shows id w' := by
  cases lives with
  | advance call => exact call.committed_shows valid on shown
  | other leaves =>
    rcases shown.leaves leaves with same | ended
    · exact ⟨w, .refl, same⟩
    · exact ⟨_, .single (.leave w), ended⟩

/-- The enrollment shows a walk on the graph. -/
def OnGraph (graph : Graph) (start : String) (id : UUID) (db : Database) : Prop :=
  ∃ w : Walk, w.OnPath graph start ∧ db.Shows id w

/-- The enrollment stays on its graph, whatever else runs. -/
theorem onGraph_preserved : Preserved (Lives rt graph id) (OnGraph graph start id) := by
  rintro db db' lives ⟨w, on, shown⟩
  obtain ⟨w', moves, shown'⟩ := lives.moves valid on shown
  refine ⟨w', ?_, shown'⟩
  have kept : Preserved (Walk.Moves graph) (Walk.OnPath graph start) :=
    fun _ _ move on => on.moves valid move
  exact kept.reaches moves on

theorem Lives.keeps_completed {db db' : Database} (lives : Lives rt graph id db db')
    (onGraph : OnGraph graph start id db) (node : String)
    (completed : db.stepCompleted id node = true) : db'.stepCompleted id node = true := by
  obtain ⟨w, on, shown⟩ := onGraph
  obtain ⟨w', moves, shown'⟩ := lives.moves valid on shown
  have grown := Walk.done_subset_of_moves moves
  exact (shown'.completed node).mpr (grown ((shown.completed node).mp completed))

/-- Each call whose ports succeed shortens what remains of the walk. -/
theorem advances_remaining {db : Database} {more : List Database} {w : Walk}
    (on : w.OnPath graph start) (shown : db.Shows id w) (run : Run (Advances rt graph id) db more) :
    ∃ w', w'.OnPath graph start ∧
      ((db :: more).getLast (List.cons_ne_nil _ _)).Shows id w' ∧
      more.length + w'.remaining graph ≤ w.remaining graph := by
  induction more generalizing db w with
  | nil => exact ⟨w, on, shown, by simp⟩
  | cons next rest ih =>
    obtain ⟨⟨between, leaves, call, succeeds, rfl⟩, tail⟩ := List.isChain_cons_cons.mp run
    have still : between.Shows id w := by
      rcases shown.leaves leaves with same | ended
      · exact same
      · -- An enrollment that was ended is not called for.
        cases call.shows_current ended
    obtain ⟨w', progress, shown'⟩ := succeeds.progress valid on still
    obtain ⟨on', shorter⟩ := on.progress valid progress
    obtain ⟨w'', on'', shown'', bound⟩ := ih on' shown' tail
    refine ⟨w'', on'', by simpa using shown'', ?_⟩
    simp only [List.length_cons]
    omega

end Runs

namespace Sample

/-- The stepper's own call for the claimed enrollment. -/
def call : Call runtime 70 claimed.1 where
  engine := (config 2).engine env
  env := env
  enrollment := claim.enrollment
  now := 0
  runtime := rfl
  store := rfl
  ports := by
    refine sqlDeps_respects (fun _ => ⟨rfl, rfl⟩) ?_
      (fun _ _ steps enrollments _ => ⟨steps, enrollments⟩) env
    intro db db' spec newId answer ran
    obtain rfl | ⟨-, -, _, _, -, -, -, rfl⟩ := Database.mailingEnqueueDelivery_cases ran
    · exact ⟨rfl, rfl⟩
    · exact ⟨rfl, rfl⟩
  named := by decide
  standing := ⟨_, List.mem_singleton_self _, by decide, by decide, by decide⟩

end Sample

end Manyforge
