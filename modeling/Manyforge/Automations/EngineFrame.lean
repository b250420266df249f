import Manyforge.Automations.ValidGraph

/-!
# What the engine can do to its state

The engine changes the state only through its dependencies. `Respects` says that
every operation relates the state before it to the state after it; the rules of
this module lift such a relation to a node, to the loop and to `Advance`.
-/
namespace Manyforge

variable {σ : Type}

/-- Every operation of the store moves the state along `rel`. -/
structure StepStore.Respects (steps : StepStore σ) (rel : σ → σ → Prop) : Prop where
  record : ∀ r s, rel s (steps.record r s).2
  fail : ∀ f s, rel s (steps.fail f s).2
  waiting : ∀ enrollment node s, rel s (steps.waiting enrollment node s).2
  delivery : ∀ enrollment node s, rel s (steps.delivery enrollment node s).2
  eventExists : ∀ q s, rel s (steps.eventExists q s).2

/-- Every operation of the other ports moves the state along `rel`. -/
structure Deps.Respects (deps : Deps σ) (rel : σ → σ → Prop) : Prop where
  snapshot : ∀ reader ∈ deps.subscribers, ∀ id s, rel s (reader.snapshot id s).2
  activeOnList : ∀ reader ∈ deps.subscribers, ∀ business email list s,
    rel s (reader.activeOnList business email list s).2
  sender : ∀ enqueue ∈ deps.sender, ∀ spec s, rel s (enqueue spec s).2
  engagement : ∀ reader ∈ deps.engagement, ∀ id s, rel s (reader id s).2
  addTag : ∀ tagger ∈ deps.tagger, ∀ spec s, rel s (tagger.addTag spec s).2
  removeTag : ∀ tagger ∈ deps.tagger, ∀ spec s, rel s (tagger.removeTag spec s).2

def Engine.Decision.state : Engine.Decision σ → σ
  | .fail s _ | .abort s _ | .recordAndStop s _ _ | .record s _ _ => s

theorem Engine.Decision.Yields.state {inv : σ → Prop} {allowed : EngineError → Prop}
    {decision : Engine.Decision σ} (yields : decision.Yields inv allowed) : inv decision.state := by
  cases decision with
  | fail | abort => exact yields.1
  | recordAndStop | record => exact yields

namespace Engine

variable {rel : σ → σ → Prop} {engine : Engine σ} {steps : StepStore σ}

section Frame

variable (refl : ∀ s, rel s s) (trans : ∀ s t u, rel s t → rel t u → rel s u)
  (ports : engine.deps.Respects rel) (store : steps.Respects rel)

include trans in
private theorem yields_of_related {ε α : Type} {start s : σ} (held : rel start s)
    {answer : Except ε α × σ}
    (moved : rel s answer.2) : Yields (rel start) (fun _ => True) answer :=
  ⟨trans _ _ _ held moved, fun _ _ => trivial⟩

include trans ports in
theorem Deps.Respects.answers (start : σ) : engine.deps.Answers (rel start) fun _ => True where
  subscribers _ := trivial
  snapshot reader found id s held := yields_of_related trans held (ports.snapshot reader found id s)
  activeOnList reader found business email list s held :=
    yields_of_related trans held (ports.activeOnList reader found business email list s)
  sender _ := trivial
  enqueue enqueue found spec s held :=
    yields_of_related trans held (ports.sender enqueue found spec s)
  engagement _ := trivial
  engagementOf reader found id s held :=
    yields_of_related trans held (ports.engagement reader found id s)
  tagger _ := trivial
  addTag tagger found spec s held := yields_of_related trans held (ports.addTag tagger found spec s)
  removeTag tagger found spec s held :=
    yields_of_related trans held (ports.removeTag tagger found spec s)

include trans store in
theorem StepStore.Respects.answers (start : σ) : steps.Answers (rel start) fun _ => True where
  waiting enrollment node s held := yields_of_related trans held (store.waiting enrollment node s)
  delivery enrollment node s held := yields_of_related trans held (store.delivery enrollment node s)
  eventExists q s held := yields_of_related trans held (store.eventExists q s)

include refl trans ports store

theorem perform_related (graph : Graph) (enrollment : Enrollment) (node : Node) (now : Timestamp)
    (s : σ) : rel s (engine.perform steps graph enrollment node now s).state := by
  have faulty : (validateConfig engine.runtime node ⟨none, none⟩).1 ≠ [] → ∀ _ : EngineError, True :=
    fun _ _ => trivial
  have yields := perform_yields (Deps.Respects.answers trans ports s)
    (StepStore.Respects.answers trans store s) faulty
    graph enrollment now (refl s)
  exact yields.state

omit refl trans ports in
theorem recordAndStop_related (record : StepRecord) (parks : Bool) (processed : Nat) (s : σ) :
    rel s (recordAndStop steps record parks processed s).state := by
  have recorded := store.record record s
  simp only [recordAndStop]
  split <;> simp_all

omit refl trans ports in
theorem fail_related (enrollment : Enrollment) (processed : Nat) (cause : EngineError)
    (now : Timestamp) (s : σ) :
    rel s (engine.fail steps enrollment processed cause now s).state := by
  simp only [fail]
  have failed := store.fail
    { enrollmentId := enrollment.id, claimGeneration := enrollment.claimGeneration
      error := cause.text
      terminal := cause.isInvalidReference || enrollment.nodeAttempts + 1 ≥ engine.maxAttempts
      retryAt := now + retryDelay enrollment.nodeAttempts } s
  split <;> simp_all

theorem advanceLoop_related (graph : Graph) (now : Timestamp) (budget processed : Nat)
    (enrollment : Enrollment) (current : String) (s : σ) :
    rel s (engine.advanceLoop steps graph now budget processed enrollment current s).state := by
  induction budget generalizing processed enrollment current s with
  | zero => exact refl s
  | succ budget ih =>
    unfold advanceLoop
    cases graph.node? current with
    | none => exact fail_related store _ _ _ _ s
    | some node =>
      have performed := perform_related refl trans ports store graph enrollment node now s
      simp only []
      cases decided : engine.perform steps graph enrollment node now s with
      | fail t cause =>
        rw [decided] at performed
        exact trans _ _ _ performed (fail_related store _ _ _ _ t)
      | abort t error => rw [decided] at performed; exact performed
      | recordAndStop t record parks =>
        rw [decided] at performed
        exact trans _ _ _ performed (recordAndStop_related store _ _ _ t)
      | record t record next =>
        rw [decided] at performed
        have recorded := trans _ _ _ performed (store.record record t)
        simp only []
        rcases answered : steps.record record t with ⟨result, u⟩
        rw [answered] at recorded
        cases result with
        | error error => exact recorded
        | ok changed =>
          cases changed with
          | false => exact recorded
          | true =>
            simp only []
            split
            · exact recorded
            · exact trans _ _ _ recorded (ih _ _ _ u)

theorem advance_related (configured : engine.deps.steps = some steps) (enrollment : Enrollment)
    (graph : Graph) (now : Timestamp) (s : σ) :
    rel s (engine.advance enrollment graph now s).state := by
  simp only [advance, configured]
  exact advanceLoop_related refl trans ports store _ _ _ _ _ _ s

end Frame

/-! ### What is recorded for a node -/

variable (graph : Graph) (enrollment : Enrollment) (node : Node) (now : Timestamp)

/-- The columns of a record that do not depend on how the node went. -/
def Identifies (r : StepRecord) : Prop :=
  r.enrollmentId = enrollment.id ∧ r.claimGeneration = enrollment.claimGeneration ∧
    r.nodeId = node.id ∧ r.nodeKind = node.kind ∧ r.recordedAt = now

/-- The record completes the node; if the enrollment goes on, it goes on along an edge. -/
def Completes (r : StepRecord) (next : String) : Prop :=
  r.outcome ≠ .waiting ∧ r.outcome ≠ .entered ∧
    ((r.status = .completed ∧ r.nextNodeId = none) ∨
      (r.status = .active ∧ r.nextNodeId = some next ∧
        ∃ edge ∈ graph.edges, edge.source = node.id ∧ edge.target = next))

/-- The record ends the tick: the subscriber has left, or a node that was not waiting in `s`
starts to wait. -/
def Stops (steps : StepStore σ) (enrollment : Enrollment) (node : Node) (s : σ) (r : StepRecord) :
    Prop :=
  (r.status = .exited ∧ r.outcome = .exited ∧ r.nextNodeId = none) ∨
    ((steps.waiting enrollment.id node.id s).1 = .ok false ∧ r.status = .active ∧
      r.outcome = .waiting ∧ r.nextNodeId = none)

/-- What a decision made in `s` may hand to `Steps.Record`. -/
def Decision.Sound (steps : StepStore σ) (graph : Graph) (enrollment : Enrollment) (node : Node)
    (now : Timestamp) (s : σ) : Decision σ → Prop
  | .fail _ _ | .abort _ _ => True
  | .recordAndStop _ r _ => Identifies enrollment node now r ∧ Stops steps enrollment node s r
  | .record _ r next => Identifies enrollment node now r ∧ Completes graph node r next

theorem nextNode_edge (id branch : String) (some_edge : nextNode (graph.edgesFrom id) branch ≠ "") :
    ∃ edge ∈ graph.edges, edge.source = id ∧ edge.target = nextNode (graph.edgesFrom id) branch := by
  unfold nextNode at some_edge ⊢
  split at some_edge
  next edge found =>
    have member := List.mem_filter.mp (List.mem_of_find?_eq_some found)
    exact ⟨edge, member.1, by simpa using member.2, rfl⟩
  next => exact absurd rfl some_edge

theorem baseRecord_completes (branch : String) (now : Timestamp) {r : StepRecord}
    (status : r.status = (baseRecord enrollment node
      (nextNode (graph.edgesFrom node.id) branch) now).status)
    (nextNodeId : r.nextNodeId = stringPointer (nextNode (graph.edgesFrom node.id) branch))
    (outcome : r.outcome ≠ .waiting ∧ r.outcome ≠ .entered) :
    Completes graph node r (nextNode (graph.edgesFrom node.id) branch) := by
  refine ⟨outcome.1, outcome.2, ?_⟩
  rw [status, nextNodeId]
  by_cases ends : nextNode (graph.edgesFrom node.id) branch = ""
  · left; simp [baseRecord, stringPointer, ends]
  · right
    exact ⟨by simp [baseRecord, ends], by simp [stringPointer, ends],
      nextNode_edge graph node.id branch ends⟩

theorem afterPort_sound {α : Type} {graph : Graph} {enrollment : Enrollment} {node : Node}
    {now : Timestamp} {s : σ} {record : α → StepRecord} {next : String}
    (answer : Except DepError α × σ)
    (sound : ∀ value, Identifies enrollment node now (record value) ∧
      Completes graph node (record value) next) :
    (afterPort record next answer).Sound steps graph enrollment node now s := by
  obtain ⟨result, t⟩ := answer
  cases result with
  | error error =>
    simp only [afterPort]
    split <;> trivial
  | ok value => exact sound value

private theorem exited_sound {graph : Graph} {enrollment : Enrollment} {node : Node}
    {now : Timestamp} {s : σ} (next : String) (status : SubscriberStatus) (t : σ) :
    (Decision.recordAndStop t
      (exitedRecord (baseRecord enrollment node next now) status) false).Sound
        steps graph enrollment node now s :=
  ⟨⟨rfl, rfl, rfl, rfl, rfl⟩, .inl ⟨rfl, rfl, rfl⟩⟩

theorem performSendEmail_sound (s : σ) :
    (engine.performSendEmail enrollment node (nextNode (graph.edgesFrom node.id) "") now s).Sound
      steps graph enrollment node now s := by
  simp only [performSendEmail]
  split
  · trivial
  · split
    · exact exited_sound _ _ _
    · split
      · split
        · trivial
        · split
          · trivial
          · refine afterPort_sound _ fun deliveryId => ⟨⟨rfl, rfl, rfl, rfl, rfl⟩, ?_⟩
            exact baseRecord_completes graph enrollment node "" now rfl rfl ⟨by simp, by simp⟩
      · trivial

theorem performTag_sound (s : σ) :
    (engine.performTag enrollment node (nextNode (graph.edgesFrom node.id) "") now s).Sound
      steps graph enrollment node now s := by
  have base := baseRecord_completes graph enrollment node "" now
    (r := baseRecord enrollment node (nextNode (graph.edgesFrom node.id) "") now) rfl rfl
    ⟨by simp [baseRecord], by simp [baseRecord]⟩
  simp only [performTag]
  split
  · trivial
  · split
    · trivial
    · split
      · trivial
      · split
        · split
          · trivial
          · split
            · exact exited_sound _ _ _
            · exact afterPort_sound _ fun _ => ⟨⟨rfl, rfl, rfl, rfl, rfl⟩, base⟩
        · exact afterPort_sound _ fun _ => ⟨⟨rfl, rfl, rfl, rfl, rfl⟩, base⟩

/-- Whatever the dependencies answer, the switch hands the store a record of this node that
either completes it and goes on along an edge, or ends the tick. -/
theorem perform_sound (s : σ) :
    (engine.perform steps graph enrollment node now s).Sound steps graph enrollment node now s := by
  have base := baseRecord_completes graph enrollment node "" now
    (r := baseRecord enrollment node (nextNode (graph.edgesFrom node.id) "") now) rfl rfl
    ⟨by simp [baseRecord], by simp [baseRecord]⟩
  unfold perform
  cases kind : node.kind with
  | trigger => exact ⟨⟨rfl, rfl, rfl, rfl, rfl⟩, base⟩
  | sendEmail => exact performSendEmail_sound graph enrollment node now s
  | wait =>
    simp only [performWait]
    split
    · trivial
    · exact ⟨⟨rfl, rfl, rfl, rfl, rfl⟩, base⟩
    next answered =>
    split
    · trivial
    · exact ⟨⟨rfl, rfl, rfl, rfl, rfl⟩, .inr ⟨congrArg Prod.fst answered, rfl, rfl, rfl⟩⟩
  | condition =>
    simp only [performCondition]
    split
    · trivial
    next yes t _ =>
    refine ⟨⟨rfl, rfl, rfl, rfl, rfl⟩, ?_⟩
    refine baseRecord_completes graph enrollment node _ now rfl rfl ?_
    cases yes <;> simp
  | addTag | removeTag => exact performTag_sound graph enrollment node now s
  | exit => exact ⟨⟨rfl, rfl, rfl, rfl, rfl⟩, by simp, by simp, .inl ⟨rfl, rfl⟩⟩
  | unknown kind => trivial

/-! ### Lost fences -/

/-- Where the store takes no record and no failure of this execution, `Advance` returns an
error, and its caller rolls back. -/
theorem advance_error_of_lost {lost : σ → Prop} (configured : engine.deps.steps = some steps)
    (ports : engine.deps.Respects fun s t => lost s → lost t)
    (store : steps.Respects fun s t => lost s → lost t) (enrollment : Enrollment)
    (noRecord : ∀ r s, lost s → r.enrollmentId = enrollment.id →
      r.claimGeneration = enrollment.claimGeneration → (steps.record r s).1 ≠ .ok true)
    (noFail : ∀ f s, lost s → f.enrollmentId = enrollment.id →
      f.claimGeneration = enrollment.claimGeneration → (steps.fail f s).1 ≠ .ok true)
    (graph : Graph) (now : Timestamp) (s : σ) (start : lost s) :
    (engine.advance enrollment graph now s).error ≠ none := by
  have failed : ∀ processed cause t, lost t →
      (engine.fail steps enrollment processed cause now t).error ≠ none := by
    intro processed cause t held
    simp only [fail]
    split
    · simp
    · simp
    next answered => exact absurd (congrArg Prod.fst answered) (noFail _ t held rfl rfl)
  -- The quota is at least one, so the loop reaches the first node.
  obtain ⟨budget, quota⟩ : ∃ budget, engine.limit = budget + 1 := by
    refine ⟨engine.limit - 1, ?_⟩
    simp only [limit]
    split <;> omega
  simp only [advance, configured, quota, advanceLoop]
  cases graph.node? enrollment.currentNodeId with
  | none => exact failed _ _ s start
  | some node =>
    have kept : lost s → lost (engine.perform steps graph enrollment node now s).state :=
      perform_related (fun _ h => h) (fun _ _ _ first rest h => rest (first h)) ports store
        graph enrollment node now s
    have kept := kept start
    have sound : (engine.perform steps graph enrollment node now s).Sound steps graph enrollment
        node now s := perform_sound graph enrollment node now s
    simp only []
    cases decided : engine.perform steps graph enrollment node now s with
    | fail t cause => rw [decided] at kept; exact failed _ _ t kept
    | abort t error => simp
    | recordAndStop t record parks =>
      rw [decided] at kept sound
      obtain ⟨⟨same, generation, -⟩, -⟩ := sound
      simp only [recordAndStop]
      split
      · simp
      · simp
      next answered =>
        exact absurd (congrArg Prod.fst answered) (noRecord _ t kept same generation)
    | record t record next =>
      rw [decided] at kept sound
      obtain ⟨⟨same, generation, -⟩, -⟩ := sound
      simp only []
      split
      · simp
      · simp
      next answered =>
        exact absurd (congrArg Prod.fst answered) (noRecord _ t kept same generation)

end Engine

end Manyforge
