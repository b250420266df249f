import Manyforge.Automations.History
import Manyforge.Lib.Transition

/-!
# Every node is executed once

Any number of stepper processes claim and advance enrollments while leases expire,
processes crash and automations are paused, resumed and archived. Whatever the
interleaving and whatever the graphs, a node of an enrollment is completed at most
once and gets at most one delivery, and a process whose claim has been superseded
commits nothing.
-/
namespace Manyforge

open Table Transition Delivery

/-- What the transactions of the rest of the program may do: they leave the enrollments and their
steps alone, keep every delivery, and cannot make an automation delivery. Only the enqueue
function may insert one, and the guard trigger keeps its authorization. -/
structure Database.Interferes (db db' : Database) : Prop where
  steps : db'.steps = db.steps
  enrollments : db'.enrollments = db.enrollments
  unique : UniqueOn sourceKey db.deliveries → UniqueOn sourceKey db'.deliveries
  kept : ∀ d ∈ db.deliveries, ∃ d' ∈ db'.deliveries, d'.authorization = d.authorization
  noneMade : ∀ d' ∈ db'.deliveries, d'.automationEnrollmentId ≠ none →
    ∃ d ∈ db.deliveries, d'.authorization = d.authorization

theorem Database.Interferes.evolves {db db' : Database} (interferes : db.Interferes db') :
    db.Evolves db' := by
  intro consistent
  constructor
  · constructor
    · rw [interferes.steps]; exact consistent.steps
    · rw [interferes.enrollments]; exact consistent.enrollments
    · exact interferes.unique consistent.deliveries
    · intro d' member owner owned
      have made : d'.automationEnrollmentId ≠ none := by rw [Option.mem_def.mp owned]; simp
      obtain ⟨d, d_mem, same⟩ := interferes.noneMade d' member made
      rw [enrollment_of_authorization same] at owned
      rw [interferes.enrollments, subscriber_of_authorization same]
      exact consistent.owners d d_mem owner owned
  · constructor
    · rw [interferes.steps]; exact fun _ member _ => member
    · exact interferes.kept
    · rw [interferes.enrollments]; exact fun e member => ⟨e, member, rfl, rfl, Nat.le_refl _⟩

/-! ### Stale claims -/

theorem Database.automationRecordStep_lost (db : Database) (r : StepRecord)
    (superseded : db.Superseded r.enrollmentId r.claimGeneration) :
    db.automationRecordStep r = .ok (db, false) := by
  unfold automationRecordStep
  rw [if_pos (superseded.fence none none none)]

theorem Database.automationFailStep_lost (db : Database) (now : Timestamp) (f : StepFailure)
    (superseded : db.Superseded f.enrollmentId f.claimGeneration) :
    (db.automationFailStep now f).2 = false := by
  simp only [automationFailStep, List.any_eq_false, Bool.and_eq_true, beq_iff_eq]
  rintro e member ⟨⟨⟨id, -⟩, generation⟩, -⟩
  exact superseded e member id generation

/-- A transaction that advances a superseded claim commits no change to any row. -/
theorem advanceTx_superseded (config : StepperConfig) (env : SqlEnv) (now : Timestamp)
    (claim : Claim) (db : Database)
    (superseded : db.Superseded claim.enrollment.id claim.enrollment.claimGeneration) :
    advanceTx config env now claim db = db := by
  let stale (tx : Tx) : Prop :=
    tx.db.Superseded claim.enrollment.id claim.enrollment.claimGeneration
  have store : (sqlStepStore env).Respects fun s t => stale s → stale t :=
    sqlStepStore_respects (fun _ h => h)
      (fun _ _ _ _ ran h => Database.automationRecordStep_superseded h ran)
      (fun _ _ _ h => h.of_updateWhere rfl (fun _ => rfl) (fun _ => rfl)) env
  have ports : (config.engine env).deps.Respects fun s t => stale s → stale t := by
    show (sqlDeps env).Respects (Tx.Along fun db db' =>
      db.Superseded claim.enrollment.id claim.enrollment.claimGeneration →
        db'.Superseded claim.enrollment.id claim.enrollment.claimGeneration)
    refine sqlDeps_respects (fun _ h => h) ?_ ?_ env
    · intro db db' spec newId answer ran h
      obtain rfl | ⟨-, -, _, _, -, -, -, rfl⟩ := Database.mailingEnqueueDelivery_cases ran
      · exact h
      · exact h
    · intro db db' _ same _ h
      simpa only [Database.Superseded, same] using h
  have failed : ((config.engine env).advance claim.enrollment claim.graph now ⟨db, false⟩).error ≠
      none := by
    have configured : (config.engine env).deps.steps = some (sqlStepStore env) := rfl
    refine Engine.advance_error_of_lost configured ports store claim.enrollment ?_ ?_ claim.graph
      now ⟨db, false⟩ superseded
    · intro r tx h id generation
      have lost := Database.automationRecordStep_lost tx.db r (by rw [id, generation]; exact h)
      simp only [sqlStepStore, Tx.query, lost]
      split <;> simp
    · intro f tx h id generation
      have lost := Database.automationFailStep_lost tx.db env.now f
        (by rw [id, generation]; exact h)
      simp only [sqlStepStore, Tx.query]
      split
      · simp
      · simp [lost]
  unfold advanceTx commit
  split
  · rfl
  next none => exact absurd none failed

theorem advanceTx_evolves (config : StepperConfig) (env : SqlEnv) (now : Timestamp)
    (claim : Claim) (db : Database) : db.Evolves (advanceTx config env now claim db) := by
  have moved : Tx.Along Database.Evolves ⟨db, false⟩
      ((config.engine env).advance claim.enrollment claim.graph now ⟨db, false⟩).state := by
    have configured : (config.engine env).deps.steps = some (sqlStepStore env) := rfl
    have refl : ∀ tx, Tx.Along Database.Evolves tx tx := fun tx => .refl tx.db
    refine Engine.advance_related refl (fun _ _ _ first rest => Database.Evolves.trans first rest)
      ?_ ?_ configured claim.enrollment claim.graph now _
    · exact sqlDeps_respects .refl (fun _ _ _ _ _ ran => Database.mailingEnqueueDelivery_evolves ran)
        (fun _ _ => .of_same) env
    · exact sqlStepStore_respects .refl
        (fun _ _ _ _ ran => Database.automationRecordStep_evolves ran)
        (fun db now f => db.automationFailStep_evolves now f) env
  unfold advanceTx commit
  split
  · exact .refl db
  · split
    · exact .refl db
    · exact moved

/-! ### The fleet of steppers -/

/-- The database, and the claims each process has taken and not yet advanced. -/
structure Fleet where
  db : Database
  held : Nat → List Claim

/-- `s` with process `p` holding `claims` and the database `db`. -/
def Fleet.set (s : Fleet) (p : Nat) (claims : List Claim) (db : Database) : Fleet :=
  ⟨db, Function.update s.held p claims⟩

/-- One committed transaction of a stepper, of the automation service or of the rest of the
program, or a failure of a process. Leases expire as the clock readings the steps carry pass
them. -/
inductive FleetStep (sourceID : UUID → String → UUID) : Fleet → Fleet → Prop
  | claim (s : Fleet) (p : Nat) (now : Timestamp) (batch lease : Int) (locked : UUID → Bool)
      (idle : s.held p = []) :
      FleetStep sourceID s (s.set p (stepperClaim s.db now batch lease locked).2
        (stepperClaim s.db now batch lease locked).1)
  | advance (s : Fleet) (p : Nat) (config : StepperConfig) (env : SqlEnv) (now : Timestamp)
      (claim : Claim) (rest : List Claim) (source : config.stepSourceID = sourceID)
      (next : s.held p = claim :: rest) :
      FleetStep sourceID s (s.set p rest (advanceTx config env now claim s.db))
  /-- The transaction of the next claim is lost with its connection. -/
  | drop (s : Fleet) (p : Nat) (claim : Claim) (rest : List Claim)
      (next : s.held p = claim :: rest) : FleetStep sourceID s (s.set p rest s.db)
  | crash (s : Fleet) (p : Nat) : FleetStep sourceID s (s.set p [] s.db)
  | pause (s : Fleet) (automation business root : UUID) :
      FleetStep sourceID s { s with db := s.db.pause automation business root }
  | resume (s : Fleet) (automation business root : UUID) :
      FleetStep sourceID s { s with db := s.db.resume automation business root }
  | archive (s : Fleet) (now : Timestamp) (automation business root : UUID) :
      FleetStep sourceID s { s with db := s.db.archive now automation business root }
  | exit (s : Fleet) (now : Timestamp) (enrollment automation business root : UUID) :
      FleetStep sourceID s { s with db := s.db.exitEnrollment now enrollment automation business root }
  | exitForSubscriber (s : Fleet) (now : Timestamp) (subscriber root : UUID) (reason : String) :
      FleetStep sourceID s
        { s with db := s.db.automationExitForSubscriber now subscriber root reason }
  | enroll (s : Fleet) (id business root automation version subscriber : UUID) (node : String)
      (now : Timestamp) :
      FleetStep sourceID s
        { s with
          db := s.db.insertEnrollment
            (Database.newEnrollment id business root automation version subscriber node now) }
  | other (s : Fleet) (db : Database) (interferes : s.db.Interferes db) :
      FleetStep sourceID s { s with db }

theorem stepperClaim_evolves (db : Database) (now : Timestamp) (batch lease : Int)
    (locked : UUID → Bool) : db.Evolves (stepperClaim db now batch lease locked).1 := by
  simp only [stepperClaim]
  split
  · exact .refl db
  · exact db.automationClaimDue_evolves now batch lease locked

/-- No worker takes back what another one has recorded. -/
theorem FleetStep.evolves {sourceID : UUID → String → UUID} {s t : Fleet}
    (step : FleetStep sourceID s t) : s.db.Evolves t.db := by
  cases step with
  | claim => exact stepperClaim_evolves _ _ _ _ _
  | advance => exact advanceTx_evolves _ _ _ _ _
  | drop | crash => exact .refl _
  | pause | resume => exact s.db.transition_evolves _ _ _ _ _
  | archive => exact s.db.archive_evolves _ _ _ _
  | exit => exact s.db.exitEnrollment_evolves _ _ _ _ _
  | exitForSubscriber => exact s.db.automationExitForSubscriber_evolves _ _ _ _
  | enroll => exact s.db.insertEnrollment_evolves _
  | other _ interferes => exact interferes.evolves

/-- Any interleaving of workers keeps the tables consistent. -/
theorem fleet_consistent (sourceID : UUID → String → UUID) :
    Preserved (FleetStep sourceID) fun s => s.db.Consistent :=
  fun _ _ step consistent => (step.evolves consistent).1

/-! ### Nodes and their deliveries -/

/-- The delivery was enqueued by this node of this enrollment. -/
def Delivery.forNode (sourceID : UUID → String → UUID) (enrollment : UUID) (node : String)
    (d : Delivery) : Bool :=
  d.automationEnrollmentId == some enrollment && d.sourceKind == .automation &&
    d.sourceId == sourceID enrollment node

theorem Delivery.forNode_of_authorization {sourceID : UUID → String → UUID} {enrollment : UUID}
    {node : String} {d d' : Delivery} (same : d'.authorization = d.authorization) :
    d'.forNode sourceID enrollment node = d.forNode sourceID enrollment node := by
  have key := sourceKey_of_authorization same
  simp only [sourceKey, Prod.mk.injEq] at key
  simp only [forNode, enrollment_of_authorization same, key.1, key.2.1]

/-- Two deliveries of one node agree in the conflict target, because the subscriber is that of
the enrollment. -/
theorem Database.Consistent.forNode_sourceKey {db : Database} (consistent : db.Consistent)
    {sourceID : UUID → String → UUID} {enrollment : UUID} {node : String} {d₁ d₂ : Delivery}
    (mem₁ : d₁ ∈ db.deliveries) (mem₂ : d₂ ∈ db.deliveries)
    (node₁ : d₁.forNode sourceID enrollment node = true)
    (node₂ : d₂.forNode sourceID enrollment node = true) : d₁.sourceKey = d₂.sourceKey := by
  simp only [forNode, Bool.and_eq_true, beq_iff_eq] at node₁ node₂
  obtain ⟨⟨owner₁, kind₁⟩, source₁⟩ := node₁
  obtain ⟨⟨owner₂, kind₂⟩, source₂⟩ := node₂
  obtain ⟨e₁, e₁_mem, id₁, subscriber₁⟩ := consistent.owners d₁ mem₁ enrollment owner₁
  obtain ⟨e₂, e₂_mem, id₂, subscriber₂⟩ := consistent.owners d₂ mem₂ enrollment owner₂
  have same := consistent.enrollments.eq_of_key e₁_mem e₂_mem (id₁.trans id₂.symm)
  subst same
  simp only [sourceKey, kind₁, kind₂, source₁, source₂, ← subscriber₁, ← subscriber₂]

theorem Database.Later.stepCompleted {db db' : Database} (later : db.Later db') (enrollment : UUID)
    (node : String) (completed : db.stepCompleted enrollment node = true) :
    db'.stepCompleted enrollment node = true := by
  obtain ⟨row, member, holds⟩ := List.any_eq_true.mp completed
  refine List.any_eq_true.mpr ⟨row, later.steps row member ?_, holds⟩
  simp only [Bool.and_eq_true] at holds
  exact holds.2

theorem Database.Later.delivered {db db' : Database} (later : db.Later db')
    {sourceID : UUID → String → UUID} {enrollment : UUID} {node : String}
    (delivered : db.deliveries.any (forNode sourceID enrollment node) = true) :
    db'.deliveries.any (forNode sourceID enrollment node) = true := by
  obtain ⟨d, member, holds⟩ := List.any_eq_true.mp delivered
  obtain ⟨d', member', same⟩ := later.deliveries d member
  exact List.any_eq_true.mpr ⟨d', member', (forNode_of_authorization same).trans holds⟩

theorem Database.Consistent.superseded {db : Database} (consistent : db.Consistent)
    {row : AutomationEnrollment} (member : row ∈ db.enrollments) {generation : Nat}
    (older : generation < row.claimGeneration) : db.Superseded row.id generation := by
  intro e e_mem same generation_eq
  have equal := consistent.enrollments.eq_of_key e_mem member same
  subst equal
  omega

/-- In every run of the fleet, a node of an enrollment turns completed at most once, has at most
one step row and keeps the completed one unchanged; it gets at most one delivery row, which
stays; and a claim of an older generation commits nothing. -/
theorem fleet_exactly_once (sourceID : UUID → String → UUID) (start : Fleet) (visited : List Fleet)
    (consistent : start.db.Consistent) (run : Run (FleetStep sourceID) start visited)
    (enrollment : UUID) (node : String) :
    switches (fun s => s.db.stepCompleted enrollment node) (start :: visited) ≤ 1 ∧
    (∀ s ∈ start :: visited,
      (s.db.steps.filter fun row => row.key == (enrollment, node)).length ≤ 1) ∧
    (start :: visited).Pairwise (fun s t => ∀ row ∈ s.db.steps,
      row.key = (enrollment, node) → row.completedAt.isSome → row ∈ t.db.steps) ∧
    switches (fun s => s.db.deliveries.any (forNode sourceID enrollment node))
      (start :: visited) ≤ 1 ∧
    (∀ s ∈ start :: visited,
      (s.db.deliveries.filter (forNode sourceID enrollment node)).length ≤ 1) ∧
    (start :: visited).Pairwise (fun s t => ∀ d ∈ s.db.deliveries,
      d.forNode sourceID enrollment node = true →
        ∃ d' ∈ t.db.deliveries, d'.authorization = d.authorization) ∧
    (∀ s ∈ start :: visited, ∀ row ∈ s.db.enrollments, ∀ claim : Claim,
      claim.enrollment.id = row.id → claim.enrollment.claimGeneration < row.claimGeneration →
        ∀ config env now, advanceTx config env now claim s.db = s.db) := by
  have kept := fleet_consistent sourceID
  have reached : ∀ s ∈ start :: visited, s.db.Consistent := fun s member =>
    kept.reaches (run.reaches s member) consistent
  have later : (start :: visited).Pairwise fun s t => s.db.Later t.db :=
    run.pairwise kept (fun s => .refl s.db) (fun _ _ _ => .trans)
      (fun _ _ step consistent => (step.evolves consistent).2) consistent
  refine ⟨?_, ?_, ?_, ?_, ?_, ?_, ?_⟩
  · refine switches_le_one _ kept (fun s t step consistent completed => ?_) run consistent
    exact (step.evolves consistent).2.stepCompleted enrollment node completed
  · intro s member
    refine (reached s member).steps.filter_length_le_one fun a _ b _ chosen_a chosen_b => ?_
    simp only [beq_iff_eq] at chosen_a chosen_b
    exact chosen_a.trans chosen_b.symm
  · exact later.imp fun grown row member _ completed => grown.steps row member completed
  · refine switches_le_one _ kept (fun s t step consistent delivered => ?_) run consistent
    exact (step.evolves consistent).2.delivered delivered
  · intro s member
    exact (reached s member).deliveries.filter_length_le_one fun _ a_mem _ b_mem a_node b_node =>
      (reached s member).forNode_sourceKey a_mem b_mem a_node b_node
  · exact later.imp fun grown d member _ => grown.deliveries d member
  · intro s member row row_mem claim same older config env now
    have superseded := (reached s member).superseded row_mem older
    rw [← same] at superseded
    exact advanceTx_superseded config env now claim s.db superseded

/-- A superseded claim commits nothing in any later state. -/
theorem superseded_for_good {sourceID : UUID → String → UUID} {s t : Fleet}
    (consistent : s.db.Consistent)
    (run : Reaches (FleetStep sourceID) s t) {row : AutomationEnrollment}
    (member : row ∈ s.db.enrollments) {claim : Claim} (same : claim.enrollment.id = row.id)
    (older : claim.enrollment.claimGeneration < row.claimGeneration) (config : StepperConfig)
    (env : SqlEnv) (now : Timestamp) : advanceTx config env now claim t.db = t.db := by
  have kept := fleet_consistent sourceID
  have later : s.db.Later t.db := kept.related (fun s => .refl s.db) (fun _ _ _ => .trans)
    (fun _ _ step consistent => (step.evolves consistent).2) run consistent
  obtain ⟨row', member', id, -, generation⟩ := later.enrollments row member
  have superseded := (kept.reaches run consistent).superseded member' (older.trans_le generation)
  rw [id, ← same] at superseded
  exact advanceTx_superseded config env now claim t.db superseded

namespace Sample

def fleet : Fleet := ⟨database, fun _ => []⟩

def fleetClaimed : Fleet := fleet.set 0 claimed.2 claimed.1

def fleetAdvanced : Fleet :=
  fleetClaimed.set 0 [] (advanceTx (config 2) env 0 claim fleetClaimed.db)

theorem database_consistent : database.Consistent where
  steps := by simp [UniqueOn, database]
  enrollments := by simp [UniqueOn, database]
  deliveries := by simp [UniqueOn, database]
  owners := by simp [database]

theorem fleet_run : Run (FleetStep sourceID) fleet [fleetClaimed, fleetAdvanced] := by
  refine List.isChain_cons_cons.mpr ⟨.claim fleet 0 0 50 60000000 _ rfl, ?_⟩
  refine List.isChain_cons_cons.mpr ⟨?_, List.isChain_singleton _⟩
  exact .advance fleetClaimed 0 (config 2) env 0 claim [] rfl rfl

/-- In this run the message node is completed and delivered exactly once. -/
theorem fleet_exactly_once_welcome :
    fleetAdvanced.db.stepCompleted 70 "welcome" = true ∧
    fleetAdvanced.db.deliveries.any (forNode sourceID 70 "welcome") = true ∧
    switches (fun s => s.db.stepCompleted 70 "welcome") [fleet, fleetClaimed, fleetAdvanced] ≤ 1 :=
  ⟨by decide, by decide,
    (fleet_exactly_once sourceID fleet _ database_consistent fleet_run 70 "welcome").1⟩

theorem unclaimed_for_good :
    advanceTx (config 2) env 1 { claim with enrollment.claimGeneration := 0 } fleetAdvanced.db =
      fleetAdvanced.db := by
  have reached :=
    (fleet_consistent _).reaches (fleet_run.reaches fleetClaimed (by simp)) database_consistent
  exact superseded_for_good reached
    (.single (.advance fleetClaimed 0 (config 2) env 0 claim [] rfl rfl))
    List.mem_cons_self rfl (by decide) _ _ _

end Sample

end Manyforge
