import Manyforge.Automations.Engine
import Manyforge.Automations.Validate

/-!
# What the validator guarantees to the engine

A graph without issues is one the engine can run: every configuration decodes in
the engine as it did in the validator, every edge leads to a node, and the nodes
have a rank that grows along every edge.
-/
namespace Manyforge

open Validate ValidateConfig
open EngagementPredicate (decode)

structure ValidGraph (rt : Runtime) (refs : References) (graph : Graph) : Prop where
  nodup : (graph.nodes.map (·.id)).Nodup
  nodes : ∀ node ∈ graph.nodes,
    graphIDPattern node.id = true ∧ (validateConfig rt node refs).1 = []
  edges : ∀ edge ∈ graph.edges, hasNode graph edge.source = true ∧ hasNode graph edge.target = true
  acyclic : graphHasCycle graph = false
  engagement : ∀ ref ∈ conditionReferences rt refs graph,
    (lookup graph ref.2).any (fun node => node.kind = .sendEmail) = true ∧
      isAncestor graph ref.2 ref.1 = true

theorem issue_nil {p : Prop} [Decidable p] {issue : Issue} :
    (if p then [issue] else []) = [] ↔ ¬p := by
  by_cases holds : p <;> simp [holds]

variable {seen : List String}

/-- One turn of a loop that also reports the ids it has seen before. -/
theorem distinct_cons {α : Type} {id : α → String} {good : α → Prop} {item : α} {rest : List α} :
    ((item :: rest).map id).Nodup ∧ (∀ other ∈ item :: rest, id other ∉ seen ∧ good other) ↔
      (id item ∉ seen ∧ good item) ∧ (rest.map id).Nodup ∧
        ∀ other ∈ rest, id other ∉ seen ++ [id item] ∧ good other := by
  simp only [List.map_cons, List.nodup_cons, List.forall_mem_cons, List.mem_append,
    List.mem_singleton, List.mem_map]
  constructor
  · rintro ⟨⟨fresh, nodup⟩, first, later⟩
    refine ⟨first, nodup, fun other member => ⟨?_, (later other member).2⟩⟩
    rintro (old | same)
    · exact (later other member).1 old
    · exact fresh ⟨other, member, same⟩
  · rintro ⟨first, nodup, later⟩
    refine ⟨⟨?_, nodup⟩, first, fun other member => ?_⟩
    · rintro ⟨other, member, same⟩
      exact (later other member).1 (.inr same)
    · exact ⟨fun old => (later other member).1 (.inl old), (later other member).2⟩

variable {refs : References} {rt : Runtime} {graph : Graph} {node : Node}

theorem nodeIssues_nil {nodes : List Node} : nodeIssues rt refs seen nodes = [] ↔
    (nodes.map (·.id)).Nodup ∧ ∀ node ∈ nodes, node.id ∉ seen ∧ graphIDPattern node.id = true ∧
      byteLength node.name ≤ 200 ∧ (validateConfig rt node refs).1 = [] := by
  induction nodes generalizing seen with
  | nil => simp [nodeIssues]
  | cons node rest ih =>
    rw [distinct_cons, ← ih]
    simp only [nodeIssues, List.append_eq_nil_iff, issue_nil, Bool.not_eq_false, Nat.not_lt, gt_iff_lt]
    tauto

theorem edgeIssues_nil {edges : List Edge} : edgeIssues graph seen edges = [] ↔
    (edges.map (·.id)).Nodup ∧ ∀ edge ∈ edges, edge.id ∉ seen ∧ graphIDPattern edge.id = true ∧
      (hasNode graph edge.source = true ∧ hasNode graph edge.target = true) ∧
        edge.source ≠ edge.target := by
  induction edges generalizing seen with
  | nil => simp [edgeIssues]
  | cons edge rest ih =>
    rw [distinct_cons, ← ih]
    have ends : (if hasNode graph edge.source = false ∨ hasNode graph edge.target = false then
        [edgeIssue "edge_unknown_node" edge.id "edge endpoints must reference existing nodes"]
        else if edge.source = edge.target then
          [edgeIssue "self_loop" edge.id "self-loop edges are not allowed"]
        else []) = [] ↔
        (hasNode graph edge.source = true ∧ hasNode graph edge.target = true) ∧
          edge.source ≠ edge.target := by
      by_cases unknown : hasNode graph edge.source = false ∨ hasNode graph edge.target = false
      · rcases unknown with unknown | unknown <;> simp [unknown]
      · simp only [not_or, Bool.not_eq_false] at unknown
        simp [unknown]
    simp only [edgeIssues, List.append_eq_nil_iff, issue_nil, Bool.not_eq_false, ends]
    tauto

/-- A graph without validation errors is valid. -/
theorem validGraph_of_validate (valid : validate rt graph refs = []) :
    ValidGraph rt refs graph := by
  simp only [validate, List.append_eq_nil_iff, issue_nil] at valid
  obtain ⟨⟨⟨⟨⟨⟨⟨⟨-, nodes⟩, -⟩, edges⟩, -⟩, -⟩, cycle⟩, -⟩, ancestors⟩ := valid
  obtain ⟨nodup, nodes⟩ := nodeIssues_nil.mp nodes
  refine ⟨nodup, fun node member => ?_, fun edge member =>
    ((edgeIssues_nil.mp edges).2 edge member).2.2.1, by simpa using cycle, fun ref member => ?_⟩
  · obtain ⟨-, id, -, config⟩ := nodes node member
    exact ⟨id, config⟩
  · have clean := List.flatMap_eq_nil_iff.mp ancestors ref member
    simp only [] at clean
    split at clean
    next holds => simpa using holds
    next => cases clean

/-! ### The shape of the graph -/

theorem hasNode_iff {id : String} :
    hasNode graph id = true ↔ ∃ node ∈ graph.nodes, node.id = id := by
  simp [hasNode]

theorem Graph.node?_some {id : String} (found : graph.node? id = some node) :
    node ∈ graph.nodes ∧ node.id = id :=
  ⟨by simpa using List.mem_of_find?_eq_some found, by simpa using List.find?_some found⟩

theorem Graph.node?_isSome {id : String} (known : hasNode graph id = true) :
    ∃ node, graph.node? id = some node := by
  rw [← Option.isSome_iff_exists]
  simpa [Graph.node?, hasNode] using known

def Graph.Adjacent (graph : Graph) (u v : String) : Prop :=
  ∃ edge ∈ graph.edges, edge.source = u ∧ edge.target = v

def Graph.rank (graph : Graph) (id : String) : Nat :=
  (Digraph.kahnOrder (nodeKeys graph) (edgePairs graph)).idxOf id

namespace ValidGraph

variable {rt : Runtime} {refs : References} {graph : Graph} (valid : ValidGraph rt refs graph)

include valid

theorem adjacent_known {u v : String} (adjacent : graph.Adjacent u v) :
    hasNode graph u = true ∧ hasNode graph v = true := by
  obtain ⟨edge, member, rfl, rfl⟩ := adjacent
  exact valid.edges edge member

theorem mem_edgePairs {u v : String} : (u, v) ∈ edgePairs graph ↔ graph.Adjacent u v := by
  constructor
  · intro member
    obtain ⟨edge, edge_mem, same⟩ := List.mem_map.mp member
    obtain ⟨rfl, rfl⟩ := Prod.mk.inj same
    exact ⟨edge, (List.mem_filter.mp edge_mem).1, rfl, rfl⟩
  · rintro ⟨edge, edge_mem, rfl, rfl⟩
    refine List.mem_map.mpr ⟨edge, List.mem_filter.mpr ⟨edge_mem, ?_⟩, rfl⟩
    simpa using valid.edges edge edge_mem

theorem rank_lt {u v : String} (adjacent : graph.Adjacent u v) : graph.rank u < graph.rank v := by
  refine (Digraph.kahnOrder_rank (List.nodup_dedup _) ?_ ?_ (valid.mem_edgePairs.mpr adjacent)).1
  · rintro ⟨u, v⟩ member
    have known := (valid.adjacent_known (valid.mem_edgePairs.mp member)).2
    obtain ⟨node, node_mem, same⟩ := hasNode_iff.mp known
    exact List.mem_dedup.mpr (List.mem_map.mpr ⟨node, node_mem, same⟩)
  · have complete := valid.acyclic
    simp only [graphHasCycle, ne_eq, decide_eq_false_iff_not, Decidable.not_not] at complete
    exact complete

end ValidGraph

/-! ### Configurations -/

theorem sendEmail_decodes (valid : (sendEmail rt node refs).1 = []) :
    ∃ templateId trackOpens trackClicks, templateId ≠ 0 ∧
      SendEmailConfig.decode rt node.config =
        some ⟨templateId, some trackOpens, some trackClicks⟩ := by
  unfold sendEmail at valid
  split at valid
  next templateId trackOpens trackClicks decoded =>
    split at valid
    · cases valid
    next nonzero => exact ⟨templateId, trackOpens, trackClicks, nonzero, decoded⟩
  · cases valid

theorem wait_decodes (valid : (wait rt node).1 = []) (now : Timestamp) :
    ∃ wakeAt, waitUntil rt node.config now = .ok wakeAt := by
  unfold wait at valid
  unfold waitUntil
  cases decoded : WaitConfig.decode node.config with
  | none => rw [decoded] at valid; cases valid
  | some cfg =>
    rw [decoded] at valid
    simp only [] at valid ⊢
    by_cases duration : cfg.mode = "duration"
    · rw [if_pos duration] at valid ⊢
      split at valid
      · cases valid
      next accepted =>
      simp only [not_or] at accepted
      obtain ⟨seconds, weekday, time, timezone⟩ := accepted
      cases given : cfg.seconds with
      | none => simp [given] at seconds
      | some n =>
        have range : ¬(n < 60 ∨ n > 31536000) := by simpa [given] using seconds
        simp only [not_or] at range
        exact ⟨_, if_neg (by simp only [not_or]; exact ⟨range.1, range.2, weekday, time, timezone⟩)⟩
    · rw [if_neg duration] at valid ⊢
      split at valid
      next until_mode =>
        split at valid
        · cases valid
        next accepted =>
        simp only [not_or, Bool.not_eq_false] at accepted
        obtain ⟨seconds, weekday, clock⟩ := accepted
        split at valid
        · cases valid
        next zone =>
        obtain ⟨hourText, minuteText, hour, minute, split, read_hour, read_minute, range⟩ :=
          validClock_reads clock
        obtain ⟨location, loaded⟩ : ∃ location, rt.loadLocation cfg.timezone = some location :=
          Option.ne_none_iff_exists'.mp (by simpa using zone)
        rw [if_neg (by simp only [not_or]; exact ⟨fun other => other until_mode, seconds, weekday⟩)]
        simp only [split, read_hour, read_minute]
        rw [if_neg range, loaded]
        exact ⟨_, rfl⟩
      · cases valid

/-! ### One node -/

/-- The answer leaves a state in `inv`, and an error it returns is an allowed one. -/
def Yields {ε α σ : Type} (inv : σ → Prop) (allowed : ε → Prop) (answer : Except ε α × σ) : Prop :=
  inv answer.2 ∧ ∀ error, answer.1 = .error error → allowed error

/-- From the states of `inv`, the ports stay in `inv` and return only allowed errors. -/
structure Deps.Answers {σ : Type} (deps : Deps σ) (inv : σ → Prop) (allowed : EngineError → Prop) :
    Prop where
  subscribers : deps.subscribers = none → allowed .subscribersNotConfigured
  snapshot : ∀ reader ∈ deps.subscribers, ∀ id s, inv s →
    Yields inv (allowed <| .dependency ·) (reader.snapshot id s)
  activeOnList : ∀ reader ∈ deps.subscribers, ∀ business email list s, inv s →
    Yields inv (allowed <| .dependency ·) (reader.activeOnList business email list s)
  sender : deps.sender = none → allowed .senderNotConfigured
  enqueue : ∀ enqueue ∈ deps.sender, ∀ spec s, inv s →
    Yields inv (allowed <| .dependency ·) (enqueue spec s)
  engagement : deps.engagement = none → allowed .engagementNotConfigured
  engagementOf : ∀ reader ∈ deps.engagement, ∀ id s, inv s →
    Yields inv (allowed <| .dependency ·) (reader id s)
  tagger : deps.tagger = none → allowed .taggerNotConfigured
  addTag : ∀ tagger ∈ deps.tagger, ∀ spec s, inv s →
    Yields inv (allowed <| .dependency ·) (tagger.addTag spec s)
  removeTag : ∀ tagger ∈ deps.tagger, ∀ spec s, inv s →
    Yields inv (allowed <| .dependency ·) (tagger.removeTag spec s)

/-- The same for what a node reads from the store. -/
structure StepStore.Answers {σ : Type} (steps : StepStore σ) (inv : σ → Prop)
    (allowed : EngineError → Prop) : Prop where
  waiting : ∀ enrollment node s, inv s →
    Yields inv (allowed <| .dependency ·) (steps.waiting enrollment node s)
  delivery : ∀ enrollment node s, inv s →
    Yields inv (allowed <| .dependency ·) (steps.delivery enrollment node s)
  eventExists : ∀ q s, inv s → Yields inv (allowed <| .dependency ·) (steps.eventExists q s)

/-- The state a decision leaves is in `inv`, and it fails or aborts only with an allowed error. -/
def Engine.Decision.Yields {σ : Type} (inv : σ → Prop) (allowed : EngineError → Prop) :
    Engine.Decision σ → Prop
  | .fail s cause => inv s ∧ allowed cause
  | .abort s error => inv s ∧ allowed error
  | .recordAndStop s _ _ | .record s _ _ => inv s

section Node

variable {σ : Type} {inv : σ → Prop} {allowed : EngineError → Prop} {engine : Engine σ}
  {steps : StepStore σ}

theorem Yields.ok {ε α : Type} {allowed : ε → Prop} {value : α} {s : σ} (held : inv s) :
    Yields inv allowed (.ok value, s) :=
  ⟨held, fun _ impossible => nomatch impossible⟩

theorem Yields.error {ε α : Type} {allowed : ε → Prop} {error : ε} {s : σ} (held : inv s)
    (good : allowed error) : Yields inv allowed ((.error error, s) : Except ε α × σ) :=
  ⟨held, fun _ same => by cases same; exact good⟩

theorem andThen_yields {α β : Type} {answer : Except DepError α × σ}
    {next : α → σ → Except EngineError β × σ} (first : Yields inv (allowed <| .dependency ·) answer)
    (rest : ∀ value t, inv t → Yields inv allowed (next value t)) :
    Yields inv allowed (andThen answer next) := by
  obtain ⟨result, t⟩ := answer
  cases result with
  | error error => exact .error first.1 (first.2 error rfl)
  | ok value => exact rest value t first.1

namespace Engine

-- Each rule has a hypothesis `faulty`: a configuration the validator refuses may fail with any
-- error. For an accepted one it is void, and for a result about the state alone every error is
-- allowed.
variable (answers : engine.deps.Answers inv allowed) (store : steps.Answers inv allowed)

include answers

variable {s : σ} {node : Node}

theorem snapshot_yields (id : UUID) (held : inv s) : Yields inv allowed (engine.snapshot id s) := by
  unfold snapshot
  cases found : engine.deps.subscribers with
  | none => exact .error held (answers.subscribers found)
  | some reader => exact andThen_yields (answers.snapshot reader found id s held) fun _ _ => .ok

private theorem withSnapshot_yields {β : Type} (id : UUID) (held : inv s)
    {next : SubscriberSnapshot → σ → Except EngineError β × σ}
    (rest : ∀ snapshot t, inv t → Yields inv allowed (next snapshot t)) :
    Yields inv allowed (match engine.snapshot id s with
      | (.error error, s) => (.error error, s)
      | (.ok snapshot, s) => next snapshot s) := by
  have first := snapshot_yields answers id held
  rcases taken : engine.snapshot id s with ⟨result, t⟩
  rw [taken] at first
  cases result with
  | error error => exact .error first.1 (first.2 error rfl)
  | ok snapshot => exact rest snapshot t first.1

include store in
theorem evaluateEngagement_yields {raw : RawMessage}
    (faulty : decode raw = none → ∀ error, allowed error) (enrollment : Enrollment) (opened : Bool)
    (held : inv s) :
    Yields inv allowed (engine.evaluateEngagement steps enrollment raw opened s) := by
  unfold evaluateEngagement
  cases decoded : decode raw with
  | none => exact .error held (faulty decoded _)
  | some predicate =>
    refine andThen_yields (store.delivery _ _ s held) fun deliveryId t held => ?_
    cases deliveryId with
    | none => exact .ok held
    | some deliveryId =>
      cases found : engine.deps.engagement with
      | none => exact .error held (answers.engagement found)
      | some reader =>
        refine andThen_yields (answers.engagementOf reader found _ t held) fun engagement u held => ?_
        cases opened with
        | true => exact .ok held
        | false => cases predicate.url with
          | none | some url => exact .ok held

include store in
theorem evaluateCondition_yields {refs : References}
    (faulty : (condition engine.runtime node refs).1 ≠ [] → ∀ error, allowed error)
    (enrollment : Enrollment) (now : Timestamp) (held : inv s) :
    Yields inv allowed (engine.evaluateCondition steps enrollment node.config now s) := by
  unfold evaluateCondition
  unfold condition at faulty
  split at faulty
  next config => rw [config]; exact .error held (faulty (by simp [bad]) _)
  next config => rw [config]; exact .error held (faulty (by simp [bad]) _)
  next raw nonempty config =>
  rw [config]
  cases typed : unmarshalPredicateType raw with
  | none =>
    simp only [typed]
    exact .error held (faulty (by simp [typed, bad]) _)
  | some type =>
    rw [typed] at faulty
    simp only [typed] at faulty ⊢
    split_ifs at faulty ⊢ with opened clicked tagged listed event
    · refine evaluateEngagement_yields answers store (fun failed => faulty ?_) _ _ held
      cases decoded : decodeOpenedEmail raw with
      | none => simp [bad]
      | some p => cases (decodeOpenedEmail_decode decoded).symm.trans failed
    · refine evaluateEngagement_yields answers store (fun failed => faulty ?_) _ _ held
      simp [failed, bad]
    · unfold evaluateHasTag
      cases decoded : TagPredicate.decode raw with
      | none => exact .error held (faulty (by simp [decoded, bad]) _)
      | some p => exact withSnapshot_yields answers _ held fun _ _ => .ok
    · unfold evaluateOnList
      cases decoded : ListPredicate.decode engine.runtime raw with
      | none => exact .error held (faulty (by simp [decoded, bad]) _)
      | some p =>
        simp only []
        split
        next zero => exact .error held (faulty (by simp [decoded, zero, bad]) _)
        next =>
        refine withSnapshot_yields answers _ held fun snapshot t held => ?_
        cases found : engine.deps.subscribers with
        | none => exact .error held (answers.subscribers found)
        | some reader =>
          exact andThen_yields (answers.activeOnList reader found _ _ _ t held) fun _ _ => .ok
    · unfold evaluateEventReceived
      cases decoded : EventPredicate.decode raw with
      | none => exact .error held (faulty (by simp [decoded, bad]) _)
      | some p =>
        exact withSnapshot_yields answers _ held fun snapshot t held =>
          andThen_yields (store.eventExists _ t held) fun _ _ => .ok
    · exact .error held (faulty (by simp [bad]) _)

omit answers in
theorem afterPort_yields {α : Type} {record : α → StepRecord} {next : String}
    {answer : Except DepError α × σ} (answered : Yields inv (allowed <| .dependency ·) answer) :
    (afterPort record next answer).Yields inv allowed := by
  obtain ⟨result, t⟩ := answer
  cases result with
  | error error =>
    have good := answered.2 error rfl
    simp only [afterPort]
    split
    · exact ⟨answered.1, good⟩
    · exact ⟨answered.1, good⟩
  | ok value => exact answered.1

theorem performSendEmail_yields {refs : References}
    (faulty : (sendEmail engine.runtime node refs).1 ≠ [] → ∀ error, allowed error)
    (enrollment : Enrollment) (next : String) (now : Timestamp) (held : inv s) :
    (engine.performSendEmail enrollment node next now s).Yields inv allowed := by
  have first := snapshot_yields answers enrollment.subscriberId held
  simp only [performSendEmail]
  rcases taken : engine.snapshot enrollment.subscriberId s with ⟨result, t⟩
  rw [taken] at first
  cases result with
  | error error => exact ⟨first.1, first.2 error rfl⟩
  | ok snapshot =>
    simp only []
    split
    · exact first.1
    · split
      next templateId trackOpens trackClicks decoded =>
        split
        next zero => exact ⟨first.1, faulty (by simp [sendEmail, decoded, zero, bad]) _⟩
        next => cases found : engine.deps.sender with
          | none => exact ⟨first.1, answers.sender found⟩
          | some enqueue => exact afterPort_yields (answers.enqueue enqueue found _ t first.1)
      next undecoded =>
      refine ⟨first.1, faulty (fun valid => ?_) _⟩
      obtain ⟨templateId, trackOpens, trackClicks, -, decoded⟩ := sendEmail_decodes valid
      exact undecoded templateId trackOpens trackClicks decoded

omit answers in
include store in
theorem performWait_yields (faulty : (wait engine.runtime node).1 ≠ [] → ∀ error, allowed error)
    (enrollment : Enrollment) (next : String) (now : Timestamp) (held : inv s) :
    (engine.performWait steps enrollment node next now s).Yields inv allowed := by
  have first := store.waiting enrollment.id node.id s held
  simp only [performWait]
  rcases taken : steps.waiting enrollment.id node.id s with ⟨result, t⟩
  rw [taken] at first
  cases result with
  | error error => exact ⟨first.1, first.2 error rfl⟩
  | ok waiting =>
    cases waiting with
    | true => exact first.1
    | false => cases read : waitUntil engine.runtime node.config now with
      | ok wakeAt => exact first.1
      | error cause =>
        refine ⟨first.1, faulty (fun valid => ?_) _⟩
        obtain ⟨wakeAt, ok⟩ := wait_decodes valid now
        cases read.symm.trans ok

theorem performTag_yields (faulty : (tag node).1 ≠ [] → ∀ error, allowed error)
    (enrollment : Enrollment) (next : String) (now : Timestamp) (held : inv s) :
    (engine.performTag enrollment node next now s).Yields inv allowed := by
  simp only [performTag]
  cases decoded : TagConfig.decode node.config with
  | none => exact ⟨held, faulty (by simp [tag, decoded, bad]) _⟩
  | some cfg =>
    simp only []
    split
    next empty =>
      exact ⟨held, faulty (by simp [tag, decoded, validLabel, empty, bad]) _⟩
    next => cases found : engine.deps.tagger with
      | none => exact ⟨held, answers.tagger found⟩
      | some tagger =>
        simp only []
        split
        · have first := snapshot_yields answers enrollment.subscriberId held
          rcases taken : engine.snapshot enrollment.subscriberId s with ⟨result, t⟩
          rw [taken] at first
          cases result with
          | error error => exact ⟨first.1, first.2 error rfl⟩
          | ok snapshot =>
            simp only []
            split
            · exact first.1
            · exact afterPort_yields (answers.addTag tagger found _ t first.1)
        · exact afterPort_yields (answers.removeTag tagger found _ s held)

include store in
/-- A node the validator accepts fails or aborts only with an error the ports are allowed. -/
theorem perform_yields {refs : References}
    (faulty : (validateConfig engine.runtime node refs).1 ≠ [] → ∀ error, allowed error)
    (graph : Graph) (enrollment : Enrollment) (now : Timestamp) (held : inv s) :
    (engine.perform steps graph enrollment node now s).Yields inv allowed := by
  unfold perform
  unfold validateConfig at faulty
  cases kind : node.kind with
  | trigger | exit => exact held
  | sendEmail => rw [kind] at faulty; exact performSendEmail_yields answers faulty _ _ _ held
  | wait => rw [kind] at faulty; exact performWait_yields store faulty _ _ _ held
  | condition =>
    rw [kind] at faulty
    have evaluated := evaluateCondition_yields answers store faulty enrollment now held
    simp only [performCondition]
    rcases taken : engine.evaluateCondition steps enrollment node.config now s with ⟨result, t⟩
    rw [taken] at evaluated
    cases result with
    | error error => exact ⟨evaluated.1, evaluated.2 error rfl⟩
    | ok yes => exact evaluated.1
  | addTag | removeTag => rw [kind] at faulty; exact performTag_yields answers faulty _ _ _ held
  | unknown other => rw [kind] at faulty; exact ⟨held, faulty (by simp) _⟩

end Engine

end Node

section Engagement

variable {raw : RawMessage} {type : String} (config : decodePredicate node.config = some raw)
  (typed : unmarshalPredicateType raw = some type)
  (engagement : type = "opened_email" ∨ type = "clicked_link") {predicate : EngagementPredicate}
  (decoded : decode raw = some predicate)

include config typed engagement decoded

theorem condition_names (valid : (condition rt node refs).1 = []) :
    (condition rt node refs).2 = predicate.nodeId ∧
      graphIDPattern predicate.nodeId = true := by
  unfold condition at valid ⊢
  split at valid
  · cases valid
  · cases valid
  next raw' nonempty config' =>
  rw [config'] at config
  cases config
  rw [typed] at valid ⊢
  simp only [] at valid ⊢
  by_cases opened : type = "opened_email"
  · simp only [if_pos opened] at valid ⊢
    cases validated : decodeOpenedEmail raw with
    | none => rw [validated] at valid; cases valid
    | some p =>
      rw [validated] at valid
      have same := (decodeOpenedEmail_decode validated).symm.trans decoded
      cases same
      simp only [] at valid ⊢
      split_ifs at valid ⊢ with accepted
      · cases valid
      · exact ⟨rfl, by simpa using accepted⟩
  · have clicked : type = "clicked_link" := engagement.resolve_left opened
    simp only [if_neg opened, if_pos clicked, decoded] at valid ⊢
    split_ifs at valid ⊢ with accepted
    · cases valid
    · simp only [not_or, Bool.not_eq_false] at accepted
      exact ⟨rfl, accepted.1⟩

theorem ValidGraph.engagement_names (valid : ValidGraph rt refs graph) (member : node ∈ graph.nodes)
    (condition : node.kind = .condition) :
    ∃ send ∈ graph.nodes, send.id = predicate.nodeId ∧ send.kind = .sendEmail ∧
      Relation.TransGen graph.Adjacent send.id node.id := by
  have clean := (valid.nodes node member).2
  have kind : validateConfig rt node refs = ValidateConfig.condition rt node refs := by
    simp only [validateConfig, condition]
  rw [kind] at clean
  obtain ⟨named, pattern⟩ := condition_names config typed engagement decoded clean
  have referenced : (node.id, predicate.nodeId) ∈ conditionReferences rt refs graph := by
    refine List.mem_filter.mpr ⟨List.mem_map.mpr ⟨node, member, by rw [kind, named]⟩, ?_⟩
    have nonempty : predicate.nodeId ≠ "" := by
      intro empty
      rw [empty] at pattern
      exact absurd pattern (by decide)
    simpa using nonempty
  obtain ⟨sends, ancestor⟩ := valid.engagement _ referenced
  obtain ⟨send, found, kind⟩ := (Option.any_eq_true ..).mp sends
  have send_id : send.id = predicate.nodeId := by simpa using List.find?_some found
  simp only [isAncestor, Bool.and_eq_true, decide_eq_true_eq, List.contains_iff_mem,
    reachableFrom, Digraph.mem_reachableFrom] at ancestor
  have path : Relation.ReflTransGen graph.Adjacent send.id node.id := by
    rw [send_id]
    exact Relation.ReflTransGen.mono (fun _ _ edge => valid.mem_edgePairs.mp edge) _ _ ancestor.2
  refine ⟨send, List.mem_of_find?_eq_some found, send_id, by simpa using kind, ?_⟩
  rcases Relation.reflTransGen_iff_eq_or_transGen.mp path with same | strict
  · exact absurd (send_id.symm.trans same.symm) ancestor.1
  · exact strict

end Engagement

end Manyforge
