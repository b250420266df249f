import Manyforge.Automations.Stepper
import Manyforge.Automations.ValidGraph

/-!
# The validator is exact

`WellFormed` says what an automation graph is, without searches or loops: paths
are those of the relation `Graph.Adjacent`. `Validate` reports nothing exactly on
these graphs. The one Go map it iterates over is the node map of `graphHasCycle`;
`graphHasCycleIn` is that function under any iteration order.
-/
namespace Manyforge

open Validate Relation ValidateConfig

def Node.Engages (node : Node) (predicate : EngagementPredicate) : Prop :=
  node.kind = .condition ∧ ∃ raw type, decodePredicate node.config = some raw ∧
    unmarshalPredicateType raw = some type ∧ (type = "opened_email" ∨ type = "clicked_link") ∧
    EngagementPredicate.decode raw = some predicate

structure WellFormed (rt : Runtime) (refs : References) (graph : Graph) : Prop where
  size : graph.nodes.length ≤ 200
  names : ∀ node ∈ graph.nodes, byteLength node.name ≤ 200
  nodeIds : (graph.nodes.map (·.id)).Nodup ∧ ∀ node ∈ graph.nodes, graphIDPattern node.id = true
  edgeIds : (graph.edges.map (·.id)).Nodup ∧ ∀ edge ∈ graph.edges, graphIDPattern edge.id = true
  ends : ∀ edge ∈ graph.edges, (∃ node ∈ graph.nodes, node.id = edge.source) ∧
    ∃ node ∈ graph.nodes, node.id = edge.target
  conditions : ∀ node ∈ graph.nodes, node.kind = .condition →
    ((graph.edgesFrom node.id).map (·.branch)).Perm [some "yes", some "no"]
  others : ∀ node ∈ graph.nodes, node.kind ≠ .condition →
    (graph.edgesFrom node.id).length ≤ 1 ∧ ∀ edge ∈ graph.edgesFrom node.id, edge.branch = none
  acyclic : ∀ id, ¬ TransGen graph.Adjacent id id
  rooted : ∃ trigger, graph.nodes.filter (fun node => node.kind = .trigger) = [trigger] ∧
    (∀ edge ∈ graph.edges, edge.target ≠ trigger.id) ∧
    ∀ node ∈ graph.nodes, ReflTransGen graph.Adjacent trigger.id node.id
  engagement : ∀ node ∈ graph.nodes, ∀ predicate, node.Engages predicate →
    ∃ send ∈ graph.nodes, send.id = predicate.nodeId ∧ send.kind = .sendEmail ∧
      TransGen graph.Adjacent send.id node.id
  configs : ∀ node ∈ graph.nodes, (validateConfig rt node refs).1 = []

/-- `graphHasCycle` when the loop over the node map meets its keys in the order `keys`. -/
def graphHasCycleIn (graph : Graph) (keys : List String) : Bool :=
  (Digraph.kahnOrder keys (edgePairs graph)).length ≠ keys.length

variable {rt : Runtime} {refs : References} {graph : Graph} {node : Node}

/-! ### The searches -/

theorem mem_nodeKeys {id : String} : id ∈ nodeKeys graph ↔ hasNode graph id = true := by
  rw [hasNode_iff, nodeKeys, List.mem_dedup, List.mem_map]

theorem graphHasCycleIn_iff {keys : List String} (perm : keys.Perm (nodeKeys graph)) :
    graphHasCycleIn graph keys = false ↔ ∀ id, ¬ TransGen (Digraph.Adjacent (edgePairs graph)) id id := by
  rw [← Digraph.kahnOrder_length_iff (perm.nodup_iff.mpr (List.nodup_dedup _)), graphHasCycleIn]
  · simp
  · rintro ⟨source, target⟩ member
    obtain ⟨edge, known, same⟩ := List.mem_map.mp member
    obtain ⟨rfl, rfl⟩ := Prod.mk.inj same
    simp only [perm.mem_iff, mem_nodeKeys]
    simpa using (List.mem_filter.mp known).2

theorem knownEdges_eq (ends : ∀ edge ∈ graph.edges, hasNode graph edge.source = true ∧
      hasNode graph edge.target = true) : knownEdges graph = graph.edges :=
  List.filter_eq_self.mpr fun edge member => by simp [ends edge member]

theorem adjacent_edgePairs (known : knownEdges graph = graph.edges) :
    Digraph.Adjacent (edgePairs graph) = graph.Adjacent := by
  funext source target
  simp [Digraph.Adjacent, edgePairs, known, Graph.Adjacent]

/-! ### The edges that leave a node -/

private theorem perm_branches {branches : List (Option String)} :
    branches.Perm [some "yes", some "no"] ↔
      (∀ branch ∈ branches, branch = some "yes" ∨ branch = some "no") ∧
        branches.count (some "yes") = 1 ∧ branches.count (some "no") = 1 ∧ branches.length = 2 := by
  constructor
  · intro perm
    refine ⟨fun branch member => by simpa using perm.mem_iff.mp member, ?_, ?_, perm.length_eq⟩
    · rw [perm.count_eq]; decide
    · rw [perm.count_eq]; decide
  · rintro ⟨among, yes, no, -⟩
    rw [List.perm_iff_count]
    intro branch
    by_cases member : branch ∈ branches
    · rcases among branch member with rfl | rfl
      · rw [yes]; decide
      · rw [no]; decide
    · rw [List.count_eq_zero.mpr member, eq_comm, List.count_eq_zero]
      intro listed
      rcases List.mem_pair.mp listed with rfl | rfl
      · exact member (List.count_pos_iff.mp (by omega))
      · exact member (List.count_pos_iff.mp (by omega))

theorem degreeIssues_nil (known : knownEdges graph = graph.edges) : degreeIssues graph node = [] ↔
    (node.kind = .condition → ((graph.edgesFrom node.id).map (·.branch)).Perm [some "yes", some "no"]) ∧
    (node.kind ≠ .condition →
      (graph.edgesFrom node.id).length ≤ 1 ∧ ∀ edge ∈ graph.edgesFrom node.id, edge.branch = none) := by
  have outs : outgoing graph node.id = graph.edgesFrom node.id := by
    rw [outgoing, known, Graph.edgesFrom]
  have counts : ∀ branch, branchCount (graph.edgesFrom node.id) branch =
      ((graph.edgesFrom node.id).map (·.branch)).count (some branch) := by
    intro branch
    rw [branchCount, List.count_eq_countP, List.countP_map]
    rfl
  rw [degreeIssues, outs]
  by_cases condition : node.kind = .condition
  · simp only [condition, ↓reduceIte, forall_const, ne_eq, not_true_eq_false, false_implies,
      and_true, perm_branches,
      List.append_eq_nil_iff, List.flatMap_eq_nil_iff, counts, List.forall_mem_map, List.length_map]
    refine and_congr (forall₂_congr fun edge _ => ?_) (by simp only [issue_nil, not_or, not_not])
    cases edge.branch with
    | none => simp
    | some branch =>
      by_cases allowed : branch = "yes" ∨ branch = "no" <;> simp [allowed]
  · simp only [condition, ↓reduceIte, false_implies, ne_eq, not_false_eq_true,
      forall_const, true_and, List.append_eq_nil_iff, List.flatMap_eq_nil_iff]
    refine and_congr (by rw [issue_nil, Nat.not_lt]) (forall₂_congr fun edge _ => ?_)
    cases edge.branch <;> simp

/-! ### Engagement conditions -/

theorem kind_of_named (named : (validateConfig rt node refs).2 ≠ "") : node.kind = .condition := by
  cases kind : node.kind with
  | condition => rfl
  | trigger => grind [validateConfig, trigger, bad, ok]
  | sendEmail => grind [validateConfig, sendEmail, bad, ok]
  | wait => grind [validateConfig, wait, bad, ok]
  | addTag | removeTag => grind [validateConfig, tag, bad, ok]
  | exit => grind [validateConfig, exit, bad, ok]
  | unknown other => exact absurd (by simp only [validateConfig, kind]) named

theorem engages_of_named (named : (validateConfig rt node refs).2 ≠ "") :
    ∃ predicate, node.Engages predicate ∧ predicate.nodeId = (validateConfig rt node refs).2 := by
  have isCondition := kind_of_named named
  have kind : validateConfig rt node refs = condition rt node refs := by
    simp only [validateConfig, isCondition]
  rw [kind] at named ⊢
  unfold condition at named ⊢
  split at named
  · exact absurd rfl named
  · exact absurd rfl named
  next raw nonempty config =>
  cases typed : unmarshalPredicateType raw with
  | none => rw [typed] at named; exact absurd rfl named
  | some type =>
    rw [typed] at named
    simp only [] at named
    -- The two engagement types name their node; the other types and the malformed predicates
    -- name none.
    grind [bad, ok, decodeOpenedEmail_decode, Node.Engages]

/-! ### The whole graph -/

theorem rooted_iff (known : knownEdges graph = graph.edges) :
    (triggerCount graph = [] ∧ ((triggerIDs graph).flatMap fun trigger =>
        if (incoming graph trigger).length ≠ 0 then
          [nodeIssue "trigger_indegree" trigger "trigger must have no incoming edges"] else []) = [] ∧
      unreachableNodes graph = []) ↔
    ∃ trigger, graph.nodes.filter (fun node => node.kind = .trigger) = [trigger] ∧
      (∀ edge ∈ graph.edges, edge.target ≠ trigger.id) ∧
      ∀ node ∈ graph.nodes, ReflTransGen graph.Adjacent trigger.id node.id := by
  have only : triggerCount graph = [] ↔
      ∃ trigger, graph.nodes.filter (fun node => node.kind = .trigger) = [trigger] := by
    rw [triggerCount, issue_nil, not_not, triggerIDs, List.length_map, List.length_eq_one_iff]
  rw [only]
  constructor
  · rintro ⟨⟨trigger, single⟩, entries, reached⟩
    have ids : triggerIDs graph = [trigger.id] := by rw [triggerIDs, single]; rfl
    rw [ids, List.flatMap_singleton, issue_nil, not_not, List.length_eq_zero_iff, incoming,
      known] at entries
    rw [unreachableNodes, ids] at reached
    refine ⟨trigger, single, fun edge member => ?_, fun node member => ?_⟩
    · simpa using List.filter_eq_nil_iff.mp entries edge member
    · have found := List.filter_eq_nil_iff.mp (List.map_eq_nil_iff.mp reached) node member
      rw [← adjacent_edgePairs known, ← Digraph.mem_reachableFrom]
      simpa [reachableFrom] using found
  · rintro ⟨trigger, single, entries, reached⟩
    have ids : triggerIDs graph = [trigger.id] := by rw [triggerIDs, single]; rfl
    rw [unreachableNodes, ids, List.flatMap_singleton, issue_nil, not_not, List.length_eq_zero_iff,
      incoming, known]
    refine ⟨⟨trigger, single⟩,
      List.filter_eq_nil_iff.mpr fun edge member => by simpa using entries edge member, ?_⟩
    refine List.map_eq_nil_iff.mpr (List.filter_eq_nil_iff.mpr fun node member => ?_)
    have found := reached node member
    rw [← adjacent_edgePairs known, ← Digraph.mem_reachableFrom] at found
    simpa [reachableFrom] using found

theorem WellFormed.ancestors (wf : WellFormed rt refs graph)
    (known : knownEdges graph = graph.edges) : ancestorIssues rt refs graph = [] := by
  refine List.flatMap_eq_nil_iff.mpr fun (conditionId, sendId) member => if_pos ?_
  obtain ⟨listed, named⟩ := List.mem_filter.mp member
  obtain ⟨node, isNode, same⟩ := List.mem_map.mp listed
  obtain ⟨rfl, rfl⟩ := Prod.mk.inj same
  obtain ⟨predicate, engages, isNamed⟩ := engages_of_named (by simpa using named)
  obtain ⟨send, isSend, id, kind, path⟩ := wf.engagement node isNode predicate engages
  rw [← isNamed, ← id]
  have found : lookup graph send.id = some send := Table.UniqueOn.find?_key wf.nodeIds.1 isSend
  have apart : send.id ≠ node.id := fun same => wf.acyclic node.id (same ▸ path)
  have reached : node.id ∈ reachableFrom graph send.id := by
    rw [reachableFrom, Digraph.mem_reachableFrom, adjacent_edgePairs known]
    exact path.to_reflTransGen
  simp [found, kind, isAncestor, apart, reached]

/-- `Validate` accepts exactly the well-formed graphs, and the order in which Go iterates over the
node map has no part in its verdict. -/
theorem validate_exact : (validate rt graph refs = [] ↔ WellFormed rt refs graph) ∧
    ∀ keys, keys.Perm (nodeKeys graph) → graphHasCycleIn graph keys = graphHasCycle graph := by
  have own : graphHasCycle graph = graphHasCycleIn graph (nodeKeys graph) := rfl
  refine ⟨⟨fun valid => ?_, fun wf => ?_⟩, fun keys perm => ?_⟩
  · have shape := validGraph_of_validate valid
    have known := knownEdges_eq shape.edges
    simp only [validate, List.append_eq_nil_iff, tooManyNodes, issue_nil, nodeIssues_nil,
      edgeIssues_nil] at valid
    obtain ⟨⟨⟨⟨⟨⟨⟨⟨size, nodup, nodes⟩, triggers⟩, distinct, edges⟩, degrees⟩, entries⟩, -⟩,
      reached⟩, -⟩ := valid
    have degree := fun node member =>
      (degreeIssues_nil known).mp (List.flatMap_eq_nil_iff.mp degrees node member)
    have acyclic := (graphHasCycleIn_iff (.refl _)).mp (own.symm.trans shape.acyclic)
    rw [adjacent_edgePairs known] at acyclic
    exact {
      size := Nat.not_lt.mp size
      names := fun node member => (nodes node member).2.2.1
      nodeIds := ⟨nodup, fun node member => (nodes node member).2.1⟩
      edgeIds := ⟨distinct, fun edge member => (edges edge member).2.1⟩
      ends := fun edge member => (shape.edges edge member).imp hasNode_iff.mp hasNode_iff.mp
      conditions := fun node member => (degree node member).1
      others := fun node member => (degree node member).2
      acyclic := acyclic
      rooted := (rooted_iff known).mp ⟨triggers, entries, reached⟩
      engagement := by
        intro node member predicate engages
        obtain ⟨condition, raw, type, config, typed, engagement, decoded⟩ := engages
        exact shape.engagement_names config typed engagement decoded member condition
      configs := fun node member => (nodes node member).2.2.2 }
  · have ends := fun edge member => (wf.ends edge member).imp hasNode_iff.mpr hasNode_iff.mpr
    have known := knownEdges_eq ends
    obtain ⟨triggers, entries, reached⟩ := (rooted_iff known).mpr wf.rooted
    have acyclic : graphHasCycle graph = false := by
      rw [own, graphHasCycleIn_iff (.refl _), adjacent_edgePairs known]
      exact wf.acyclic
    simp only [validate, List.append_eq_nil_iff, tooManyNodes, issue_nil, nodeIssues_nil, edgeIssues_nil]
    refine ⟨⟨⟨⟨⟨⟨⟨⟨Nat.not_lt.mpr wf.size, wf.nodeIds.1, fun node member => ?_⟩, triggers⟩, wf.edgeIds.1,
      fun edge member => ?_⟩, ?_⟩, entries⟩, by simp [acyclic]⟩, reached⟩, wf.ancestors known⟩
    · exact ⟨by simp, wf.nodeIds.2 node member, wf.names node member, wf.configs node member⟩
    · refine ⟨by simp, wf.edgeIds.2 edge member, ends edge member, fun same => ?_⟩
      exact wf.acyclic edge.source (.single ⟨edge, member, rfl, same.symm⟩)
    · refine List.flatMap_eq_nil_iff.mpr fun node member => (degreeIssues_nil known).mpr ?_
      exact ⟨wf.conditions node member, wf.others node member⟩
  · rw [own, Bool.eq_iff_iff, ← not_iff_not, Bool.not_eq_true, Bool.not_eq_true,
      graphHasCycleIn_iff perm, graphHasCycleIn_iff (.refl _)]

namespace Sample

theorem graph_well_formed : WellFormed runtime ⟨none, none⟩ Sample.graph ∧
    graphHasCycleIn Sample.graph ["done", "rest", "welcome", "start"] = false := by
  have exact : (validate runtime Sample.graph ⟨none, none⟩ = [] ↔ _) ∧ _ := validate_exact
  exact ⟨exact.1.mp (by decide), (exact.2 _ (by decide)).trans (by decide)⟩

end Sample

end Manyforge
