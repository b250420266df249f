import Manyforge.Automations.Graph
import Manyforge.Lib.Digraph

/-!
# The graph validator

`Validate` of `graph.go`, with its issues in the order in which the source finds
them. The two searches it runs on the graph are those of the work-list library,
on the edges whose endpoints exist.
-/
namespace Manyforge

structure Issue where
  (code nodeId edgeId message : String)

/-- `References`; `none` is a nil map, which skips that class of references. -/
structure References where
  (lists templates : Option (UUID → Bool))

def nodeIssue (code id message : String) : Issue := ⟨code, id, "", message⟩

def edgeIssue (code id message : String) : Issue := ⟨code, "", id, message⟩

def maxNodes : Nat := 200

/-! ### Node configurations -/

/-- What `validateConfig` returns: the issues, and the node an engagement predicate names. -/
abbrev ConfigResult := List Issue × String

namespace ValidateConfig

def ok : ConfigResult := ([], "")

def bad (node : Node) (message : String) : ConfigResult :=
  ([nodeIssue "invalid_config" node.id message], "")

def trigger (rt : Runtime) (node : Node) (refs : References) : ConfigResult :=
  match TriggerConfig.decode rt node.config with
  | none => bad node "trigger config is malformed"
  | some cfg =>
    if cfg.listId = 0 then bad node "trigger config is malformed"
    else
      let problem : Option String :=
        if cfg.type = "list_joined" then
          if cfg.tag ≠ "" ∨ cfg.name ≠ "" then some "list_joined trigger only accepts list_id"
          else none
        else if cfg.type = "tag_added" then
          if validLabel cfg.tag 64 = false ∨ cfg.name ≠ "" then
            some "tag_added trigger requires a valid tag"
          else none
        else if cfg.type = "event" then
          if validLabel cfg.name 128 = false ∨ cfg.tag ≠ "" then
            some "event trigger requires a valid name"
          else none
        else some "trigger type must be list_joined, tag_added, or event"
      match problem with
      | some message => bad node message
      | none =>
        if refs.lists.any (fun known => !known cfg.listId) then
          ([nodeIssue "list_not_found" node.id "referenced mailing list was not found"], "")
        else ok

def sendEmail (rt : Runtime) (node : Node) (refs : References) : ConfigResult :=
  let message := "send_email requires template_id, track_opens, and track_clicks"
  match SendEmailConfig.decode rt node.config with
  | some ⟨templateId, some _, some _⟩ =>
    if templateId = 0 then bad node message
    else if refs.templates.any (fun known => !known templateId) then
      ([nodeIssue "template_not_found" node.id "referenced mailing template was not found"], "")
    else ok
  | _ => bad node message

def wait (rt : Runtime) (node : Node) : ConfigResult :=
  match WaitConfig.decode node.config with
  | none => bad node "wait config is malformed"
  | some cfg =>
    if cfg.mode = "duration" then
      if cfg.seconds.all (fun seconds => seconds < 60 || seconds > 31536000) ∨ cfg.weekday ≠ none ∨
          cfg.time ≠ "" ∨ cfg.timezone ≠ "" then
        bad node "duration wait requires seconds between 60 and 31536000"
      else ok
    else if cfg.mode = "until" then
      if cfg.seconds ≠ none ∨ cfg.weekday.any (fun day => day < 1 || day > 7) ∨
          validClock cfg.time = false then
        bad node "until wait requires an optional weekday 1-7 and time HH:MM"
      else if (rt.loadLocation cfg.timezone).isNone then
        bad node "until wait requires a valid IANA timezone"
      else ok
    else bad node "wait mode must be duration or until"

def condition (rt : Runtime) (node : Node) (refs : References) : ConfigResult :=
  match decodePredicate node.config with
  | none | some .empty => bad node "condition requires one predicate"
  | some predicate =>
    match unmarshalPredicateType predicate with
    | none => bad node "condition predicate is malformed"
    | some type =>
      if type = "opened_email" then
        match decodeOpenedEmail predicate with
        | none => bad node "opened_email predicate requires node_id"
        | some p =>
          if graphIDPattern p.nodeId = false then bad node "opened_email predicate requires node_id"
          else ([], p.nodeId)
      else if type = "clicked_link" then
        let message := "clicked_link predicate requires node_id and an optional HTTP URL"
        match EngagementPredicate.decode predicate with
        | none => bad node message
        | some p =>
          if graphIDPattern p.nodeId = false ∨ p.url.any (fun url => !rt.validHTTPURL url) then
            bad node message
          else ([], p.nodeId)
      else if type = "has_tag" then
        match TagPredicate.decode predicate with
        | none => bad node "has_tag predicate requires a valid tag"
        | some p =>
          if validLabel p.tag 64 = false then bad node "has_tag predicate requires a valid tag" else ok
      else if type = "on_list" then
        match ListPredicate.decode rt predicate with
        | none => bad node "on_list predicate requires list_id"
        | some p =>
          if p.listId = 0 then bad node "on_list predicate requires list_id"
          else if refs.lists.any (fun known => !known p.listId) then
            ([nodeIssue "list_not_found" node.id "referenced mailing list was not found"], "")
          else ok
      else if type = "event_received" then
        let message := "event_received requires a valid name and optional within_seconds"
        match EventPredicate.decode predicate with
        | none => bad node message
        | some p =>
          if validLabel p.name 128 = false ∨
              p.withinSeconds.any (fun within => within < 1 || within > 31536000) then
            bad node message
          else ok
      else bad node "unknown condition predicate type"

/-- Adding and removing a tag take the same configuration. -/
def tag (node : Node) : ConfigResult :=
  match TagConfig.decode node.config with
  | none => bad node (node.kind.text ++ " requires a valid tag")
  | some cfg =>
    if validLabel cfg.tag 64 = false then bad node (node.kind.text ++ " requires a valid tag") else ok

def exit (node : Node) : ConfigResult :=
  match decodeExitConfig node.config with
  | none => bad node "exit config must be empty"
  | some () => ok

end ValidateConfig

def validateConfig (rt : Runtime) (node : Node) (refs : References) : ConfigResult :=
  match node.kind with
  | .trigger => ValidateConfig.trigger rt node refs
  | .sendEmail => ValidateConfig.sendEmail rt node refs
  | .wait => ValidateConfig.wait rt node
  | .condition => ValidateConfig.condition rt node refs
  | .addTag | .removeTag => ValidateConfig.tag node
  | .exit => ValidateConfig.exit node
  | .unknown _ => ([nodeIssue "unknown_node_kind" node.id "unknown node kind"], "")

/-! ### The graph -/

namespace Validate

variable (graph : Graph) (id : String)

def tooManyNodes : List Issue :=
  if graph.nodes.length > maxNodes then
    [⟨"too_many_nodes", "", "", "graph has " ++ toString graph.nodes.length ++
      " nodes; maximum is " ++ toString maxNodes⟩]
  else []

/-- The first loop; `seen` are the ids of the earlier nodes. -/
def nodeIssues (rt : Runtime) (refs : References) : (seen : List String) → List Node → List Issue
  | _, [] => []
  | seen, node :: rest =>
    (if graphIDPattern node.id = false then
      [nodeIssue "invalid_node_id" node.id "node id must match ^[a-z0-9_-]{1,64}$"] else []) ++
    (if node.id ∈ seen then [nodeIssue "duplicate_node_id" node.id "node id must be unique"] else []) ++
    (if byteLength node.name > 200 then
      [nodeIssue "invalid_node_name" node.id "node name must not exceed 200 characters"] else []) ++
    (validateConfig rt node refs).1 ++
    nodeIssues rt refs (seen ++ [node.id]) rest

def triggerIDs : List String :=
  (graph.nodes.filter fun node => node.kind = .trigger).map (·.id)

def triggerCount : List Issue :=
  if (triggerIDs graph).length ≠ 1 then
    [⟨"trigger_count", "", "", "graph must contain exactly one trigger"⟩]
  else []

def hasNode : Bool := graph.nodes.any fun node => node.id == id

/-- The edges that enter `outgoing` and `incoming`. -/
def knownEdges : List Edge :=
  graph.edges.filter fun edge => hasNode graph edge.source && hasNode graph edge.target

/-- The second loop; `seen` are the ids of the earlier edges. -/
def edgeIssues (graph : Graph) : (seen : List String) → List Edge → List Issue
  | _, [] => []
  | seen, edge :: rest =>
    (if graphIDPattern edge.id = false then
      [edgeIssue "invalid_edge_id" edge.id "edge id must match ^[a-z0-9_-]{1,64}$"] else []) ++
    (if edge.id ∈ seen then [edgeIssue "duplicate_edge_id" edge.id "edge id must be unique"] else []) ++
    (if hasNode graph edge.source = false ∨ hasNode graph edge.target = false then
      [edgeIssue "edge_unknown_node" edge.id "edge endpoints must reference existing nodes"]
    else if edge.source = edge.target then
      [edgeIssue "self_loop" edge.id "self-loop edges are not allowed"] else []) ++
    edgeIssues graph (seen ++ [edge.id]) rest

def outgoing : List Edge :=
  (knownEdges graph).filter fun edge => edge.source == id

def incoming : List Edge :=
  (knownEdges graph).filter fun edge => edge.target == id

def branchCount (edges : List Edge) (branch : String) : Nat :=
  edges.countP fun edge => edge.branch == some branch

/-- The third loop, on the edges that leave a node. -/
def degreeIssues (node : Node) : List Issue :=
  let outs := outgoing graph node.id
  if node.kind = .condition then
    (outs.flatMap fun edge => match edge.branch with
      | none => [edgeIssue "condition_branch_required" edge.id
          "condition edges require a yes or no branch"]
      | some branch => if branch = "yes" ∨ branch = "no" then []
          else [edgeIssue "invalid_edge_branch" edge.id "edge branch must be yes or no"]) ++
    (if branchCount outs "yes" ≠ 1 ∨ branchCount outs "no" ≠ 1 ∨ outs.length ≠ 2 then
      [nodeIssue "condition_branches" node.id
        "condition must have exactly one yes edge and one no edge"]
    else [])
  else
    (if outs.length > 1 then
      [nodeIssue "invalid_out_degree" node.id
        "non-condition nodes may have at most one outgoing edge"]
    else []) ++
    outs.flatMap fun edge => if edge.branch.isSome then
      [edgeIssue "unexpected_edge_branch" edge.id "only condition edges may have a branch"] else []

/-- The keys of the map `nodes`; a duplicate id is one key. -/
def nodeKeys : List String := (graph.nodes.map (·.id)).dedup

def edgePairs : List (String × String) :=
  (knownEdges graph).map fun edge => (edge.source, edge.target)

def graphHasCycle : Bool :=
  (Digraph.kahnOrder (nodeKeys graph) (edgePairs graph)).length ≠ (nodeKeys graph).length

def reachableFrom (graph : Graph) (root : String) : List String :=
  Digraph.reachableFrom (edgePairs graph) root

def isAncestor (ancestor id : String) : Bool :=
  ancestor ≠ id && (reachableFrom graph ancestor).contains id

def unreachableNodes : List Issue :=
  match triggerIDs graph with
  | [trigger] =>
    (graph.nodes.filter fun node => !(reachableFrom graph trigger).contains node.id).map
      fun node => nodeIssue "unreachable_node" node.id "node must be reachable from the trigger"
  | _ => []

/-- `conditions`: the condition nodes with the node their predicate names. -/
def conditionReferences (rt : Runtime) (refs : References) (graph : Graph) :
    List (String × String) :=
  (graph.nodes.map fun node => (node.id, (validateConfig rt node refs).2)).filter (·.2 ≠ "")

/-- The map `nodes` keeps the first node of an id. -/
def lookup : Option Node :=
  graph.nodes.find? fun node => node.id == id

def ancestorIssues (rt : Runtime) (refs : References) (graph : Graph) : List Issue :=
  (conditionReferences rt refs graph).flatMap fun (conditionId, sendNodeId) =>
    if (lookup graph sendNodeId).any (fun node => node.kind = .sendEmail) &&
        isAncestor graph sendNodeId conditionId then []
    else [nodeIssue "invalid_engagement_ancestor" conditionId
      "engagement predicate must reference an ancestor send_email node"]

end Validate

def validate (rt : Runtime) (graph : Graph) (refs : References) : List Issue :=
  Validate.tooManyNodes graph ++
  Validate.nodeIssues rt refs [] graph.nodes ++
  Validate.triggerCount graph ++
  Validate.edgeIssues graph [] graph.edges ++
  graph.nodes.flatMap (Validate.degreeIssues graph) ++
  (Validate.triggerIDs graph).flatMap (fun trigger =>
    if (Validate.incoming graph trigger).length ≠ 0 then
      [nodeIssue "trigger_indegree" trigger "trigger must have no incoming edges"] else []) ++
  (if Validate.graphHasCycle graph then [⟨"cycle", "", "", "graph must be acyclic"⟩] else []) ++
  Validate.unreachableNodes graph ++
  Validate.ancestorIssues rt refs graph

end Manyforge
