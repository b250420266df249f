import Manyforge.Automations.Store
import Manyforge.Automations.Validate

/-!
# Automation versions

The parts of `Service` that create, edit, clone and activate the versions of an
automation. Each function is what the transaction does once it holds the rows it
locks; the rows it read under the lock are arguments. Audit entries, the names of
automations and the texts of templates are left out.
-/
namespace Manyforge

open Table

/-- What every statement on an automation and its versions names. -/
structure AutomationKey where
  (automationId businessId tenantRootId : UUID)

namespace AutomationKey

variable (key : AutomationKey)

def names (a : Automation) : Bool :=
  Database.isAutomation key.automationId key.businessId key.tenantRootId a

def owns (v : AutomationVersion) : Bool :=
  v.automationId == key.automationId && v.businessId == key.businessId &&
    v.tenantRootId == key.tenantRootId

end AutomationKey

inductive ServiceError where
  | notFound
  | conflict
  | validation (message : String)
  | invalidGraph (issues : List Issue)
  | json
  | sql (error : SqlError)

/-- What the service asks of the Go runtime, of the permissions and of the template texts. -/
structure ServiceEnv where
  runtime : Runtime
  /-- `uuid.UUID.String`. -/
  uuidText : UUID → String
  /-- `strings.ToLower`. -/
  toLower : String → String
  /-- Whether the principal has `mailing.send`. -/
  permitted : Bool
  /-- The size of the marshalled snapshot of some templates. -/
  snapshotBytes : List UUID → Nat

def maxAutomationVersions : Int := 100

def maxContentSnapshotBytes : Nat := 1048576

/-- Conversion to the `int32` of a version number. -/
def int32 (n : Int) : Int := Int.bmod n (2 ^ 32)

namespace Database

variable (db : Database) (env : ServiceEnv) (key : AutomationKey)

def automationRow : Option Automation :=
  db.automations.find? key.names

/-- `GetAutomationVersion` and `LockAutomationVersion`. -/
def versionRow (id : UUID) : Option AutomationVersion :=
  db.versions.find? fun v => v.id == id && key.owns v

/-- The trigger `tenant_merge_write_fence`. -/
def writeFence (root : UUID) : Except ServiceError Unit :=
  if db.rootWriteAllowed root then .ok () else .error (.sql (.raised "TENANT_MERGE_IN_PROGRESS"))

/-! ### Inserting a version -/

def newVersion (id : UUID) (number : Int) (graph : Graph) : AutomationVersion :=
  { id, businessId := key.businessId, tenantRootId := key.tenantRootId
    automationId := key.automationId, number, status := .draft, graph
    triggerKind := none, triggerRef := none, contentSnapshot := none }

/-- `InsertAutomationVersion`, under the constraints of the table. -/
def insertVersion (row : AutomationVersion) : Except ServiceError Database :=
  if ¬ 0 < row.number then .error (.sql (.checkViolation "automation_version_number_chk"))
  else if db.versions.any fun v => v.id == row.id then
    .error (.sql (.uniqueViolation "automation_version_pkey"))
  else if db.versions.any fun v => v.automationId == row.automationId && v.number == row.number then
    .error (.sql (.uniqueViolation "automation_version_automation_id_number_key"))
  else .ok { db with versions := db.versions ++ [row] }

variable (versionId : UUID) (v : AutomationVersion)

def newAutomation (allowReenroll : Bool) : Automation :=
  { id := key.automationId, businessId := key.businessId, tenantRootId := key.tenantRootId
    status := .draft, allowReenroll, activeVersionId := none, draftVersionId := some versionId }

/-- `Service.Create`, after the checks of the name. -/
def create (allowReenroll : Bool) : Except ServiceError Database := do
  db.writeFence key.tenantRootId
  if db.automations.any fun a => a.id == key.automationId then
    .error (.sql (.uniqueViolation "automation_pkey"))
  else
    let db ← db.insertVersion (newVersion key versionId 1 ⟨[], []⟩)
    .ok { db with
      automations := db.automations ++ [newAutomation key versionId allowReenroll] }

/-! ### Cloning -/

/-- `ORDER BY number, id`. -/
def olderVersion (a b : AutomationVersion) : Prop :=
  a.number < b.number ∨ (a.number = b.number ∧ a.id ≤ b.id)
  deriving Decidable

/-- The `removable` of `PruneAutomationVersions`, before its limit. -/
def removable : Bool :=
  key.owns v && v.status == .superseded && !db.enrollments.any fun e => e.versionId == v.id

/-- The versions `PruneAutomationVersions` deletes. -/
def prunedVersions (target : Int) : List UUID :=
  (selectFirst (db.removable key) olderVersion
    ((db.versions.filter key.owns).length - target).toNat db.versions).map (·.id)

/-- `PruneAutomationVersions`. The enrollments of a version keep it from being selected; a delivery
that refers to a selected version makes the statement fail. -/
def pruneVersions (target : Int) : Except ServiceError Database :=
  let pruned := db.prunedVersions key target
  if db.deliveries.any fun d => d.automationVersionId.any fun id => pruned.contains id then
    .error (.sql (.foreignKeyViolation "mailing_delivery_automation_version_id_fkey"))
  else .ok { db with versions := db.versions.filter fun v => !pruned.contains v.id }

/-- `Service.CloneVersion`, with the automation's row locked. -/
def cloneVersion (automation : Automation) (newId : UUID) : Except ServiceError Database := do
  if automation.status = .archived ∨ automation.draftVersionId.isSome then .error .conflict
  else match automation.activeVersionId with
    | none => .error .conflict
    | some activeId =>
      db.writeFence key.tenantRootId
      let db ← db.pruneVersions key (maxAutomationVersions - 1)
      if maxAutomationVersions ≤ (db.versions.filter key.owns).length then .error .conflict
      else match db.versionRow key activeId with
        | none => .error .notFound
        | some active =>
          let db ← db.insertVersion (newVersion key newId (int32 (active.number + 1)) active.graph)
          if db.automations.any fun a => key.names a && a.draftVersionId.isNone then
            .ok { db with
              automations := updateWhere (fun a => key.names a && a.draftVersionId.isNone)
                (fun a => { a with draftVersionId := some newId }) db.automations }
          else .error .conflict

/-! ### Editing -/

/-- The reads and checks of `Service.PutGraph`, which lock nothing. -/
def putGraphChecks : Except ServiceError Unit :=
  match db.automationRow key, db.versionRow key versionId with
  | some automation, some version =>
    if automation.draftVersionId ≠ some versionId then .error .conflict
    else if version.status ≠ .draft then .error .conflict
    else .ok ()
  | _, _ => .error .notFound

/-- The row `UpdateAutomationVersionGraph` writes. -/
def graphEditable : Bool :=
  v.id == versionId && key.owns v && v.status == .draft

/-- `UpdateAutomationVersionGraph`, once the version's row is locked. -/
def updateGraph (graph : Graph) : Except ServiceError Database := do
  db.writeFence key.tenantRootId
  if db.versions.any (graphEditable key versionId) then
    .ok { db with
      versions := updateWhere (graphEditable key versionId) (fun v => { v with graph }) db.versions }
  else .error .conflict

/-! ### Activating -/

/-- The struct of `graphReferenceIDs`. -/
structure ReferenceConfig where
  (listId templateId : UUID)
  predicate : RawMessage

def ReferenceConfig.unmarshal (rt : Runtime) : RawMessage → Option ReferenceConfig :=
  Manyforge.unmarshal
    [⟨"list_id", fun c v => (Json.setUUID rt c.listId v).map fun x => { c with listId := x }⟩,
     ⟨"template_id", fun c v =>
       (Json.setUUID rt c.templateId v).map fun x => { c with templateId := x }⟩,
     ⟨"predicate", fun c v => some { c with predicate := .value v false }⟩]
    ⟨0, 0, .empty⟩

/-- `graphReferenceIDs`: the lists and the templates a graph names. -/
def graphReferenceIDs (rt : Runtime) (graph : Graph) : List UUID × List UUID :=
  let configs := graph.nodes.filterMap fun node => ReferenceConfig.unmarshal rt node.config
  let predicateLists := configs.filterMap fun cfg =>
    Manyforge.unmarshal [⟨"list_id", fun c v => Json.setUUID rt c v⟩] 0 cfg.predicate
  (((configs.map (·.listId)) ++ predicateLists).filter (· != 0),
    (configs.map (·.templateId)).filter (· != 0))

/-- The references `validateInTenant` loads. -/
def tenantReferences (rt : Runtime) (key : AutomationKey) (graph : Graph) : References :=
  let (listIds, templateIds) := graphReferenceIDs rt graph
  { lists := some fun id => listIds.contains id && db.lists.any fun l =>
      l.id == id && l.businessId == key.businessId && l.tenantRootId == key.tenantRootId &&
        l.status == .active
    templates := some fun id => templateIds.contains id && db.templates.any fun t =>
      t.id == id && t.businessId == key.businessId && t.tenantRootId == key.tenantRootId }

def triggerIdentity (env : ServiceEnv) : List Node → Except ServiceError (String × String)
  | [] => .error (.validation "graph has no trigger")
  | node :: rest =>
    if node.kind ≠ .trigger then triggerIdentity env rest
    else match TriggerConfig.unmarshal env.runtime node.config with
      | none => .error .json
      | some cfg =>
        if cfg.type = "list_joined" then .ok (cfg.type, env.uuidText cfg.listId)
        else if cfg.type = "tag_added" then .ok (cfg.type, env.toLower (trimSpace cfg.tag))
        else if cfg.type = "event" then .ok (cfg.type, trimSpace cfg.name)
        else triggerIdentity env rest

/-- `snapshotVersionContent`: the templates the snapshot has as its keys. -/
def snapshotVersionContent (graph : Graph) : Except ServiceError (List UUID) :=
  let named := (graphReferenceIDs env.runtime graph).2
  let found := (db.templates.filter fun t =>
    named.contains t.id && t.businessId == key.businessId && t.tenantRootId == key.tenantRootId).map
    (·.id)
  if maxContentSnapshotBytes < env.snapshotBytes found then
    .error (.validation "referenced template content exceeds the activation snapshot limit")
  else .ok found

/-- The `UPDATE` that supersedes the active version; it has to find its row. -/
def supersede : Option UUID → Except ServiceError Database
  | none => .ok db
  | some activeId =>
    let chosen (v : AutomationVersion) : Bool := v.id == activeId && key.owns v && v.status == .active
    if db.versions.any chosen then
      .ok { db with
        versions := updateWhere chosen (fun v => { v with status := .superseded }) db.versions }
    else .error .conflict

def activatedVersion (identity : String × String) (snapshot : List UUID) (v : AutomationVersion) :
    AutomationVersion :=
  { v with
    status := .active, triggerKind := some identity.1, triggerRef := some identity.2
    contentSnapshot := some snapshot }

def activatedAutomation (a : Automation) : Automation :=
  { a with status := .active, activeVersionId := some versionId, draftVersionId := none }

/-- `Service.Activate`, with the rows of the automation and of the version locked. -/
def activate (automation : Automation)
    (version : AutomationVersion) (versionId : UUID) : Except ServiceError Database := do
  if automation.status = .archived ∨ automation.draftVersionId ≠ some versionId ∨
      version.status ≠ .draft then .error .conflict
  else
    let issues := validate env.runtime version.graph
      (db.tenantReferences env.runtime key version.graph)
    if issues.length ≠ 0 then .error (.invalidGraph issues)
    else
      let identity ← triggerIdentity env version.graph.nodes
      let snapshot ← db.snapshotVersionContent env key version.graph
      db.writeFence key.tenantRootId
      let db ← db.supersede key automation.activeVersionId
      if !db.versions.any (graphEditable key versionId) then .error .conflict
      else if !db.automations.any key.names then .error .notFound
      else .ok { db with
        versions := updateWhere (graphEditable key versionId) (activatedVersion identity snapshot)
          db.versions
        automations := updateWhere key.names (activatedAutomation versionId) db.automations }

/-- `requirePermission` for `mailing.send`, which `Activate` and `Resume` ask first. -/
def requireSend : Except ServiceError Unit :=
  if db.businessOperational key.businessId key.tenantRootId && env.permitted then .ok ()
  else .error .notFound

end Database

end Manyforge
