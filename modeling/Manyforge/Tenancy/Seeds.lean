import Manyforge.Tenancy.Members

/-!
# The seeded roles

The catalog of permissions, the preset roles and their permission rows, as the migrations leave
them. The ids of the presets are generated; any five will do.
-/
namespace Manyforge.Tenancy.Seeds

def owner : UUID := 1
def admin : UUID := 2
def member : UUID := 3
def viewer : UUID := 4
def agentRuntime : UUID := 5

def catalog : List String :=
  ["business.read", "hierarchy.manage", "business.delete", "ownership.transfer", "members.read",
    "members.manage", "roles.read", "roles.manage", "audit.read",
    "tickets.read", "tickets.reply", "tickets.write", "tickets.assign", "tickets.delete",
    "inbox.manage", "agents.configure", "agents.run", "agents.approve", "mcp.invoke",
    "connectors.read", "connectors.write", "connectors.manage", "crm.read", "crm.write",
    "feedback.read", "feedback.write", "telemetry.read", "telemetry.write",
    "mailing.read", "mailing.write", "mailing.send", "work.read", "work.write"]

def roles : List Role :=
  [⟨owner, none, "owner", "Owner", true⟩, ⟨admin, none, "admin", "Admin", false⟩,
    ⟨member, none, "member", "Member", false⟩, ⟨viewer, none, "viewer", "Viewer", false⟩,
    ⟨agentRuntime, none, "agent_runtime", "Agent Runtime", true⟩]

/-- One `INSERT INTO role_permission`. -/
def granted (roles : List UUID) (keys : List String) : List RolePermission :=
  roles.flatMap fun role => keys.map (⟨role, ·⟩)

/-- In the order of the migrations. -/
def rolePermissions : List RolePermission :=
  granted [owner] ["business.read", "hierarchy.manage", "business.delete", "ownership.transfer",
      "members.read", "members.manage", "roles.read", "roles.manage", "audit.read"] ++
    granted [admin] ["business.read", "hierarchy.manage", "members.read", "members.manage",
      "roles.read", "roles.manage", "audit.read"] ++
    granted [member] ["business.read", "members.read"] ++ granted [viewer] ["business.read"] ++
    granted [owner, admin] ["tickets.read", "tickets.reply", "tickets.write", "tickets.assign",
      "tickets.delete", "inbox.manage"] ++
    granted [member] ["tickets.read", "tickets.reply", "tickets.write", "tickets.assign"] ++
    granted [viewer] ["tickets.read"] ++ granted [owner, admin] ["agents.configure"] ++
    granted [agentRuntime] ["tickets.read", "tickets.reply", "tickets.write", "tickets.assign",
      "agents.run"] ++
    granted [admin] ["agents.run"] ++ granted [admin] ["agents.approve"] ++
    granted [agentRuntime] ["mcp.invoke"] ++
    granted [owner, admin, member] ["connectors.read", "connectors.write"] ++
    granted [viewer] ["connectors.read"] ++ granted [owner, admin] ["connectors.manage"] ++
    granted [owner, admin] ["crm.read", "crm.write"] ++ granted [member, viewer] ["crm.read"] ++
    granted [owner, admin] ["feedback.read", "feedback.write"] ++
    granted [member, viewer] ["feedback.read"] ++
    granted [owner, admin] ["telemetry.read", "telemetry.write"] ++
    granted [member, viewer] ["telemetry.read"] ++
    granted [owner, admin] ["mailing.read", "mailing.write", "mailing.send"] ++
    granted [member, viewer] ["mailing.read"] ++
    granted [owner, admin, member] ["work.read", "work.write"] ++ granted [viewer] ["work.read"]

/-- The tables before anyone has signed up. -/
def tables : Tenants where
  businesses := []
  closure := []
  roles
  rolePermissions
  catalog
  principals := []
  accounts := []
  memberships := []
  invitations := []

end Manyforge.Tenancy.Seeds
