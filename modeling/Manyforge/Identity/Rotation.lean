import Manyforge.Identity.Service
import Manyforge.Lib.Locks
import Manyforge.Lib.Transition

/-!
# Refresh tokens under concurrent transactions

`Refresh`, `Logout`, `Login` and `Delete` as transactions of several statements under `READ
COMMITTED`. `SELECT … FOR UPDATE` waits for the row and reads its committed version. The `UPDATE` of
a revocation collects the rows committed when it starts, and then locks one after the other; a row
that another transaction inserts in the meantime is not among them.
-/
namespace Manyforge.Identity

open Table Tenancy Transition

/-- The tokens that a revocation is about. -/
inductive Scope where
  | family (id : UUID)
  | principal (id account : UUID)
  deriving DecidableEq

def Scope.covers : Scope → RefreshToken → Bool
  | .family id, t => t.familyId == id
  | .principal id _, t => t.principalId == id

/-- The family that a revocation ends, if it ends one. -/
def Scope.family? : Scope → List UUID
  | .family id => [id]
  | .principal .. => []

def Scope.principal? : Scope → List UUID
  | .family _ => []
  | .principal id _ => [id]

/-- Where a transaction stands between two statements. -/
inductive TokenStage where
  | refresh (hash : String) (now : Timestamp)
  /-- The presented token is locked and can be exchanged. -/
  | rotating (t : RefreshToken) (now : Timestamp)
  | logout (hash : String)
  /-- Before the `UPDATE` of a revocation. -/
  | revoke (held : List UUID) (scope : Scope)
  /-- The `UPDATE` has still to lock some of the rows it collected. -/
  | revoking (held : List UUID) (scope : Scope) (pending : List UUID)
  /-- `Login` has accepted the credentials. -/
  | login (principal : UUID)
  deriving DecidableEq

/-- The rows of `refresh_token` that a transaction has locked. -/
def TokenStage.locks : TokenStage → List UUID
  | .rotating t _ => [t.id]
  | .revoke held _ | .revoking held _ _ => held
  | .refresh .. | .logout .. | .login .. => []

structure TokenTx where
  id : UUID
  stage : TokenStage
  deriving DecidableEq

def TokenTx.locks (tx : TokenTx) : List UUID := tx.stage.locks

/-- The committed tables, the open transactions, the tokens exchanged so far, and the families and
principals whose sessions a committed transaction has ended. -/
structure TokenState where
  tables : Identities
  open_ : List TokenTx
  (exchanged deadFamilies deadPrincipals : List UUID)

inductive TokenAction where
  | refresh (id : UUID) (raw : String) (now : Timestamp)
  | logout (id : UUID) (raw : String)
  | login (id : UUID) (email password : String)
  | delete (id principal : UUID)
  /-- `SELECT … FOR UPDATE` of the presented token. -/
  | select (id : UUID)
  /-- The `UPDATE` of a revocation starts. -/
  | collect (id : UUID)
  /-- The `UPDATE` gets to one of its rows. -/
  | lockRow (id row : UUID)
  /-- The last statements and the commit; the values are those of the row to insert. -/
  | commit (id new family : UUID) (raw : String) (now : Timestamp)
  | abort (id : UUID)

namespace TokenState

variable (service : AuthService) (s : TokenState) (id : UUID)

def stage? : Option TokenStage := (s.open_.find? (·.id == id)).map (·.stage)

def unlocked (id row : UUID) : Bool := Locks.free TokenTx.id TokenTx.locks s.open_ id row

def start (stage : TokenStage) : TokenState :=
  if s.open_.any (·.id == id) then s else { s with open_ := s.open_ ++ [⟨id, stage⟩] }

def goOn (stage : TokenStage) : TokenState :=
  { s with open_ := updateWhere (·.id == id) (fun _ => ⟨id, stage⟩) s.open_ }

def close : TokenState := { s with open_ := s.open_.filter (·.id != id) }

def withTokens (refreshTokens : List RefreshToken) : TokenState :=
  { s with tables := { s.tables with refreshTokens } }

/-- `Refresh` after its `SELECT … FOR UPDATE`. -/
def selectedRefresh (t : RefreshToken) (now : Timestamp) : TokenState :=
  if t.revokedAt.isSome || decide (t.expiresAt < now) then s.close id
  else if t.usedAt.isSome then s.goOn id (.revoke [t.id] (.family t.familyId))
  else s.goOn id (.rotating t now)

/-- The presented token: an unknown one ends the transaction, a locked one makes it wait. -/
def select (hash : String) (selected : RefreshToken → TokenState) : TokenState :=
  match byHash s.tables.refreshTokens hash with
  | none => s.close id
  | some t => if s.unlocked id t.id then selected t else s

/-- The rows that the `UPDATE` of a revocation finds. -/
def collected (scope : Scope) : List UUID :=
  (s.tables.refreshTokens.filter fun t => scope.covers t && t.revokedAt.isNone).map (·.id)

def rotate (t : RefreshToken) (started : Timestamp) (new : UUID) (raw : String)
    (now : Timestamp) : TokenState :=
  if freeKeys s.tables.refreshTokens new (service.hashToken raw) then
    { (s.close id).withTokens (markUsed s.tables.refreshTokens t.id now ++
        [t.child new (service.hashToken raw) (started + service.refreshTTL)]) with
      exchanged := s.exchanged ++ [t.id] }
  else s.close id

/-- The committed tables of a revocation. -/
def revokedTables (held : List UUID) (scope : Scope) (now : Timestamp) : Identities :=
  let refreshTokens := updateWhere (fun t => held.contains t.id && t.revokedAt.isNone) (.revoke now)
    s.tables.refreshTokens
  match scope with
  | .family _ => { s.tables with refreshTokens }
  | .principal _ account =>
    { s.tables with refreshTokens, tenants := s.tables.tenants.writeAccount account .delete now }

def revoke (held : List UUID) (scope : Scope) (now : Timestamp) : TokenState :=
  { s.close id with
    tables := s.revokedTables held scope now
    deadFamilies := s.deadFamilies ++ scope.family?
    deadPrincipals := s.deadPrincipals ++ scope.principal? }

/-- The commit of a login. The family is new, as random keys are. -/
def enter (id principal new family : UUID) (raw : String) (now : Timestamp) : TokenState :=
  if freeKeys s.tables.refreshTokens new (service.hashToken raw) &&
      s.tables.refreshTokens.all (·.familyId != family) then
    (s.close id).withTokens (s.tables.refreshTokens ++ [⟨new, principal, service.hashToken raw, family,
      none, none, none, now + service.refreshTTL⟩])
  else s.close id

def next : TokenAction → TokenState
  | .refresh id raw now => s.start id (.refresh (service.hashToken raw) now)
  | .logout id raw => s.start id (.logout (service.hashToken raw))
  | .login id email password =>
    match s.tables.credentials service email password with
    | .error _ => s
    | .ok a =>
      match s.tables.principalByAccount a.id with
      | none => s
      | some p => s.start id (.login p.id)
  | .delete id principal =>
    match s.tables.tenants.accountOf principal, s.tables.tenants.guardNotLastOwner principal with
    | some a, .ok () => s.start id (.revoke [] (.principal principal a.id))
    | _, _ => s
  | .select id =>
    match s.stage? id with
    | some (.refresh hash now) => s.select id hash (s.selectedRefresh id · now)
    | some (.logout hash) =>
      s.select id hash fun t => s.goOn id (.revoke [t.id] (.family t.familyId))
    | _ => s
  | .collect id =>
    match s.stage? id with
    | some (.revoke held scope) => s.goOn id (.revoking held scope (s.collected scope))
    | _ => s
  | .lockRow id row =>
    match s.stage? id with
    | some (.revoking held scope pending) =>
      if pending.contains row && s.unlocked id row
      then s.goOn id (.revoking (row :: held) scope (pending.erase row)) else s
    | _ => s
  | .commit id new family raw now =>
    match s.stage? id with
    | some (.rotating t started) => s.rotate service id t started new raw now
    | some (.revoking held scope []) => s.revoke id held scope now
    | some (.login principal) => s.enter service id principal new family raw now
    | _ => s
  | .abort id => s.close id

/-- The token that an action exchanges. -/
def exchange : TokenAction → Option RefreshToken
  | .commit id new _ raw _ =>
    match s.stage? id with
    | some (.rotating t _) =>
      if freeKeys s.tables.refreshTokens new (service.hashToken raw) then some t else none
    | _ => none
  | _ => none

end TokenState

end Manyforge.Identity
