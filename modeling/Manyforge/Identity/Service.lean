import Manyforge.Tenancy.Accounts
import Manyforge.Identity.Tokens

/-!
# Accounts and their sessions

The calls of `account.Service`, one after the other. A session is a pair of an access token, signed
for a principal, and a refresh token. `Login` and `ConsumeMagicLink` look at the account before they
hand one out; `Refresh` looks at the presented token only.
-/
namespace Manyforge.Identity

open Table Tenancy Calls

/-- `account.Service` with the functions of package `auth`. -/
structure AuthService where
  hashToken : String → String
  hashPassword : (salt : Nat) → String → String
  verifyPassword : (password hash : String) → Bool
  (refreshTTL tokenTTL : Int)

structure TokenPair where
  /-- The principal whom the access token is signed for. -/
  access : UUID
  refresh : String
  deriving DecidableEq

structure Identities where
  tenants : Tenants
  /-- The column `password_hash` of `account`, by the account. -/
  passwordHash : UUID → Option String
  oneTimeTokens : List OneTimeToken
  refreshTokens : List RefreshToken

/-- What a call hands out and commits. -/
abbrev Call := Except AuthError (Option TokenPair × Identities)

namespace Identities

variable (db : Identities) (service : AuthService)

def accountByEmail (email : String) : Option Account :=
  db.tenants.accounts.find? fun a => a.email == email && a.deletedAt.isNone

def accountById (id : UUID) : Option Account :=
  db.tenants.accounts.find? fun a => a.id == id && a.deletedAt.isNone

def principalByAccount (account : UUID) : Option Principal :=
  db.tenants.principals.find? (·.kind == .human account)

/-- The tables with a new account and its principal. -/
def withAccount (account principal : UUID) (email hash : String) : Identities :=
  let accounts := db.tenants.accounts ++ [⟨account, email, none, .active, none⟩]
  let principals := db.tenants.principals ++ [⟨principal, .human account⟩]
  let passwordHash := Function.update db.passwordHash account (some hash)
  { db with tenants := { db.tenants with accounts, principals }, passwordHash }

/-- `CreateAccount` and `CreateHumanPrincipal`. -/
def createAccount (account principal : UUID) (email hash : String) : Except AuthError Identities :=
  if db.tenants.accounts.any (fun a => a.id == account || a.email == email) ||
      db.tenants.principals.any (fun p => p.id == principal || p.kind == .human account)
  then .error .raised
  else .ok (db.withAccount account principal email hash)

def issueOneTimeToken (id account : UUID) (email : String) (purpose : Purpose) (raw : String)
    (now : Timestamp) : Except AuthError Identities := do
  let oneTimeTokens ← createOneTimeToken db.oneTimeTokens
    ⟨id, some account, email, purpose, service.hashToken raw, now + service.tokenTTL, none⟩
  return { db with oneTimeTokens }

/-- `Signup`; the random values are arguments. -/
def signup (account principal token : UUID) (email displayName password raw : String) (salt : Nat)
    (now : Timestamp) : Call := do
  if email == "" || displayName == "" || decide (byteLength password < 12) then throw .validation
  let db ← db.createAccount account principal email (service.hashPassword salt password)
  let db ← db.issueOneTimeToken service token account email .verifyEmail raw now
  return (none, db)

/-- Consumes a one-time token and gives its account. -/
def consume (raw : String) (purpose : Purpose) (now : Timestamp) :
    Except AuthError (UUID × Identities) := do
  let (t, oneTimeTokens) ← consumeOneTimeToken db.oneTimeTokens (service.hashToken raw) purpose now
  match t.accountId with
  | none => throw .validation
  | some account => return (account, { db with oneTimeTokens })

def markEmailVerified (account : UUID) (now : Timestamp) : Identities :=
  let accounts := updateWhere (·.id == account) (fun a => { a with emailVerifiedAt := some now })
    db.tenants.accounts
  { db with tenants := { db.tenants with accounts } }

def verifyEmail (raw : String) (now : Timestamp) : Call := do
  let (account, db) ← db.consume service raw .verifyEmail now
  return (none, db.markEmailVerified account now)

/-- The end of `Login` and of `ConsumeMagicLink`: the access token and `IssueRefresh`. -/
def issueSession (account token family : UUID) (raw : String) (now : Timestamp) : Call :=
  match db.principalByAccount account with
  | none => .error .raised
  | some p => do
    let refreshTokens ← createRefreshToken db.refreshTokens
      ⟨token, p.id, service.hashToken raw, family, none, none, none, now + service.refreshTTL⟩
    return (some ⟨p.id, raw⟩, { db with refreshTokens })

/-- The checks of `Login`, which all fail in the same way. -/
def credentials (email password : String) : Except AuthError Account :=
  match db.accountByEmail email with
  | none => .error .invalidCredentials
  | some a =>
    match db.passwordHash a.id with
    | none => .error .invalidCredentials
    | some hash =>
      if !service.verifyPassword password hash then .error .invalidCredentials
      else if a.status != .active then .error .invalidCredentials
      else .ok a

def login (email password : String) (token family : UUID) (raw : String) (now : Timestamp) :
    Call := do
  let a ← db.credentials service email password
  db.issueSession service a.id token family raw now

/-- `Refresh`. Where a used token was presented, the revocation is committed and the caller gets
`ErrRefreshReuse`. -/
def refresh (raw : String) (new : UUID) (newRaw : String) (now : Timestamp) : Call := do
  let (principal, refreshTokens) ← rotateRefresh db.refreshTokens (service.hashToken raw) new
    (service.hashToken newRaw) service.refreshTTL now
  return (principal.map (⟨·, newRaw⟩), { db with refreshTokens })

/-- `RequestPasswordReset` and `RequestMagicLink`: an unknown address is a silent success. -/
def requestToken (purpose : Purpose) (email : String) (id : UUID) (raw : String) (now : Timestamp) :
    Call :=
  match db.accountByEmail email with
  | none => .ok (none, db)
  | some a => do
    let db ← db.issueOneTimeToken service id a.id email purpose raw now
    return (none, db)

def requestPasswordReset := requestToken db service .passwordReset

def requestMagicLink := requestToken db service .magicLink

def consumeMagicLink (raw : String) (token family : UUID) (newRaw : String) (now : Timestamp) :
    Call := do
  let (account, db) ← db.consume service raw .magicLink now
  match db.accountById account with
  | none => throw .validation
  | some a =>
    if a.status != .active then throw .validation
    db.issueSession service account token family newRaw now

def updatePasswordHash (account : UUID) (hash : String) : Identities :=
  if (db.accountById account).isSome
  then { db with passwordHash := Function.update db.passwordHash account (some hash) } else db

def confirmPasswordReset (raw newPassword : String) (salt : Nat) (now : Timestamp) : Call := do
  if byteLength newPassword < 12 then throw .validation
  let (account, db) ← db.consume service raw .passwordReset now
  let db := db.updatePasswordHash account (service.hashPassword salt newPassword)
  match db.principalByAccount account with
  | none => throw .raised
  | some p => return (none, { db with refreshTokens := revokeAll db.refreshTokens p.id now })

/-- The statements that `Deactivate` and `Delete` share. -/
def close (op : AccountOp) (principal : UUID) (now : Timestamp) : Except AuthError Identities :=
  match db.tenants.accountOf principal with
  | none => .error .notFound
  | some a =>
    match db.tenants.guardNotLastOwner principal with
    | .error _ => .error .conflict
    | .ok () => .ok { db with tenants := db.tenants.writeAccount a.id op now }

def deactivate (principal : UUID) (now : Timestamp) : Call := do
  let db ← db.close .deactivate principal now
  return (none, db)

def delete (principal : UUID) (now : Timestamp) : Call := do
  let db ← db.close .delete principal now
  return (none, { db with refreshTokens := revokeAll db.refreshTokens principal now })

/-! ### What the calls do -/

variable {db service} {db' : Identities} {pair : Option TokenPair} {now : Timestamp}
  {account : UUID} {email raw : String}

theorem principalByAccount_some {p : Principal} (found : db.principalByAccount account = some p) :
    p ∈ db.tenants.principals ∧ p.kind = .human account :=
  of_find? found

theorem createAccount_ok {principal : UUID} {hash : String}
    (call : db.createAccount account principal email hash = .ok db') :
    (∀ a ∈ db.tenants.accounts, a.id ≠ account) ∧
      (∀ p ∈ db.tenants.principals, p.id ≠ principal ∧ p.kind ≠ .human account) ∧
      db' = db.withAccount account principal email hash := by
  obtain ⟨free, made⟩ := refuse_ok.mp call
  simp only [Bool.or_eq_true, List.any_eq_true, beq_iff_eq, not_or, not_exists, not_and] at free
  exact ⟨fun a row => (free.1 a row).1, free.2, (Except.ok.inj made).symm⟩

variable {purpose : Purpose} {token family : UUID}

theorem issueOneTimeToken_ok {id : UUID}
    (call : db.issueOneTimeToken service id account email purpose raw now = .ok db') :
    ∃ oneTimeTokens, db' = { db with oneTimeTokens } := by
  simp only [issueOneTimeToken, bind_ok, pure_ok] at call
  obtain ⟨oneTimeTokens, -, rfl⟩ := call
  exact ⟨oneTimeTokens, rfl⟩

theorem consume_ok (call : db.consume service raw purpose now = .ok (account, db')) :
    ∃ oneTimeTokens, db' = { db with oneTimeTokens } := by
  simp only [consume, bind, Except.bind, pure, Except.pure] at call
  split at call
  · cases call
  next consumed _ =>
  split at call
  · cases call
  · cases call
    exact ⟨consumed.2, rfl⟩

theorem signup_ok {principal token : UUID} {displayName password : String} {salt : Nat}
    (call : db.signup service account principal token email displayName password raw salt now =
      .ok (pair, db')) :
    (∀ a ∈ db.tenants.accounts, a.id ≠ account) ∧
      (∀ p ∈ db.tenants.principals, p.id ≠ principal ∧ p.kind ≠ .human account) ∧
      pair = none ∧ ∃ hash oneTimeTokens,
        db' = { db.withAccount account principal email hash with oneTimeTokens } := by
  simp only [signup, ↓guard_ok, bind_ok, pure_ok] at call
  obtain ⟨-, created, make, issued, issue, same⟩ := call
  obtain ⟨freshAccount, freshPrincipal, rfl⟩ := createAccount_ok make
  obtain ⟨oneTimeTokens, rfl⟩ := issueOneTimeToken_ok issue
  obtain ⟨rfl, rfl⟩ := Prod.mk.inj same
  exact ⟨freshAccount, freshPrincipal, rfl, _, oneTimeTokens, rfl⟩

theorem verifyEmail_ok (call : db.verifyEmail service raw now = .ok (pair, db')) :
    pair = none ∧ ∃ account oneTimeTokens,
      db' = { db.markEmailVerified account now with oneTimeTokens } := by
  simp only [verifyEmail, bind_ok, pure_ok] at call
  obtain ⟨⟨account, left⟩, consume, same⟩ := call
  obtain ⟨oneTimeTokens, rfl⟩ := consume_ok consume
  obtain ⟨rfl, rfl⟩ := Prod.mk.inj same
  exact ⟨rfl, account, oneTimeTokens, rfl⟩

theorem issueSession_ok
    (call : db.issueSession service account token family raw now = .ok (pair, db')) :
    ∃ p t, p ∈ db.tenants.principals ∧ p.kind = .human account ∧ t.principalId = p.id ∧
      pair = some ⟨p.id, raw⟩ ∧ db' = { db with refreshTokens := db.refreshTokens ++ [t] } := by
  unfold issueSession at call
  split at call
  · cases call
  next p found =>
  obtain ⟨row, kind⟩ := principalByAccount_some found
  simp only [bind_ok, pure_ok] at call
  obtain ⟨created, create, same⟩ := call
  obtain ⟨-, rfl⟩ := createRefreshToken_ok.mp create
  obtain ⟨rfl, rfl⟩ := Prod.mk.inj same
  exact ⟨p, _, row, kind, rfl, rfl, rfl⟩

theorem credentials_ok {password : String} {a : Account}
    (checked : db.credentials service email password = .ok a) :
    a ∈ db.tenants.accounts ∧ a.deletedAt = none ∧ a.status = .active := by
  unfold credentials at checked
  split at checked
  · cases checked
  next b found =>
  split at checked
  · cases checked
  simp only [refuse_ok, Except.ok.injEq] at checked
  obtain ⟨-, active, rfl⟩ := checked
  have chosen := List.find?_some found
  simp only [Bool.and_eq_true, Option.isNone_iff_eq_none] at chosen
  exact ⟨List.mem_of_find?_eq_some found, chosen.2, by simpa using active⟩

theorem login_ok {password : String}
    (call : db.login service email password token family raw now = .ok (pair, db')) :
    ∃ a ∈ db.tenants.accounts, a.status = .active ∧
      db.issueSession service a.id token family raw now = .ok (pair, db') := by
  obtain ⟨a, checked, issued⟩ := bind_ok.mp call
  obtain ⟨row, -, active⟩ := credentials_ok checked
  exact ⟨a, row, active, issued⟩

theorem refresh_ok {newRaw : String} {new : UUID}
    (call : db.refresh service raw new newRaw now = .ok (pair, db')) :
    ∃ principal refreshTokens, rotateRefresh db.refreshTokens (service.hashToken raw) new
        (service.hashToken newRaw) service.refreshTTL now = .ok (principal, refreshTokens) ∧
      pair = principal.map (⟨·, newRaw⟩) ∧ db' = { db with refreshTokens } := by
  simp only [refresh, bind_ok, pure_ok] at call
  obtain ⟨⟨principal, refreshTokens⟩, rotate, same⟩ := call
  obtain ⟨rfl, rfl⟩ := Prod.mk.inj same
  exact ⟨principal, refreshTokens, rotate, rfl, rfl⟩

theorem requestToken_ok {id : UUID}
    (call : db.requestToken service purpose email id raw now = .ok (pair, db')) :
    pair = none ∧ ∃ oneTimeTokens, db' = { db with oneTimeTokens } := by
  unfold requestToken at call
  split at call
  · cases call
    exact ⟨rfl, db.oneTimeTokens, rfl⟩
  simp only [bind_ok, pure_ok] at call
  obtain ⟨issued, issue, same⟩ := call
  obtain ⟨rfl, rfl⟩ := Prod.mk.inj same
  exact ⟨rfl, issueOneTimeToken_ok issue⟩

theorem consumeMagicLink_ok {newRaw : String}
    (call : db.consumeMagicLink service raw token family newRaw now = .ok (pair, db')) :
    ∃ a ∈ db.tenants.accounts, a.status = .active ∧ ∃ oneTimeTokens,
      ({ db with oneTimeTokens } : Identities).issueSession service a.id token family newRaw now =
        .ok (pair, db') := by
  simp only [consumeMagicLink, bind_ok] at call
  obtain ⟨⟨account, left⟩, consume, call⟩ := call
  obtain ⟨oneTimeTokens, rfl⟩ := consume_ok consume
  split at call
  · cases call
  next a found =>
  obtain ⟨row, isAccount, -⟩ := of_find?_key found
  obtain ⟨active, issued⟩ := guard_ok.mp call
  exact ⟨a, row, by simpa using active, oneTimeTokens, isAccount ▸ issued⟩

theorem confirmPasswordReset_ok {newPassword : String} {salt : Nat}
    (call : db.confirmPasswordReset service raw newPassword salt now = .ok (pair, db')) :
    pair = none ∧ ∃ principal oneTimeTokens passwordHash,
      db' = { db with
        oneTimeTokens, passwordHash
        refreshTokens := revokeAll db.refreshTokens principal now } := by
  simp only [confirmPasswordReset, ↓guard_ok, bind_ok] at call
  obtain ⟨-, ⟨account, left⟩, consume, call⟩ := call
  obtain ⟨oneTimeTokens, rfl⟩ := consume_ok consume
  split at call
  · cases call
  next p found =>
  cases call
  unfold updatePasswordHash
  split
  · exact ⟨rfl, p.id, oneTimeTokens, _, rfl⟩
  · exact ⟨rfl, p.id, oneTimeTokens, db.passwordHash, rfl⟩

theorem close_ok {op : AccountOp} {principal : UUID} (call : db.close op principal now = .ok db') :
    ∃ a, db.tenants.accountOf principal = some a ∧
      db' = { db with tenants := db.tenants.writeAccount a.id op now } := by
  unfold close at call
  split at call
  · cases call
  next a found =>
  split at call
  · cases call
  · exact ⟨a, found, (Except.ok.inj call).symm⟩

end Identities

namespace Sample

/-- Digests that keep the text, for runs on fixed inputs. -/
def service : AuthService where
  hashToken := id
  hashPassword := fun _ password => password
  verifyPassword := fun password hash => password == hash
  refreshTTL := 1000
  tokenTTL := 100

end Sample

end Manyforge.Identity
