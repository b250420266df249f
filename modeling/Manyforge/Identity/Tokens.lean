import Manyforge.Text
import Manyforge.Lib.Table

/-!
# Tokens

A refresh token is exchanged once for a child of the same family. Whoever presents a used one loses
the family. One-time tokens are consumed once. Only the digest of a token is stored.
-/
namespace Manyforge.Identity

open Table

structure RefreshToken where
  (id principalId : UUID)
  tokenHash : String
  familyId : UUID
  /-- `NULL` for the root of a family. -/
  parentId : Option UUID
  (usedAt revokedAt : Option Timestamp)
  expiresAt : Timestamp
  deriving DecidableEq

inductive Purpose where
  | verifyEmail | passwordReset | emailChange | magicLink
  deriving DecidableEq

structure OneTimeToken where
  id : UUID
  accountId : Option UUID
  email : String
  purpose : Purpose
  tokenHash : String
  expiresAt : Timestamp
  consumedAt : Option Timestamp
  deriving DecidableEq

inductive AuthError where
  | invalidCredentials | refreshInvalid | validation | notFound | conflict
  /-- An exception of a constraint. -/
  | raised
  deriving DecidableEq

namespace RefreshToken

/-- The row that `RevokeRefreshFamily` and `RevokeAllRefreshForPrincipal` write. -/
def revoke (now : Timestamp) (t : RefreshToken) : RefreshToken := { t with revokedAt := some now }

def use (now : Timestamp) (t : RefreshToken) : RefreshToken := { t with usedAt := some now }

/-- Neither used nor revoked: only its age can keep it from being exchanged. -/
def live (t : RefreshToken) : Bool := t.usedAt.isNone && t.revokedAt.isNone

def child (t : RefreshToken) (id : UUID) (hash : String) (expiresAt : Timestamp) : RefreshToken :=
  ⟨id, t.principalId, hash, t.familyId, some t.id, none, none, expiresAt⟩

end RefreshToken

section Refresh

variable (tokens : List RefreshToken)

/-- `GetRefreshTokenByHashForUpdate`. -/
def byHash (hash : String) : Option RefreshToken := tokens.find? (·.tokenHash == hash)

/-- The keys of `refresh_token` are free. -/
def freeKeys (id : UUID) (hash : String) : Bool :=
  tokens.all fun t => t.id != id && t.tokenHash != hash

def createRefreshToken (t : RefreshToken) : Except AuthError (List RefreshToken) :=
  if freeKeys tokens t.id t.tokenHash then .ok (tokens ++ [t]) else .error .raised

/-- `MarkRefreshTokenUsed`. -/
def markUsed (id : UUID) (now : Timestamp) : List RefreshToken :=
  updateWhere (·.id == id) (.use now) tokens

/-- `RevokeRefreshFamily`. -/
def revokeFamily (family : UUID) (now : Timestamp) : List RefreshToken :=
  updateWhere (fun t => t.familyId == family && t.revokedAt.isNone) (.revoke now) tokens

/-- `RevokeAllRefreshForPrincipal`. -/
def revokeAll (principal : UUID) (now : Timestamp) : List RefreshToken :=
  updateWhere (fun t => t.principalId == principal && t.revokedAt.isNone) (.revoke now) tokens

/-- `RotateRefresh`, on the digests of the presented and of the new token: the principal of the
exchanged token, or `none` where a used token was presented. -/
def rotateRefresh (hash : String) (new : UUID) (newHash : String) (ttl : Int) (now : Timestamp) :
    Except AuthError (Option UUID × List RefreshToken) :=
  match byHash tokens hash with
  | none => .error .refreshInvalid
  | some t =>
    if t.revokedAt.isSome || decide (t.expiresAt < now) then .error .refreshInvalid
    else if t.usedAt.isSome then .ok (none, revokeFamily tokens t.familyId now)
    else do
      let tokens ← createRefreshToken (markUsed tokens t.id now) (t.child new newHash (now + ttl))
      return (some t.principalId, tokens)

end Refresh

section OneTime

variable (tokens : List OneTimeToken)

def createOneTimeToken (t : OneTimeToken) : Except AuthError (List OneTimeToken) :=
  if tokens.any fun other => other.id == t.id || other.tokenHash == t.tokenHash then .error .raised
  else .ok (tokens ++ [t])

/-- `ConsumeOneTimeToken`, which every caller reports as a validation error. -/
def consumeOneTimeToken (hash : String) (purpose : Purpose) (now : Timestamp) :
    Except AuthError (OneTimeToken × List OneTimeToken) :=
  let chosen (t : OneTimeToken) : Bool := t.tokenHash == hash && t.purpose == purpose &&
    t.consumedAt.isNone && decide (now < t.expiresAt)
  match tokens.find? chosen with
  | none => .error .validation
  | some t => .ok (t, updateWhere chosen (fun t => { t with consumedAt := some now }) tokens)

end OneTime

variable {tokens : List RefreshToken} {tokens' : List RefreshToken}

theorem createRefreshToken_ok {t : RefreshToken} :
    createRefreshToken tokens t = .ok tokens' ↔
      freeKeys tokens t.id t.tokenHash = true ∧ tokens' = tokens ++ [t] := by
  unfold createRefreshToken
  split
  next free => simp [free, eq_comm]
  next taken => simp [taken]

theorem freeKeys_markUsed (id : UUID) (now : Timestamp) (new : UUID) (hash : String) :
    freeKeys (markUsed tokens id now) new hash = freeKeys tokens new hash := by
  simp only [freeKeys, markUsed, updateWhere, List.all_map]
  congr 1
  funext t
  simp only [Function.comp_apply]
  split
  · rfl
  · rfl

theorem rotateRefresh_reuse {hash newHash : String} {new : UUID} {ttl : Int} {now : Timestamp}
    (call : rotateRefresh tokens hash new newHash ttl now = .ok (none, tokens')) :
    ∃ t, byHash tokens hash = some t ∧ tokens' = revokeFamily tokens t.familyId now := by
  unfold rotateRefresh at call
  split at call
  · cases call
  next t found =>
  split at call
  · cases call
  split at call
  · cases call
    exact ⟨t, found, rfl⟩
  · simp only [bind, Except.bind, pure, Except.pure] at call
    split at call <;> cases call

theorem rotateRefresh_rotated {hash newHash : String} {new principal : UUID} {ttl : Int}
    {now : Timestamp} :
    rotateRefresh tokens hash new newHash ttl now = .ok (some principal, tokens') ↔
      ∃ t, byHash tokens hash = some t ∧ t.live = true ∧ now ≤ t.expiresAt ∧
        freeKeys tokens new newHash = true ∧ principal = t.principalId ∧
        tokens' = markUsed tokens t.id now ++ [t.child new newHash (now + ttl)] := by
  unfold rotateRefresh
  cases byHash tokens hash with
  | none => simp
  | some t =>
    simp only [Option.some.injEq, exists_eq_left', RefreshToken.live]
    cases t.revokedAt with
    | some _ => simp
    | none =>
    by_cases aged : t.expiresAt < now
    · simp [aged, not_le.mpr aged]
    cases t.usedAt with
    | some _ => simp [aged]
    | none =>
    simp only [aged, not_lt.mp aged, createRefreshToken, freeKeys_markUsed,
      RefreshToken.child, bind, Except.bind, pure, Except.pure]
    by_cases free : freeKeys tokens new newHash = true
    · simp only [free, Option.isSome_none, Bool.false_or, decide_false, Bool.false_eq_true, ↓reduceIte,
        Except.ok.injEq, Prod.mk.injEq, Option.some.injEq, Option.isNone_none, Bool.and_self, true_and]
      exact and_congr eq_comm eq_comm
    · simp [free]

end Manyforge.Identity
