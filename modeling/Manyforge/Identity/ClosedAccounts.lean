import Manyforge.Identity.Service
import Manyforge.Lib.Transition

/-!
# Closed accounts

No code reactivates an account, so a deactivated or deleted account is to get no session any more.
`Delete` revokes the refresh tokens of the account; `Deactivate` leaves them as they are, and
`Refresh` does not read the account. A session for a closed account is one that `Refresh` hands out
for a token from before the deactivation.
-/
namespace Manyforge.Identity

open Table Tenancy Transition Identities

/-- The tables, and the accounts that a committed call has closed so far. -/
structure SessionState where
  tables : Identities
  (deactivated deleted : List UUID)

inductive SessionAction where
  | signup (account principal token : UUID) (email displayName password raw : String) (salt : Nat)
      (now : Timestamp)
  | verifyEmail (raw : String) (now : Timestamp)
  | login (email password : String) (token family : UUID) (raw : String) (now : Timestamp)
  | refresh (raw : String) (new : UUID) (newRaw : String) (now : Timestamp)
  | requestMagicLink (email : String) (id : UUID) (raw : String) (now : Timestamp)
  | consumeMagicLink (raw : String) (token family : UUID) (newRaw : String) (now : Timestamp)
  | requestPasswordReset (email : String) (id : UUID) (raw : String) (now : Timestamp)
  | confirmPasswordReset (raw newPassword : String) (salt : Nat) (now : Timestamp)
  | deactivate (principal : UUID) (now : Timestamp)
  | delete (principal : UUID) (now : Timestamp)

namespace SessionState

variable (service : AuthService) (s : SessionState)

def call : SessionAction → Call
  | .signup account principal token email displayName password raw salt now =>
    s.tables.signup service account principal token email displayName password raw salt now
  | .verifyEmail raw now => s.tables.verifyEmail service raw now
  | .login email password token family raw now =>
    s.tables.login service email password token family raw now
  | .refresh raw new newRaw now => s.tables.refresh service raw new newRaw now
  | .requestMagicLink email id raw now => s.tables.requestMagicLink service email id raw now
  | .consumeMagicLink raw token family newRaw now =>
    s.tables.consumeMagicLink service raw token family newRaw now
  | .requestPasswordReset email id raw now => s.tables.requestPasswordReset service email id raw now
  | .confirmPasswordReset raw newPassword salt now =>
    s.tables.confirmPasswordReset service raw newPassword salt now
  | .deactivate principal now => s.tables.deactivate principal now
  | .delete principal now => s.tables.delete principal now

/-- The accounts that a call closes when it succeeds. -/
def deactivates : SessionAction → List UUID
  | .deactivate principal _ => ((s.tables.tenants.accountOf principal).map (·.id)).toList
  | _ => []

def deletes : SessionAction → List UUID
  | .delete principal _ => ((s.tables.tenants.accountOf principal).map (·.id)).toList
  | _ => []

variable (action : SessionAction)

def next : SessionState :=
  match s.call service action with
  | .error _ => s
  | .ok (_, tables) =>
    ⟨tables, s.deactivated ++ s.deactivates action, s.deleted ++ s.deletes action⟩

/-- The tokens that a call hands out. -/
def session : Option TokenPair :=
  match s.call service action with
  | .error _ => none
  | .ok (pair, _) => pair

/-- No token for the principal of a closed account. -/
def Denied : Prop :=
  ∀ pair ∈ s.session service action, ∀ account ∈ s.tables.tenants.accountId? pair.access,
    account ∉ s.deactivated ∧ account ∉ s.deleted
  deriving Decidable

/-- The condition on the state before a call: `Refresh` is not given a live token of a principal
whose account has been deactivated. -/
def RefreshesOpen : SessionAction → Prop
  | .refresh raw new newRaw now =>
    ∀ t ∈ byHash s.tables.refreshTokens (service.hashToken raw),
      t.live = true → now ≤ t.expiresAt →
      freeKeys s.tables.refreshTokens new (service.hashToken newRaw) = true →
      ∀ account ∈ s.tables.tenants.accountId? t.principalId, account ∉ s.deactivated
  | _ => True

instance : DecidablePred (s.RefreshesOpen service)
  | .refresh .. => inferInstanceAs (Decidable (∀ t ∈ byHash _ _, _ → _ → _ → ∀ account ∈ _, _))
  | .signup .. | .verifyEmail .. | .login .. | .requestMagicLink .. | .consumeMagicLink ..
  | .requestPasswordReset .. | .confirmPasswordReset .. | .deactivate .. | .delete .. =>
    .isTrue trivial

end SessionState

/-- The keys of `account` and of `principal`. -/
structure Keyed (tenants : Tenants) : Prop where
  accounts : UniqueOn (·.id) tenants.accounts
  principals : UniqueOn (·.id) tenants.principals
  /-- `principal_account_unique`. -/
  onePrincipal : ∀ p ∈ tenants.principals, ∀ q ∈ tenants.principals, ∀ account,
    p.kind = .human account → q.kind = .human account → p = q

/-- A closed account stays in the table, is not active, and no token of a deleted one is left. -/
structure SessionInv (tenants : Tenants) (tokens : List RefreshToken)
    (deactivated deleted : List UUID) : Prop where
  keyed : Keyed tenants
  known : ∀ id, id ∈ deactivated ∨ id ∈ deleted → ∃ a ∈ tenants.accounts, a.id = id
  inactive : ∀ a ∈ tenants.accounts, a.id ∈ deactivated ∨ a.id ∈ deleted → a.status = .deactivated
  cutOff : ∀ t ∈ tokens, ∀ id ∈ deleted, tenants.accountId? t.principalId = some id →
    t.revokedAt.isSome = true

namespace SessionInv

variable {tenants : Tenants} {tokens : List RefreshToken} {deactivated deleted : List UUID}

section

variable (inv : SessionInv tenants tokens deactivated deleted)

include inv

theorem open_of_active {a : Account}
    {p : Principal} (row : a ∈ tenants.accounts) (active : a.status = .active)
    (principal : p ∈ tenants.principals) (kind : p.kind = .human a.id) :
    ∀ account ∈ tenants.accountId? p.id, account ∉ deactivated ∧ account ∉ deleted := by
  intro account found
  rw [Tenants.accountId?_of_mem inv.keyed.principals principal kind, Option.mem_some_iff] at found
  subst found
  have notClosed (closed : a.id ∈ deactivated ∨ a.id ∈ deleted) : False := by
    have status := inv.inactive a row closed
    rw [active] at status
    cases status
  exact ⟨fun closed => notClosed (.inl closed), fun closed => notClosed (.inr closed)⟩

theorem undeleted_of_live {t : RefreshToken} (row : t ∈ tokens) (live : t.live = true) :
    ∀ account ∈ tenants.accountId? t.principalId, account ∉ deleted := by
  intro account found closed
  have revoked := inv.cutOff t row account closed found
  simp only [RefreshToken.live, Bool.and_eq_true, Option.isNone_iff_eq_none] at live
  simp [live.2] at revoked

theorem issued {t : RefreshToken}
    (undeleted : ∀ account ∈ tenants.accountId? t.principalId, account ∉ deleted) :
    SessionInv tenants (tokens ++ [t]) deactivated deleted := by
  refine { inv with cutOff := ?_ }
  intro u row id closed found
  rcases mem_inserted.mp row with old | rfl
  · exact inv.cutOff u old id closed found
  · exact absurd closed (undeleted id found)

theorem written {chosen : RefreshToken → Bool} (change : RefreshToken → RefreshToken)
    (principal : ∀ t, (change t).principalId = t.principalId)
    (revoked : ∀ t, t.revokedAt.isSome = true → (change t).revokedAt.isSome = true) :
    SessionInv tenants (updateWhere chosen change tokens) deactivated deleted := by
  refine { inv with cutOff := ?_ }
  intro u row id closed found
  obtain ⟨t, old, ⟨-, rfl⟩ | ⟨-, rfl⟩⟩ := updated_or_kept row
  · rw [principal] at found
    exact revoked t (inv.cutOff t old id closed found)
  · exact inv.cutOff t old id closed found

theorem markUsed (id : UUID) (now : Timestamp) :
    SessionInv tenants (markUsed tokens id now) deactivated deleted :=
  inv.written (.use now) (fun _ => rfl) fun _ revoked => revoked

theorem revoked (chosen : RefreshToken → Bool) (now : Timestamp) :
    SessionInv tenants (updateWhere chosen (.revoke now) tokens) deactivated deleted :=
  inv.written (.revoke now) (fun _ => rfl) fun _ _ => rfl

theorem accountsWritten
    {chosen : Account → Bool} (change : Account → Account) (ids : ∀ a, (change a).id = a.id)
    (stays : ∀ a, a.status = .deactivated → (change a).status = .deactivated) :
    SessionInv { tenants with accounts := updateWhere chosen change tenants.accounts } tokens
      deactivated deleted := by
  have same (a : Account) : (if chosen a then change a else a).id = a.id := by
    split
    · exact ids a
    · rfl
  refine ⟨⟨inv.keyed.accounts.updateWhere fun a _ => ids a, inv.keyed.principals,
    inv.keyed.onePrincipal⟩, fun id closed => ?_, fun a' row closed => ?_, inv.cutOff⟩
  · obtain ⟨a, old, isId⟩ := inv.known id closed
    exact ⟨_, mem_updateWhere.mpr ⟨a, old, rfl⟩, (same a).trans isId⟩
  · obtain ⟨a, old, rfl⟩ := mem_updateWhere.mp row
    rw [same a] at closed
    have status := inv.inactive a old closed
    split
    · exact stays a status
    · exact status

/-- One more account is deactivated, or deleted with all its tokens revoked. -/
theorem closedToo {id : UUID} {deactivated' deleted' : List UUID}
    (grows : ∀ other, other ∈ deactivated' ∨ other ∈ deleted' →
      (other ∈ deactivated ∨ other ∈ deleted) ∨ other = id)
    (present : ∃ a ∈ tenants.accounts, a.id = id)
    (inactive : ∀ a ∈ tenants.accounts, a.id = id → a.status = .deactivated)
    (cut : ∀ t ∈ tokens, ∀ other ∈ deleted', tenants.accountId? t.principalId = some other →
      other ∈ deleted ∨ t.revokedAt.isSome = true) : SessionInv tenants tokens deactivated' deleted' := by
  refine ⟨inv.keyed, fun other closed => ?_, fun a row closed =>
    ?_, fun t row other closed found => ?_⟩
  · rcases grows other closed with old | rfl
    · exact inv.known other old
    · exact present
  · rcases grows a.id closed with old | isId
    · exact inv.inactive a row old
    · exact inactive a row isId
  · rcases cut t row other closed found with old | revoked
    · exact inv.cutOff t row other old found
    · exact revoked

theorem accountWritten (id : UUID) (op : AccountOp) (now : Timestamp) :
    SessionInv (tenants.writeAccount id op now) tokens deactivated deleted := by
  cases op with
  | deactivate | delete => exact inv.accountsWritten _ (fun _ => rfl) fun _ _ => rfl

end

theorem accountClosed (keyed : Keyed tenants) {a : Account} (row : a ∈ tenants.accounts)
    (live : a.deletedAt = none) (op : AccountOp) (now : Timestamp) :
    (∃ a' ∈ (tenants.writeAccount a.id op now).accounts, a'.id = a.id) ∧
      ∀ a' ∈ (tenants.writeAccount a.id op now).accounts, a'.id = a.id → a'.status = .deactivated := by
  constructor
  · refine ⟨_, mem_updateWhere.mpr ⟨a, row, rfl⟩, ?_⟩
    cases op <;> simp [live]
  · intro a' row' isId
    obtain ⟨b, old, rfl⟩ := mem_updateWhere.mp row'
    have same : b.id = a.id := by
      split at isId
      · cases op <;> exact isId
      · exact isId
    obtain rfl := keyed.accounts.eq_of_key old row same
    cases op <;> simp [live]

theorem signedUp {db : Identities} (inv : SessionInv db.tenants tokens deactivated deleted)
    {account principal : UUID} (email hash : String)
    (freshAccount : ∀ a ∈ db.tenants.accounts, a.id ≠ account)
    (freshPrincipal : ∀ p ∈ db.tenants.principals, p.id ≠ principal ∧ p.kind ≠ .human account) :
    SessionInv (db.withAccount account principal email hash).tenants tokens deactivated deleted := by
  have notClosed (closed : account ∈ deactivated ∨ account ∈ deleted) : False := by
    obtain ⟨a, row, isId⟩ := inv.known account closed
    exact freshAccount a row isId
  refine ⟨⟨inv.keyed.accounts.append_fresh freshAccount,
    inv.keyed.principals.append_fresh fun p row => (freshPrincipal p row).1, ?_⟩,
    fun id closed => ?_, fun a row closed => ?_, fun t row id closed found => ?_⟩
  · intro p row q row' other kind kind'
    rcases List.mem_append.mp row with old | new <;> rcases List.mem_append.mp row' with old' | new'
    · exact inv.keyed.onePrincipal p old q old' other kind kind'
    · obtain rfl := List.mem_singleton.mp new'
      cases kind'
      exact absurd kind (freshPrincipal p old).2
    · obtain rfl := List.mem_singleton.mp new
      cases kind
      exact absurd kind' (freshPrincipal q old').2
    · rw [List.mem_singleton.mp new, List.mem_singleton.mp new']
  · obtain ⟨a, old, isId⟩ := inv.known id closed
    exact ⟨a, List.mem_append_left _ old, isId⟩
  · rcases mem_inserted.mp row with old | rfl
    · exact inv.inactive a old closed
    · exact (notClosed closed).elim
  · obtain ⟨p, row', isP, kind⟩ := Tenants.accountId?_some found
    rcases mem_inserted.mp row' with old | rfl
    · refine inv.cutOff t row id closed ?_
      rw [← isP, Tenants.accountId?_of_mem inv.keyed.principals old kind]
    · cases kind
      exact (notClosed (.inr closed)).elim

end SessionInv

open SessionInv

namespace SessionState

variable {service : AuthService} {s : SessionState}

def Inv (s : SessionState) : Prop :=
  SessionInv s.tables.tenants s.tables.refreshTokens s.deactivated s.deleted

variable {action : SessionAction}

theorem session_eq_some {pair : TokenPair} :
    s.session service action = some pair ↔ ∃ db', s.call service action = .ok (some pair, db') := by
  unfold session
  cases s.call service action with
  | error refusal => simp
  | ok result =>
    obtain ⟨pair', db'⟩ := result
    simp

variable {now : Timestamp} (inv : s.Inv)

include inv

theorem Inv.issueSession (db : Identities) (tenants : db.tenants = s.tables.tenants)
    (tokens : db.refreshTokens = s.tables.refreshTokens) {a : Account}
    (row : a ∈ s.tables.tenants.accounts) (active : a.status = .active) {token family : UUID}
    {raw : String} {pair : Option TokenPair} {db' : Identities}
    (call : db.issueSession service a.id token family raw now = .ok (pair, db')) :
    SessionInv db'.tenants db'.refreshTokens s.deactivated s.deleted ∧
      ∀ p ∈ pair, ∀ account ∈ s.tables.tenants.accountId? p.access,
        account ∉ s.deactivated ∧ account ∉ s.deleted := by
  obtain ⟨p, t, principal, kind, isP, rfl, rfl⟩ := issueSession_ok call
  rw [tenants] at principal
  have isOpen := open_of_active inv row active principal kind
  constructor
  · simp only [tenants, tokens]
    refine issued inv fun account found => (isOpen account ?_).2
    rwa [← isP]
  · rintro _ ⟨⟩
    exact isOpen

theorem Inv.rotateRefresh {hash newHash : String} {new : UUID} {ttl : Int} {principal : Option UUID}
    {tokens : List RefreshToken}
    (call : rotateRefresh s.tables.refreshTokens hash new newHash ttl now =
      .ok (principal, tokens)) : SessionInv s.tables.tenants tokens s.deactivated s.deleted := by
  cases principal with
  | none =>
    obtain ⟨t, -, rfl⟩ := rotateRefresh_reuse call
    exact revoked inv _ now
  | some principal =>
    obtain ⟨t, found, live, -, -, -, rfl⟩ := rotateRefresh_rotated.mp call
    -- The parent is live, so its account is not deleted, and neither is the child's.
    have undeleted := undeleted_of_live inv (List.mem_of_find?_eq_some found) live
    exact (SessionInv.markUsed inv t.id now).issued undeleted

theorem Inv.closed {op : AccountOp} {principal : UUID} {db' : Identities}
    (call : s.tables.close op principal now = .ok db') :
    ∃ a, s.tables.tenants.accountOf principal = some a ∧
      db' = { s.tables with tenants := s.tables.tenants.writeAccount a.id op now } ∧
      SessionInv db'.tenants db'.refreshTokens s.deactivated s.deleted ∧
      (∃ a' ∈ db'.tenants.accounts, a'.id = a.id) ∧
      ∀ a' ∈ db'.tenants.accounts, a'.id = a.id → a'.status = .deactivated := by
  obtain ⟨a, found, rfl⟩ := close_ok call
  obtain ⟨-, row, live⟩ := Tenants.accountOf_some found
  exact ⟨a, found, rfl, accountWritten inv a.id op now,
    accountClosed (keyed inv) row live op now⟩

omit inv in
theorem unclosed (open_ : s.deactivates action = [] ∧ s.deletes action = []) {tenants : Tenants}
    {tokens : List RefreshToken} (inv : SessionInv tenants tokens s.deactivated s.deleted) :
    SessionInv tenants tokens (s.deactivated ++ s.deactivates action)
      (s.deleted ++ s.deletes action) := by
  rwa [open_.1, open_.2, List.append_nil, List.append_nil]

theorem Inv.delete {principal : UUID} {closed : Identities}
    (close : s.tables.close .delete principal now = .ok closed) :
    SessionInv closed.tenants (revokeAll closed.refreshTokens principal now)
      (s.deactivated ++ s.deactivates (.delete principal now))
      (s.deleted ++ s.deletes (.delete principal now)) := by
  obtain ⟨a, found, rfl, inv', present, inactive⟩ := inv.closed close
  have account := (Tenants.accountOf_some found).1
  have cut : ∀ t ∈ revokeAll s.tables.refreshTokens principal now,
      s.tables.tenants.accountId? t.principalId = some a.id → t.revokedAt.isSome = true := by
    intro t row owner
    obtain ⟨u, -, ⟨-, rfl⟩ | ⟨kept, rfl⟩⟩ := updated_or_kept row
    · rfl
    -- The account has one principal, and the write has reached all of its tokens.
    obtain ⟨p, principalRow, isPrincipal, kind⟩ := Tenants.accountId?_some account
    obtain ⟨q, ownerRow, isOwner, ownerKind⟩ := Tenants.accountId?_some owner
    obtain rfl := (keyed inv).onePrincipal p principalRow q ownerRow a.id kind ownerKind
    cases revoked : u.revokedAt with
    | some _ => rfl
    | none => simp [← isOwner, isPrincipal, revoked] at kept
  refine (inv'.revoked _ now).closedToo (fun other isClosed => ?_) present inactive
    fun t row other isClosed owner => ?_
  · simpa [deactivates, deletes, found, or_assoc] using isClosed
  · obtain old | isId : other ∈ s.deleted ∨ other = a.id := by simpa [deletes, found] using isClosed
    · exact .inl old
    · exact .inr (cut t row (isId ▸ owner))

theorem Inv.call {action : SessionAction} {pair : Option TokenPair} {db' : Identities}
    (call : s.call service action = .ok (pair, db')) :
    SessionInv db'.tenants db'.refreshTokens (s.deactivated ++ s.deactivates action)
      (s.deleted ++ s.deletes action) := by
  cases action with
  | signup account principal token email displayName password raw salt now =>
    obtain ⟨freshAccount, freshPrincipal, -, hash, oneTimeTokens, rfl⟩ := signup_ok call
    exact unclosed ⟨rfl, rfl⟩ (signedUp inv email hash freshAccount freshPrincipal)
  | verifyEmail raw now =>
    obtain ⟨-, account, oneTimeTokens, rfl⟩ := verifyEmail_ok call
    exact unclosed ⟨rfl, rfl⟩ (accountsWritten inv _ (fun _ => rfl) fun _ stays => stays)
  | login email password token family raw now =>
    obtain ⟨a, row, active, issue⟩ := login_ok call
    exact unclosed ⟨rfl, rfl⟩ (inv.issueSession s.tables rfl rfl row active issue).1
  | refresh raw new newRaw now =>
    obtain ⟨principal, tokens, rotate, -, rfl⟩ := refresh_ok call
    exact unclosed ⟨rfl, rfl⟩ (inv.rotateRefresh rotate)
  | requestMagicLink email id raw now | requestPasswordReset email id raw now =>
    obtain ⟨-, oneTimeTokens, rfl⟩ := requestToken_ok call
    exact unclosed ⟨rfl, rfl⟩ inv
  | consumeMagicLink raw token family newRaw now =>
    obtain ⟨a, row, active, oneTimeTokens, issue⟩ := consumeMagicLink_ok call
    have issued := inv.issueSession { s.tables with oneTimeTokens } rfl rfl row active issue
    exact unclosed ⟨rfl, rfl⟩ issued.1
  | confirmPasswordReset raw newPassword salt now =>
    obtain ⟨-, principal, oneTimeTokens, passwordHash, rfl⟩ := confirmPasswordReset_ok call
    exact unclosed ⟨rfl, rfl⟩ (revoked inv _ now)
  | deactivate principal now =>
    simp only [SessionState.call, deactivate, bind, Except.bind, pure, Except.pure] at call
    split at call
    · cases call
    next closed close =>
    cases call
    obtain ⟨a, found, -, inv', present, inactive⟩ := inv.closed close
    refine inv'.closedToo (fun other isClosed => ?_) present inactive fun _ _ other isClosed _ => .inl ?_
    · simpa [deactivates, deletes, found, or_right_comm] using isClosed
    · simpa [deletes] using isClosed
  | delete principal now =>
    simp only [SessionState.call, Identities.delete, bind, Except.bind, pure, Except.pure] at call
    split at call
    · cases call
    next closed close =>
    cases call
    exact inv.delete close

theorem Inv.next (action : SessionAction) : (s.next service action).Inv := by
  unfold SessionState.next
  split
  · exact inv
  next pair tables call => exact inv.call call

/-- A call other than `Refresh` hands out tokens for an active account only. -/
theorem Inv.denied (other : ∀ raw new newRaw now, action ≠ .refresh raw new newRaw now) :
    s.Denied service action := by
  intro pair handed
  obtain ⟨db', call⟩ := session_eq_some.mp handed
  cases action with
  | signup account principal token email displayName password raw salt now =>
    cases (signup_ok call).2.2.1
  | verifyEmail raw now => cases (verifyEmail_ok call).1
  | login email password token family raw now =>
    obtain ⟨a, row, active, issue⟩ := login_ok call
    exact (inv.issueSession s.tables rfl rfl row active issue).2 pair rfl
  | refresh raw new newRaw now => exact absurd rfl (other raw new newRaw now)
  | requestMagicLink email id raw now | requestPasswordReset email id raw now =>
    cases (requestToken_ok call).1
  | consumeMagicLink raw token family newRaw now =>
    obtain ⟨a, row, active, oneTimeTokens, issue⟩ := consumeMagicLink_ok call
    exact (inv.issueSession { s.tables with oneTimeTokens } rfl rfl row active issue).2 pair rfl
  | confirmPasswordReset raw newPassword salt now =>
    cases (confirmPasswordReset_ok call).1
  | deactivate principal now =>
    simp only [SessionState.call, deactivate, bind, Except.bind, pure, Except.pure] at call
    split at call <;> cases call
  | delete principal now =>
    simp only [SessionState.call, Identities.delete, bind, Except.bind, pure, Except.pure] at call
    split at call <;> cases call

omit inv in
/-- `Refresh` hands out tokens for whatever principal the live token names. -/
theorem refresh_session {raw newRaw : String} {new : UUID} {pair : TokenPair} :
    s.session service (.refresh raw new newRaw now) = some pair ↔
      ∃ t, byHash s.tables.refreshTokens (service.hashToken raw) = some t ∧ t.live = true ∧
        now ≤ t.expiresAt ∧
        freeKeys s.tables.refreshTokens new (service.hashToken newRaw) = true ∧
        pair = ⟨t.principalId, newRaw⟩ := by
  rw [session_eq_some]
  constructor
  · rintro ⟨db', call⟩
    obtain ⟨principal, tokens, rotate, handed, -⟩ := refresh_ok call
    obtain ⟨p, rfl, rfl⟩ := Option.map_eq_some_iff.mp handed.symm
    obtain ⟨t, found, live, age, free, rfl, -⟩ := rotateRefresh_rotated.mp rotate
    exact ⟨t, found, live, age, free, rfl⟩
  · rintro ⟨t, found, live, age, free, rfl⟩
    have rotate := rotateRefresh_rotated.mpr
      ⟨t, found, live, age, free, rfl, (rfl : _ = markUsed s.tables.refreshTokens t.id now ++
        [t.child new (service.hashToken newRaw) (now + service.refreshTTL)])⟩
    exact ⟨_, by simp only [SessionState.call, refresh, rotate, bind, Except.bind, pure,
      Except.pure, Option.map_some]; rfl⟩

/-- Only `Refresh` after a deactivation serves a closed account. -/
theorem Inv.denied_iff (action : SessionAction) :
    s.Denied service action ↔ s.RefreshesOpen service action := by
  cases action with
  | refresh raw new newRaw now =>
    constructor
    · intro denied t found live age free account owner
      have handed := refresh_session.mpr ⟨t, found, live, age, free, rfl⟩
      exact (denied ⟨t.principalId, newRaw⟩ handed account owner).1
    · intro open_ pair handed account owner
      obtain ⟨t, found, live, age, free, rfl⟩ := refresh_session.mp handed
      have row := List.mem_of_find?_eq_some found
      exact ⟨open_ t found live age free account owner,
        undeleted_of_live inv row live account owner⟩
  | _ => exact iff_of_true (inv.denied nofun) trivial

end SessionState

open SessionState

/-- Along every sequence of calls a closed account gets no session exactly when `Refresh` is never
given a live token of a deactivated account. -/
theorem closed_accounts_iff (service : AuthService) {s : SessionState}
    (keyed : Keyed s.tables.tenants)
    (deactivated : s.deactivated = []) (deleted : s.deleted = []) (actions : List SessionAction) :
    Along (next service) (Denied service) s actions ↔
      Along (next service) (RefreshesOpen service) s actions := by
  have start : s.Inv := by
    refine ⟨keyed, ?_, ?_, ?_⟩ <;> simp [deactivated, deleted]
  exact Along.congr (fun s action inv => Inv.next inv action)
    (fun s action inv => Inv.denied_iff inv action) start

namespace Sample

def unused : SessionState where
  tables := ⟨⟨[], [], [], [], [], [], [], [], []⟩, fun _ => none, [], []⟩
  deactivated := []
  deleted := []

theorem unused_keyed : Keyed unused.tables.tenants :=
  ⟨List.nodup_nil, List.nodup_nil, nofun⟩

/-- An account that is verified and logged in. -/
def loggedIn : List SessionAction :=
  [.signup 30 20 50 "ada@acme.test" "Ada" "correct horse" "v" 0 0, .verifyEmail "v" 1,
    .login "ada@acme.test" "correct horse" 60 70 "r1" 2]

/-- The account is deleted with a magic link still open, and no token of it works any more. -/
theorem closed_accounts_delete :
    Along (next service) (Denied service) unused (loggedIn ++
      [.refresh "r1" 61 "r2" 3, .requestMagicLink "ada@acme.test" 51 "m" 4, .delete 20 5,
        .refresh "r2" 62 "r3" 6, .consumeMagicLink "m" 63 71 "r4" 7,
        .login "ada@acme.test" "correct horse" 64 72 "r5" 8]) :=
  (closed_accounts_iff service unused_keyed rfl rfl _).mpr (by decide +kernel)

/-- The account after its deactivation. -/
def deactivated : SessionState :=
  (loggedIn ++ [SessionAction.deactivate 20 3]).foldl (next service) unused

/-- The token from before the deactivation still gives a session. -/
theorem deactivated_refreshes :
    ¬ Along (next service) (Denied service) unused
      (loggedIn ++ [.deactivate 20 3, .refresh "r1" 61 "r2" 4]) ∧
    deactivated.deactivated = [30] ∧ deactivated.tables.tenants.accountId? 20 = some 30 ∧
      deactivated.session service (.refresh "r1" 61 "r2" 4) = some ⟨20, "r2"⟩ := by
  decide +kernel

end Sample

end Manyforge.Identity
