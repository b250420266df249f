import Manyforge.Identity.Rotation

/-!
# What rotation guarantees

A token is locked from the moment it is read to the commit of its exchange, so it is exchanged at
most once. A revocation ends a family for good when it has locked every token of the family that can
still be exchanged; a child that a concurrent rotation commits after the revocation has collected
its rows is left out, and so is a login that has read the account before its deletion.
-/
namespace Manyforge.Identity

open Table Tenancy Transition

/-- No login for the principal can pass its checks. -/
def Barred (tenants : Tenants) (principal : UUID) : Prop :=
  ∀ p ∈ tenants.principals, p.id = principal → ∀ a ∈ tenants.accounts, p.kind = .human a.id →
    a.deletedAt = none → a.status = .deactivated

def Scope.Valid (tables : Identities) : Scope → Prop
  | .family id => ∃ t ∈ tables.refreshTokens, t.familyId = id
  | .principal id account => ∀ p ∈ tables.tenants.principals, p.id = id → p.kind = .human account

/-- What a transaction relies on. -/
def TokenStage.Valid (tables : Identities) : TokenStage → Prop
  | .rotating t _ => t ∈ tables.refreshTokens ∧ t.live = true
  | .revoke _ scope | .revoking _ scope _ => scope.Valid tables
  | .refresh .. | .logout .. | .login .. => True

namespace TokenState

structure Inv (s : TokenState) : Prop where
  ids : UniqueOn (·.id) s.tables.refreshTokens
  hashes : UniqueOn (·.tokenHash) s.tables.refreshTokens
  principalIds : UniqueOn (·.id) s.tables.tenants.principals
  names : UniqueOn (·.id) s.open_
  exclusive : Locks.Exclusive TokenTx.id TokenTx.locks s.open_
  stages : ∀ tx ∈ s.open_, tx.stage.Valid s.tables
  used : ∀ id ∈ s.exchanged, ∃ t ∈ s.tables.refreshTokens, t.id = id ∧ t.usedAt.isSome = true
  families : ∀ family ∈ s.deadFamilies, ∃ t ∈ s.tables.refreshTokens, t.familyId = family
  barred : ∀ principal ∈ s.deadPrincipals, Barred s.tables.tenants principal

/-- No token of these families and principals can be exchanged any more. -/
structure Severed (s : TokenState) (families principals : List UUID) : Prop where
  tokens : ∀ t ∈ s.tables.refreshTokens, t.live = true →
    t.familyId ∉ families ∧ t.principalId ∉ principals
  logins : ∀ tx ∈ s.open_, ∀ principal, tx.stage = .login principal → principal ∉ principals

/-- What one action can do. -/
inductive Effect (service : AuthService) (s : TokenState) : TokenState → Prop
  | none : Effect service s s
  | started (id : UUID) (stage : TokenStage) (fresh : ∀ tx ∈ s.open_, tx.id ≠ id)
      (unlocked : stage.locks = []) (valid : stage.Valid s.tables)
      (login : ∀ principal, stage = .login principal → ¬ Barred s.tables.tenants principal) :
      Effect service s { s with open_ := s.open_ ++ [⟨id, stage⟩] }
  | wentOn (tx : TokenTx) (isOpen : tx ∈ s.open_) (stage : TokenStage) (valid : stage.Valid s.tables)
      (gains : ∀ row ∈ stage.locks, row ∈ tx.locks ∨ s.unlocked tx.id row = true)
      (noLogin : ∀ principal, stage ≠ .login principal) : Effect service s (s.goOn tx.id stage)
  | closed (id : UUID) : Effect service s (s.close id)
  | rotated (tx : TokenTx) (isOpen : tx ∈ s.open_) (t : RefreshToken) (started : Timestamp)
      (stage : tx.stage = .rotating t started) (new : UUID) (raw : String) (now : Timestamp) :
      Effect service s (s.rotate service tx.id t started new raw now)
  | revoked (tx : TokenTx) (isOpen : tx ∈ s.open_) (held : List UUID) (scope : Scope)
      (stage : tx.stage = .revoking held scope []) (now : Timestamp) :
      Effect service s (s.revoke tx.id held scope now)
  | entered (tx : TokenTx) (isOpen : tx ∈ s.open_) (principal : UUID)
      (stage : tx.stage = .login principal) (new family : UUID) (raw : String) (now : Timestamp) :
      Effect service s (s.enter service tx.id principal new family raw now)

/-- Whether an action commits a revocation. -/
def Revokes (s : TokenState) (action : TokenAction) (held : List UUID) (scope : Scope) : Prop :=
  ∃ tx ∈ s.open_, tx.stage = .revoking held scope [] ∧ s.stage? tx.id = some tx.stage ∧
    ∃ new family raw now, action = .commit tx.id new family raw now

/-- No session is ended. -/
def SameDead (s s' : TokenState) : Prop :=
  s'.deadFamilies = s.deadFamilies ∧ s'.deadPrincipals = s.deadPrincipals

/-- An action with its effect; only a revocation ends sessions. -/
structure Acts (service : AuthService) (s : TokenState) (action : TokenAction) (s' : TokenState) :
    Prop where
  effect : Effect service s s'
  dead : (∃ held scope, s.Revokes action held scope) ∨ s.SameDead s'

variable {service : AuthService} {s : TokenState}

theorem stage?_some {id : UUID} {stage : TokenStage} (found : s.stage? id = some stage) :
    ∃ tx ∈ s.open_, tx.id = id ∧ tx.stage = stage := by
  obtain ⟨tx, first, isStage⟩ := Option.map_eq_some_iff.mp found
  obtain ⟨isOpen, isTx⟩ := of_find? first
  exact ⟨tx, isOpen, isTx, isStage⟩

variable {action : TokenAction}

theorem Acts.idle : Acts service s action s := ⟨.none, .inr ⟨rfl, rfl⟩⟩

theorem start_acts {id : UUID} {stage : TokenStage} (unlocked : stage.locks = [])
    (valid : stage.Valid s.tables)
    (login : ∀ principal, stage = .login principal → ¬ Barred s.tables.tenants principal) :
    Acts service s action (s.start id stage) := by
  unfold start
  split
  · exact .idle
  next absent =>
  exact ⟨.started id stage (ne_of_not_any absent) unlocked valid login, .inr ⟨rfl, rfl⟩⟩

theorem select_acts {id : UUID} {hash : String} {selected : RefreshToken → TokenState}
    (goes : ∀ t ∈ s.tables.refreshTokens, s.unlocked id t.id = true →
      Acts service s action (selected t)) : Acts service s action (s.select id hash selected) := by
  unfold select
  split
  · exact ⟨.closed id, .inr ⟨rfl, rfl⟩⟩
  next t found =>
  split
  next free => exact goes t (List.mem_of_find?_eq_some found) free
  next => exact .idle

variable {t : RefreshToken} {tx : TokenTx} {rows : List UUID}

theorem selectedRefresh_acts (isOpen : tx ∈ s.open_) (row : t ∈ s.tables.refreshTokens)
    (free : s.unlocked tx.id t.id = true) (now : Timestamp) :
    Acts service s action (s.selectedRefresh tx.id t now) := by
  have gains (held : UUID) (isRow : held ∈ [t.id]) :
      held ∈ tx.locks ∨ s.unlocked tx.id held = true := by
    obtain rfl := List.mem_singleton.mp isRow
    exact .inr free
  unfold selectedRefresh
  split
  · exact ⟨.closed tx.id, .inr ⟨rfl, rfl⟩⟩
  next young =>
  split
  · exact ⟨.wentOn tx isOpen _ ⟨t, row, rfl⟩ gains (by simp), .inr ⟨rfl, rfl⟩⟩
  next unused =>
  simp only [Bool.or_eq_true, not_or, Bool.not_eq_true, Option.isSome_eq_false_iff] at young
  have live : t.live = true := by
    simp only [Bool.not_eq_true, Option.isSome_eq_false_iff] at unused
    simp [RefreshToken.live, unused, young.1]
  exact ⟨.wentOn tx isOpen _ ⟨row, live⟩ gains (by simp), .inr ⟨rfl, rfl⟩⟩

section

variable (inv : s.Inv)

include inv

theorem Inv.stage (isOpen : tx ∈ s.open_) {stage : TokenStage} (isStage : tx.stage = stage) :
    stage.Valid s.tables :=
  isStage ▸ inv.stages tx isOpen

/-- Every action has one of the effects. -/
theorem next_acts (action : TokenAction) : Acts service s action (s.next service action) := by
  cases action with
  | refresh id raw now | logout id raw => exact start_acts rfl trivial nofun
  | login id email password =>
    simp only [next]
    split
    · exact .idle
    next a checked =>
    split
    · exact .idle
    next p found =>
    refine start_acts rfl trivial ?_
    rintro _ ⟨⟩ barred
    obtain ⟨row, live, active⟩ := Identities.credentials_ok checked
    obtain ⟨principal, kind⟩ := Identities.principalByAccount_some found
    have status := barred p principal rfl a row kind live
    rw [active] at status
    cases status
  | delete id principal =>
    simp only [next]
    split
    next a found guarded =>
      refine start_acts rfl (fun p row isPrincipal => ?_) nofun
      obtain ⟨account, -⟩ := Tenants.accountOf_some found
      obtain ⟨q, row', isPrincipal', kind⟩ := Tenants.accountId?_some account
      rwa [inv.principalIds.eq_of_key row row' (isPrincipal.trans isPrincipal'.symm)]
    next => exact .idle
  | select id =>
    simp only [next]
    split
    next hash now found =>
      obtain ⟨tx, isOpen, rfl, -⟩ := stage?_some found
      exact select_acts fun t row free => selectedRefresh_acts isOpen row free now
    next hash found =>
      obtain ⟨tx, isOpen, rfl, -⟩ := stage?_some found
      refine select_acts fun t row free =>
        ⟨.wentOn tx isOpen _ ⟨t, row, rfl⟩ (fun held isRow => ?_) nofun, .inr ⟨rfl, rfl⟩⟩
      obtain rfl := List.mem_singleton.mp isRow
      exact .inr free
    next => exact .idle
  | collect id =>
    simp only [next]
    split
    next held scope found =>
      obtain ⟨tx, isOpen, rfl, stage⟩ := stage?_some found
      have valid : scope.Valid s.tables := inv.stage isOpen stage
      refine ⟨.wentOn tx isOpen _ valid (fun row isHeld => .inl ?_) nofun, .inr ⟨rfl, rfl⟩⟩
      rwa [TokenTx.locks, stage]
    next => exact .idle
  | lockRow id row =>
    simp only [next]
    split
    next held scope pending found =>
      split
      next allowed =>
        obtain ⟨tx, isOpen, rfl, stage⟩ := stage?_some found
        have valid : scope.Valid s.tables := inv.stage isOpen stage
        refine ⟨.wentOn tx isOpen _ valid (fun other isHeld => ?_) nofun, .inr ⟨rfl, rfl⟩⟩
        rcases List.mem_cons.mp isHeld with rfl | before
        · exact .inr (Bool.and_eq_true_iff.mp allowed).2
        · exact .inl (by rwa [TokenTx.locks, stage])
      next => exact .idle
    next => exact .idle
  | commit id new family raw now =>
    simp only [next]
    split
    next t started found =>
      obtain ⟨tx, isOpen, rfl, stage⟩ := stage?_some found
      refine ⟨.rotated tx isOpen t started stage new raw now, .inr ?_⟩
      unfold rotate
      split
      · exact ⟨rfl, rfl⟩
      · exact ⟨rfl, rfl⟩
    next held scope found =>
      obtain ⟨tx, isOpen, rfl, stage⟩ := stage?_some found
      exact ⟨.revoked tx isOpen held scope stage now,
        .inl ⟨held, scope, tx, isOpen, stage, stage ▸ found, new, family, raw, now, rfl⟩⟩
    next principal found =>
      obtain ⟨tx, isOpen, rfl, stage⟩ := stage?_some found
      refine ⟨.entered tx isOpen principal stage new family raw now, .inr ?_⟩
      unfold enter
      split
      · exact ⟨rfl, rfl⟩
      · exact ⟨rfl, rfl⟩
    next => exact .idle
  | abort id => exact ⟨.closed id, .inr ⟨rfl, rfl⟩⟩

/-! ### The invariant -/

/-- A commit writes rows that it has locked, and adds rows. -/
structure Written (tokens tokens' : List RefreshToken) (rows : List UUID) : Prop where
  kept : ∀ t ∈ tokens, t.id ∉ rows → t ∈ tokens'
  stays : ∀ t ∈ tokens, ∃ t' ∈ tokens', t'.id = t.id ∧ t'.familyId = t.familyId ∧
    (t.usedAt.isSome = true → t'.usedAt.isSome = true)
  ids : UniqueOn (·.id) tokens'
  hashes : UniqueOn (·.tokenHash) tokens'

omit inv in
theorem Written.family {tokens tokens' : List RefreshToken} (written : Written tokens tokens' rows)
    {family : UUID} (known : ∃ t ∈ tokens, t.familyId = family) :
    ∃ t ∈ tokens', t.familyId = family := by
  obtain ⟨t, row, isFamily⟩ := known
  obtain ⟨t', row', -, same, -⟩ := written.stays t row
  exact ⟨t', row', same.trans isFamily⟩

theorem Inv.updated {chosen : RefreshToken → Bool} (change : RefreshToken → RefreshToken)
    (among : ∀ t ∈ s.tables.refreshTokens, chosen t = true → t.id ∈ rows)
    (id : ∀ t, (change t).id = t.id) (hash : ∀ t, (change t).tokenHash = t.tokenHash)
    (family : ∀ t, (change t).familyId = t.familyId)
    (used : ∀ t, t.usedAt.isSome = true → (change t).usedAt.isSome = true) :
    Written s.tables.refreshTokens (updateWhere chosen change s.tables.refreshTokens) rows where
  kept t row unlocked := by
    refine mem_updateWhere.mpr ⟨t, row, if_neg fun holds => unlocked (among t row holds)⟩
  stays t row := by
    refine ⟨_, mem_updateWhere.mpr ⟨t, row, rfl⟩, ?_⟩
    split
    · exact ⟨id t, family t, used t⟩
    · exact ⟨rfl, rfl, fun isUsed => isUsed⟩
  ids := inv.ids.updateWhere fun t _ => id t
  hashes := inv.hashes.updateWhere fun t _ => hash t

omit inv in
theorem Written.append {tokens tokens' : List RefreshToken} (written : Written tokens tokens' rows)
    (free : freeKeys tokens' t.id t.tokenHash = true) : Written tokens (tokens' ++ [t]) rows where
  kept u row unlocked := List.mem_append_left _ (written.kept u row unlocked)
  stays u row := by
    obtain ⟨u', row', facts⟩ := written.stays u row
    exact ⟨u', List.mem_append_left _ row', facts⟩
  ids := written.ids.append_fresh fun u row => by
    simpa using (And.left (by simpa [freeKeys] using List.all_eq_true.mp free u row))
  hashes := written.hashes.append_fresh fun u row => by
    simpa using (And.right (by simpa [freeKeys] using List.all_eq_true.mp free u row))

theorem Inv.commit (isOpen : tx ∈ s.open_) (tables : Identities)
    (written : Written s.tables.refreshTokens tables.refreshTokens rows)
    (own : ∀ row ∈ rows, row ∈ tx.locks)
    (principals : tables.tenants.principals = s.tables.tenants.principals)
    {exchanged deadFamilies deadPrincipals : List UUID}
    (used : ∀ id ∈ exchanged, ∃ t ∈ tables.refreshTokens, t.id = id ∧ t.usedAt.isSome = true)
    (families : ∀ family ∈ deadFamilies, ∃ t ∈ tables.refreshTokens, t.familyId = family)
    (barred : ∀ principal ∈ deadPrincipals, Barred tables.tenants principal) :
    Inv ⟨tables, (s.close tx.id).open_, exchanged, deadFamilies, deadPrincipals⟩ := by
  have stay (other : TokenTx) (isOther : other ∈ (s.close tx.id).open_) :
      other ∈ s.open_ ∧ other.id ≠ tx.id := by
    simpa [TokenState.close] using isOther
  refine ⟨written.ids, written.hashes, by rw [principals]; exact inv.principalIds,
    inv.names.filter _,
    inv.exclusive.of_subset fun other isOther => (stay other isOther).1, ?_, used, families, barred⟩
  intro other isOther
  obtain ⟨wasOpen, differs⟩ := stay other isOther
  have valid := inv.stages other wasOpen
  have kept {scope : Scope} (valid : scope.Valid s.tables) : scope.Valid tables := by
    cases scope with
    | family id => exact written.family valid
    | principal id account =>
      intro p row
      rw [principals] at row
      exact valid p row
  cases stage : other.stage with
  | rotating t started =>
    rw [stage] at valid
    -- The token is locked by this transaction, so the commit has not touched it.
    have held : t.id ∈ other.locks := by simp [TokenTx.locks, stage, TokenStage.locks]
    refine ⟨written.kept t valid.1 fun touched => ?_, valid.2⟩
    exact inv.exclusive.apart wasOpen isOpen differs.symm held (own t.id touched)
  | revoke held scope | revoking held scope pending =>
    rw [stage] at valid
    exact kept valid
  | refresh hash now | logout hash | login principal => trivial

theorem Inv.used_written {tokens : List RefreshToken}
    (written : Written s.tables.refreshTokens tokens rows) :
    ∀ id ∈ s.exchanged, ∃ t ∈ tokens, t.id = id ∧ t.usedAt.isSome = true := by
  intro id before
  obtain ⟨t, row, isId, isUsed⟩ := inv.used id before
  obtain ⟨t', row', same, -, stillUsed⟩ := written.stays t row
  exact ⟨t', row', same.trans isId, stillUsed isUsed⟩

theorem Inv.close (id : UUID) : (s.close id).Inv := by
  have stay (tx : TokenTx) (isOpen : tx ∈ (s.close id).open_) : tx ∈ s.open_ :=
    (List.mem_filter.mp isOpen).1
  exact ⟨inv.ids, inv.hashes, inv.principalIds, inv.names.filter _, inv.exclusive.of_subset stay,
    fun tx isOpen => inv.stages tx (stay tx isOpen), inv.used, inv.families, inv.barred⟩

theorem Inv.rotate (isOpen : tx ∈ s.open_) {started : Timestamp}
    (stage : tx.stage = .rotating t started) (new : UUID)
    (raw : String) (now : Timestamp) : (s.rotate service tx.id t started new raw now).Inv := by
  have valid := inv.stage isOpen stage
  unfold TokenState.rotate
  split
  next free =>
    have marked : Written s.tables.refreshTokens (markUsed s.tables.refreshTokens t.id now) [t.id] :=
      inv.updated (.use now) (fun u _ chosen => by simpa using chosen) (fun _ => rfl) (fun _ => rfl)
        (fun _ => rfl) fun _ _ => rfl
    have written :=
      marked.append (t := t.child new (service.hashToken raw) (started + service.refreshTTL))
      (by rwa [freeKeys_markUsed])
    refine inv.commit isOpen { s.tables with refreshTokens := _ } written ?_ rfl ?_
      (fun family dead => written.family (inv.families family dead)) inv.barred
    · simp [TokenTx.locks, stage, TokenStage.locks]
    · intro id exchanged
      rcases mem_inserted.mp exchanged with before | rfl
      · exact inv.used_written written id before
      · refine ⟨t.use now, List.mem_append_left _ ?_, rfl, rfl⟩
        exact mem_updateWhere.mpr ⟨t, valid.1, by simp⟩
  next => exact inv.close tx.id

theorem Inv.enter (isOpen : tx ∈ s.open_) (principal new family : UUID) (raw : String)
    (now : Timestamp) : (s.enter service tx.id principal new family raw now).Inv := by
  unfold TokenState.enter
  split
  next free =>
    have same : Written s.tables.refreshTokens s.tables.refreshTokens [] :=
      ⟨fun _ row _ => row, fun t row => ⟨t, row, rfl, rfl, id⟩, inv.ids, inv.hashes⟩
    have written := same.append (t := ⟨new, principal, service.hashToken raw, family, none, none, none,
      now + service.refreshTTL⟩) (Bool.and_eq_true_iff.mp free).1
    exact inv.commit isOpen { s.tables with refreshTokens := _ } written (by simp) rfl
      (inv.used_written written)
      (fun family dead => written.family (inv.families family dead)) inv.barred
  next => exact inv.close tx.id

omit inv in
theorem barred_writeAccount {tenants : Tenants} {principal account : UUID} {now : Timestamp}
    (barred : Barred tenants principal ∨
      ∀ p ∈ tenants.principals, p.id = principal → p.kind = .human account) :
    Barred (tenants.writeAccount account .delete now) principal := by
  intro p row isPrincipal a' row' kind live
  obtain ⟨a, old, ⟨-, rfl⟩ | ⟨kept, rfl⟩⟩ := updated_or_kept row'
  · cases live
  · rcases barred with before | own
    · exact before p row isPrincipal a old kind live
    · have same : a.id = account := by
        have isAccount := kind.symm.trans (own p row isPrincipal)
        injection isAccount
      exact absurd (by simp [same, live]) kept

theorem Inv.revoke (isOpen : tx ∈ s.open_) {held : List UUID} {scope : Scope}
    (stage : tx.stage = .revoking held scope []) (now : Timestamp) :
    (s.revoke tx.id held scope now).Inv := by
  have valid := inv.stage isOpen stage
  have written : Written s.tables.refreshTokens (updateWhere
      (fun t => held.contains t.id && t.revokedAt.isNone) (.revoke now) s.tables.refreshTokens) held := by
    refine inv.updated (.revoke now) (fun t _ chosen => ?_) (fun _ => rfl) (fun _ => rfl) (fun _ => rfl)
      fun _ isUsed => isUsed
    simpa using (Bool.and_eq_true_iff.mp chosen).1
  have own : ∀ row ∈ held, row ∈ tx.locks := by
    intro row isHeld
    rwa [TokenTx.locks, stage]
  cases scope with
  | family id =>
    refine inv.commit isOpen (s.revokedTables held (.family id) now) written own rfl
      (inv.used_written written) ?_ (by simpa [Scope.principal?, revokedTables] using inv.barred)
    intro family dead
    rcases mem_inserted.mp dead with before | rfl
    · exact written.family (inv.families family before)
    · exact written.family valid
  | principal id account =>
    refine inv.commit isOpen (s.revokedTables held (.principal id account) now) written own rfl
      (inv.used_written written) ?_ ?_
    · intro family dead
      simp only [Scope.family?, List.append_nil] at dead
      exact written.family (inv.families family dead)
    · intro principal dead
      rcases mem_inserted.mp dead with before | rfl
      · exact barred_writeAccount (.inl (inv.barred principal before))
      · exact barred_writeAccount (.inr valid)

theorem Inv.effect {s' : TokenState} (effect : Effect service s s') : s'.Inv := by
  cases effect with
  | none => exact inv
  | started id stage fresh unlocked valid login =>
    exact ⟨inv.ids, inv.hashes, inv.principalIds, inv.names.append_fresh fresh,
      inv.exclusive.begun (by simp [TokenTx.locks, unlocked]), forall_inserted inv.stages valid,
        inv.used, inv.families,
      inv.barred⟩
  | wentOn tx isOpen stage valid gains noLogin =>
    refine ⟨inv.ids, inv.hashes, inv.principalIds, ?_, ?_, ?_, inv.used, inv.families, inv.barred⟩
    · exact inv.names.updateWhere fun other chosen => (beq_iff_eq.mp chosen).symm
    · refine inv.exclusive.advanced isOpen fun row held => (gains row held).imp_right fun free => ?_
      exact Locks.free_iff.mp free
    · exact Locks.forall_advanced (fun other isOther _ => inv.stages other isOther) valid
  | closed id => exact inv.close id
  | rotated tx isOpen t started stage new raw now => exact inv.rotate isOpen stage new raw now
  | revoked tx isOpen held scope stage now => exact inv.revoke isOpen stage now
  | entered tx isOpen principal stage new family raw now =>
    exact inv.enter isOpen principal new family raw now

theorem Inv.next (action : TokenAction) : (s.next service action).Inv :=
  inv.effect (next_acts inv action).effect

end

/-! ### Ended sessions -/

/-- Sessions that were ended, and that nothing can bring back. -/
structure Ended (s : TokenState) (families principals : List UUID) : Prop where
  inv : s.Inv
  severed : s.Severed families principals
  families : families ⊆ s.deadFamilies
  principals : principals ⊆ s.deadPrincipals

variable {families principals : List UUID}

section

variable (severed : s.Severed families principals)

include severed

theorem Severed.mono {s' : TokenState} (tokens : ∀ t ∈ s'.tables.refreshTokens, t.live = true →
      ∃ u ∈ s.tables.refreshTokens, u.live = true ∧ t.familyId = u.familyId ∧
    t.principalId = u.principalId)
    (logins : ∀ tx ∈ s'.open_, ∀ principal, tx.stage = .login principal →
      ∃ other ∈ s.open_, other.stage = .login principal) : s'.Severed families principals where
  tokens t row live := by
    obtain ⟨u, row', live', family, principal⟩ := tokens t row live
    rw [family, principal]
    exact severed.tokens u row' live'
  logins tx isOpen principal stage := by
    obtain ⟨other, wasOpen, stage'⟩ := logins tx isOpen principal stage
    exact severed.logins other wasOpen principal stage'

theorem Severed.close (id : UUID) : (s.close id).Severed families principals :=
  severed.mono (fun t row live => ⟨t, row, live, rfl, rfl⟩)
    fun tx isOpen _ stage => ⟨tx, (List.mem_filter.mp isOpen).1, stage⟩

/-- The live tokens after a rotation descend from live tokens before. -/
theorem Severed.rotate {started : Timestamp} (valid : t ∈ s.tables.refreshTokens ∧ t.live = true)
    (new : UUID) (raw : String) (now : Timestamp) :
    (s.rotate service tx.id t started new raw now).Severed families principals := by
  unfold TokenState.rotate
  split
  next free =>
    refine severed.mono (fun u row live => ?_) fun other isOther _ stage =>
      ⟨other, (List.mem_filter.mp isOther).1, stage⟩
    rcases mem_inserted.mp row with old | rfl
    · obtain ⟨v, row', ⟨-, rfl⟩ | ⟨-, rfl⟩⟩ := updated_or_kept old
      · simp [RefreshToken.live, RefreshToken.use] at live
      · exact ⟨v, row', live, rfl, rfl⟩
    · exact ⟨t, valid.1, valid.2, rfl, rfl⟩
  next => exact severed.close tx.id

omit severed in
/-- A revocation leaves the live tokens that it has not locked. -/
theorem mem_revokedTables {held : List UUID} {scope : Scope} {now : Timestamp} :
    t ∈ (s.revokedTables held scope now).refreshTokens ∧ t.live = true ↔
      t ∈ s.tables.refreshTokens ∧ t.live = true ∧ t.id ∉ held := by
  have rows : (s.revokedTables held scope now).refreshTokens = updateWhere
      (fun t => held.contains t.id && t.revokedAt.isNone) (.revoke now) s.tables.refreshTokens := by
    cases scope <;> rfl
  rw [rows, mem_updateWhere]
  constructor
  · rintro ⟨⟨u, row, rfl⟩, live⟩
    split at live
    next => simp [RefreshToken.live, RefreshToken.revoke] at live
    next kept =>
    rw [if_neg kept]
    refine ⟨row, live, fun isHeld => kept ?_⟩
    simp only [RefreshToken.live, Bool.and_eq_true] at live
    simp [isHeld, live.2]
  · rintro ⟨row, live, free⟩
    exact ⟨⟨t, row, if_neg (by simp [free])⟩, live⟩

theorem Severed.revoke (id : UUID) (held : List UUID) (scope : Scope) (now : Timestamp) :
    (s.revoke id held scope now).Severed families principals := by
  refine severed.mono (fun t row live => ?_) fun tx isOpen _ stage =>
    ⟨tx, (List.mem_filter.mp isOpen).1, stage⟩
  obtain ⟨row', live', -⟩ := mem_revokedTables.mp ⟨row, live⟩
  exact ⟨t, row', live', rfl, rfl⟩

end

theorem Ended.enter (ended : s.Ended families principals) (isOpen : tx ∈ s.open_) {principal : UUID}
    (stage : tx.stage = .login principal) (new family : UUID) (raw : String) (now : Timestamp) :
    (s.enter service tx.id principal new family raw now).Severed families principals := by
  have closed := ended.severed.close tx.id
  unfold TokenState.enter
  split
  next free =>
    refine ⟨fun t row live => ?_, closed.logins⟩
    rcases mem_inserted.mp row with old | rfl
    · exact closed.tokens t old live
    · refine ⟨fun dead => ?_, ended.severed.logins tx isOpen principal stage⟩
      -- An ended family has a token, so the new family is another one.
      obtain ⟨t, row', isFamily⟩ := ended.inv.families family (ended.families dead)
      have fresh := List.all_eq_true.mp (Bool.and_eq_true_iff.mp free).2 t row'
      simp [isFamily] at fresh
  next => exact closed

theorem Ended.severed_effect (ended : s.Ended families principals) {s' : TokenState}
    (effect : Effect service s s') : s'.Severed families principals := by
  have severed := ended.severed
  cases effect with
  | none => exact severed
  | started id stage fresh unlocked valid login =>
    refine ⟨severed.tokens, forall_inserted severed.logins fun principal isLogin dead => ?_⟩
    exact login principal isLogin (ended.inv.barred principal (ended.principals dead))
  | wentOn tx isOpen stage valid gains noLogin =>
    exact ⟨severed.tokens, Locks.forall_advanced (fun other isOther _ => severed.logins other isOther)
      fun principal isLogin => absurd isLogin (noLogin principal)⟩
  | closed id => exact severed.close id
  | rotated tx isOpen t started stage new raw now =>
    exact severed.rotate (ended.inv.stage isOpen stage) new raw now
  | revoked tx isOpen held scope stage now => exact severed.revoke tx.id held scope now
  | entered tx isOpen principal stage new family raw now =>
    exact ended.enter isOpen stage new family raw now

/-- The condition for a revocation to end its sessions: it has locked every live token that it is
about, and no login for the principal is on its way. -/
def Covered (s : TokenState) (held : List UUID) (scope : Scope) : Prop :=
  (∀ t ∈ s.tables.refreshTokens, t.live = true → scope.covers t = true → t.id ∈ held) ∧
    ∀ principal ∈ scope.principal?, ∀ tx ∈ s.open_, tx.stage ≠ .login principal
  deriving Decidable

/-- The condition on the state before an action. -/
def RevokesAll (s : TokenState) : TokenAction → Prop
  | .commit id _ _ _ _ =>
    match s.stage? id with
    | some (.revoking held scope []) => s.Covered held scope
    | _ => True
  | _ => True

instance : DecidablePred s.RevokesAll := fun action => by
  unfold RevokesAll
  split
  · split <;> infer_instance
  · infer_instance

theorem covers_iff {scope : Scope} : scope.covers t = true ↔
    t.familyId ∈ scope.family? ∨ t.principalId ∈ scope.principal? := by
  cases scope <;> simp [Scope.covers, Scope.family?, Scope.principal?]

theorem severed_revoke_iff (severed : s.Severed s.deadFamilies s.deadPrincipals)
    (isOpen : tx ∈ s.open_) {held : List UUID} {scope : Scope} (names : UniqueOn (·.id) s.open_)
    (stage : tx.stage = .revoking held scope []) (now : Timestamp) :
    (s.revoke tx.id held scope now).Severed (s.revoke tx.id held scope now).deadFamilies
        (s.revoke tx.id held scope now).deadPrincipals ↔ s.Covered held scope := by
  constructor
  · intro ended
    refine ⟨fun t row live covers => ?_, fun principal isScope other isOther login => ?_⟩
    · by_contra free
      have left : t ∈ (s.revokedTables held scope now).refreshTokens ∧ t.live = true :=
        mem_revokedTables.mpr ⟨row, live, free⟩
      obtain ⟨family, principal⟩ := ended.tokens t left.1 left.2
      rcases covers_iff.mp covers with isFamily | isPrincipal
      · exact family (List.mem_append_right _ isFamily)
      · exact principal (List.mem_append_right _ isPrincipal)
    · -- The transaction that commits is not a login.
      have differs : other.id ≠ tx.id := by
        intro same
        rw [names.eq_of_key isOther isOpen same, stage] at login
        cases login
      have stays : other ∈ (s.revoke tx.id held scope now).open_ :=
        List.mem_filter.mpr ⟨isOther, by simpa using differs⟩
      exact ended.logins other stays principal login (List.mem_append_right _ isScope)
  · rintro ⟨tokens, logins⟩
    refine ⟨fun t row live => ?_, fun other isOther principal login dead => ?_⟩
    · obtain ⟨row', live', free⟩ := mem_revokedTables.mp ⟨row, live⟩
      obtain ⟨family, principal⟩ := severed.tokens t row' live'
      have uncovered := mt (tokens t row' live') free
      rw [covers_iff, not_or] at uncovered
      exact ⟨fun dead => (List.mem_append.mp dead).elim family uncovered.1,
        fun dead => (List.mem_append.mp dead).elim principal uncovered.2⟩
    · have wasOpen := (List.mem_filter.mp isOther).1
      rcases List.mem_append.mp dead with before | now'
      · exact severed.logins other wasOpen principal login before
      · exact logins principal now' other wasOpen login

/-- Ended sessions stay ended exactly when revocations cover them. -/
theorem Inv.severed_next_iff (inv : s.Inv) (severed : s.Severed s.deadFamilies s.deadPrincipals)
    (action : TokenAction) :
    (s.next service action).Severed (s.next service action).deadFamilies
        (s.next service action).deadPrincipals ↔ s.RevokesAll action := by
  by_cases revokes : ∃ held scope, s.Revokes action held scope
  · obtain ⟨held, scope, tx, isOpen, stage, found, new, family, raw, now, rfl⟩ := revokes
    rw [stage] at found
    simp only [TokenState.next, found, RevokesAll]
    exact severed_revoke_iff severed isOpen inv.names stage now
  · have acts : Acts service s action (s.next service action) := next_acts inv action
    obtain ⟨families, principals⟩ := acts.dead.resolve_left revokes
    have ended : s.Ended s.deadFamilies s.deadPrincipals := ⟨inv, severed, fun _ h => h, fun _ h => h⟩
    rw [families, principals]
    refine iff_of_true (ended.severed_effect acts.effect) ?_
    unfold RevokesAll
    split
    next id new family raw now =>
      split
      next held scope found =>
        obtain ⟨tx, isOpen, rfl, stage⟩ := stage?_some found
        exact absurd ⟨held, scope, tx, isOpen, stage, stage ▸ found, new, family, raw, now, rfl⟩ revokes
      next => trivial
    next => trivial

theorem Inv.exchange_live (inv : s.Inv) {action : TokenAction}
    (exchanged : s.exchange service action = some t) :
    t ∈ s.tables.refreshTokens ∧ t.live = true := by
  unfold exchange at exchanged
  split at exchanged
  next id new family raw now =>
    split at exchanged
    next t' started found =>
      obtain ⟨tx, isOpen, rfl, stage⟩ := stage?_some found
      split at exchanged
      · cases exchanged
        exact inv.stage isOpen stage
      · cases exchanged
    next => cases exchanged
  next => cases exchanged

/-- The token of an exchange has not been exchanged before. -/
def ExchangesOnce (service : AuthService) (s : TokenState) (action : TokenAction) : Prop :=
  ∀ t ∈ s.exchange service action, t.id ∉ s.exchanged

/-- No token of a session that was ended is exchanged. -/
def SparesEnded (service : AuthService) (s : TokenState) (action : TokenAction) : Prop :=
  ∀ t ∈ s.exchange service action, t.familyId ∉ s.deadFamilies ∧ t.principalId ∉ s.deadPrincipals
  deriving Decidable

/-- No token is left that can be exchanged, and no login that can add one. -/
def EndsAll (service : AuthService) (s : TokenState) (action : TokenAction) : Prop :=
  (s.next service action).Severed (s.next service action).deadFamilies
    (s.next service action).deadPrincipals

/-- No token is exchanged twice. -/
theorem Inv.exchangesOnce (inv : s.Inv) (action : TokenAction) :
    s.ExchangesOnce service action := by
  intro t exchanged before
  obtain ⟨row, live⟩ := inv.exchange_live exchanged
  obtain ⟨u, row', same, isUsed⟩ := inv.used t.id before
  rw [inv.ids.eq_of_key row' row same] at isUsed
  simp only [RefreshToken.live, Bool.and_eq_true, Option.isNone_iff_eq_none] at live
  simp [live.1] at isUsed

end TokenState

open TokenState

/-- From committed tables with unique keys, along every interleaving: a token is exchanged at most
once. What was ended leaves nothing to exchange exactly when each revocation has locked, at its
commit, every live token it is about, and no login is on its way; and then no such token is ever
exchanged. -/
theorem rotation_iff (service : AuthService) {tables : Identities}
    (ids : UniqueOn (·.id) tables.refreshTokens)
    (hashes : UniqueOn (·.tokenHash) tables.refreshTokens)
    (principals : UniqueOn (·.id) tables.tenants.principals) (actions : List TokenAction) :
    Along (next service) (ExchangesOnce service)
      ⟨tables, [], [], [], []⟩ actions ∧
      (Along (next service) (EndsAll service)
        ⟨tables, [], [], [], []⟩ actions ↔
        Along (next service) RevokesAll ⟨tables, [], [], [], []⟩ actions) ∧
      (Along (next service) RevokesAll ⟨tables, [], [], [], []⟩ actions →
        Along (next service) (SparesEnded service) ⟨tables, [], [], [], []⟩
          actions) := by
  have start : Inv ⟨tables, [], [], [], []⟩ :=
    ⟨ids, hashes, principals, List.nodup_nil, nofun, nofun, nofun, nofun, nofun⟩
  have kept (s : TokenState) (action : TokenAction) (inv : s.Inv) : (s.next service action).Inv :=
    inv.next action
  refine ⟨Along.of_kept kept (fun s action inv => inv.exchangesOnce action) start actions, ?_, ?_⟩
  · exact Along.iff_of_step (fun s : TokenState => s.Severed s.deadFamilies s.deadPrincipals)
      (fun s action inv severed => inv.severed_next_iff severed action) kept start ⟨by simp, nofun⟩
  · -- Along a run of such actions the ended sessions stay severed, and only live tokens are
    -- exchanged.
    have step (s : TokenState) (action : TokenAction)
        (both : s.Inv ∧ s.Severed s.deadFamilies s.deadPrincipals) (allowed : s.RevokesAll action) :
        (s.next service action).Inv ∧ s.EndsAll service action :=
      ⟨both.1.next action, (both.1.severed_next_iff both.2 action).mpr allowed⟩
    have spares (s : TokenState) (action : TokenAction)
        (both : s.Inv ∧ s.Severed s.deadFamilies s.deadPrincipals) (_ : s.RevokesAll action) :
        s.SparesEnded service action := by
      intro t exchanged
      obtain ⟨row, live⟩ := both.1.exchange_live exchanged
      exact both.2.tokens t row live
    exact Along.of_invariant step spares ⟨start, by simp, nofun⟩

namespace Sample

/-- An account whose first refresh token was exchanged for a second one. -/
def rotatedOnce : Identities where
  tenants := ⟨[], [], [], [], [], [⟨20, .human 30⟩],
    [⟨30, "ada@acme.test", some 0, .active, none⟩], [], []⟩
  passwordHash := fun _ => some "correct horse"
  oneTimeTokens := []
  refreshTokens :=
    [⟨60, 20, "a", 70, none, some 1, none, 1000⟩, ⟨61, 20, "b", 70, some 60, none, none, 1000⟩]

/-- A second login, a rotation, and the reuse of a token that ends the first family. -/
theorem rotation_reuse :
    Along (next service) (SparesEnded service) ⟨rotatedOnce, [], [], [], []⟩
      [.login 1 "ada@acme.test" "correct horse", .refresh 2 "b" 5, .select 2, .commit 1 62 71 "c" 6,
        .commit 2 63 0 "d" 6, .refresh 3 "a" 7, .select 3, .collect 3, .lockRow 3 60, .lockRow 3 61,
        .lockRow 3 63, .commit 3 0 0 "" 8, .refresh 4 "d" 9, .select 4, .refresh 5 "c" 9, .select 5,
        .commit 5 64 0 "e" 10] :=
  (rotation_iff service (by decide) (by decide) (by decide) _).2.2 (by decide +kernel)

/-- A rotation commits while a revocation is at work, and its child is exchanged afterwards. -/
def raced (revocation : List TokenAction) : List TokenAction :=
  revocation ++ [.refresh 2 "b" 5, .select 2, .collect 1, .commit 2 62 0 "c" 6, .lockRow 1 60,
    .lockRow 1 61, .commit 1 0 0 "" 7, .refresh 3 "c" 8, .select 3, .commit 3 63 0 "d" 9]

/-- The revocations of a reuse, of a logout and of a deletion all miss the child of a concurrent
rotation, and a login that has read the account before its deletion gives a session after it. -/
theorem ended_sessions_exchanged :
    (∀ revocation ∈ ([[.refresh 1 "a" 5, .select 1], [.logout 1 "a", .select 1], [.delete 1 20]] :
        List (List TokenAction)),
      ¬ Along (next service) (SparesEnded service)
        ⟨rotatedOnce, [], [], [], []⟩
        (raced revocation)) ∧
    ¬ Along (next service) (SparesEnded service) ⟨rotatedOnce, [], [], [], []⟩
      [.login 2 "ada@acme.test" "correct horse", .delete 1 20, .collect 1, .lockRow 1 60, .lockRow 1 61,
        .commit 1 0 0 "" 7, .commit 2 62 71 "c" 8, .refresh 3 "c" 9, .select 3,
          .commit 3 63 0 "d" 10] := by
  decide +kernel

end Sample

end Manyforge.Identity
