import Manyforge.Tenancy.Owners

/-!
# The last Owner of a tenant

A tenant is to keep an Owner who can log in. The calls on memberships count the direct Owners under
the tenant's lock. `Deactivate` and `Delete` of an account take no lock: they list the tenants of
the principal, count the Owners of one after the other and then write the account, and other
transactions may commit between any two of these statements. No count looks at the status of an
account or at which locked role a member has, and the guard at the commit sees nothing once the
caller has left.
-/
namespace Manyforge.Tenancy

open Table Transition Calls Tenants

/-- A transaction of `Deactivate` or `Delete`, with the tenants whose Owners it has yet to count. -/
structure AccountTx where
  (principal accountId : UUID)
  op : AccountOp
  roots : List UUID

namespace Tenants

variable (db : Tenants)

/-- A direct Owner of the root with an active account, among the principals that `keep` says. -/
def usableOwner (owner root : UUID) (keep : UUID → Bool) : Bool :=
  db.memberships.any fun m => m.businessId == root && m.roleId == owner &&
    db.activeAccount m.principalId && keep m.principalId

def hasUsableOwner (owner root : UUID) : Bool := db.usableOwner owner root fun _ => true

/-- What the counts take for granted: whoever but `who` has a locked role at the root is an Owner
with an active account. -/
def OthersUsable (owner root who : UUID) : Prop :=
  ∀ m ∈ db.memberships, m.businessId = root → m.principalId ≠ who → db.lockedRole m.roleId = true →
    m.roleId = owner ∧ db.activeAccount m.principalId = true

instance (owner root who : UUID) : Decidable (db.OthersUsable owner root who) :=
  inferInstanceAs (Decidable (∀ m ∈ db.memberships, _))

end Tenants

structure OwnerState where
  db : Tenants
  open_ : List AccountTx

inductive OwnerAction where
  | changeMemberRole (actor business target role : UUID)
  | revokeMember (actor business target : UUID)
  | leaveBusiness (caller business : UUID)
  | transferOwnership (actor business target : UUID)
  /-- The first statements of `Deactivate` or `Delete`. -/
  | begin (principal : UUID) (op : AccountOp)
  /-- The next statement of an open transaction. -/
  | advance (index : Nat) (now : Timestamp)
  | abort (index : Nat)

namespace OwnerState

variable (s : OwnerState)

/-- One statement of `Deactivate` or `Delete`: a count of `guardNotLastOwner`, which sees the rows
of the businesses that the principal still has, or the write. -/
def statement (index : Nat) (now : Timestamp) (tx : AccountTx) : OwnerState :=
  match tx.roots with
  | root :: rest =>
    if !s.db.authorized tx.principal root || decide (s.db.countDirectOwners root ≤ 1) then
      { s with open_ := s.open_.eraseIdx index }
    else { s with open_ := s.open_.set index { tx with roots := rest } }
  | [] => ⟨s.db.writeAccount tx.accountId tx.op now, s.open_.eraseIdx index⟩

/-- A call under the tenant's lock; a refused one leaves everything as it is. -/
def commit (called : Except Refusal Tenants) : OwnerState :=
  match called with
  | .ok db => { s with db }
  | .error _ => s

def next : OwnerAction → OwnerState
  | .changeMemberRole actor business target role =>
    s.commit (s.db.changeMemberRole actor business target role)
  | .revokeMember actor business target => s.commit (s.db.revokeMember actor business target)
  | .leaveBusiness caller business => s.commit (s.db.leaveBusiness caller business)
  | .transferOwnership actor business target => s.commit (s.db.transferOwnership actor business target)
  | .begin principal op =>
    match s.db.accountOf principal with
    | some a => { s with open_ := s.open_ ++ [⟨principal, a.id, op, s.db.ownerRoots principal⟩] }
    | none => s
  | .advance index now =>
    match s.open_[index]? with
    | some tx => s.statement index now tx
    | none => s
  | .abort index => { s with open_ := s.open_.eraseIdx index }

/-- The condition on the state before an action under which the root keeps an Owner with an active
account: whoever loses the role or the account there is not the last such Owner. -/
def SparesOwner (owner root : UUID) : OwnerAction → Prop
  | .changeMemberRole actor business target role =>
    (s.db.changeMemberRole actor business target role).isOk = true → business = root →
      role ≠ owner → s.db.usableOwner owner root (· != target) = true
  | .revokeMember actor business target =>
    (s.db.revokeMember actor business target).isOk = true → business = root →
      s.db.usableOwner owner root (· != target) = true
  | .leaveBusiness caller business =>
    (s.db.leaveBusiness caller business).isOk = true → business = root →
      s.db.usableOwner owner root (· != caller) = true
  | .transferOwnership actor business target =>
    (s.db.transferOwnership actor business target).isOk = true → business = root →
      s.db.usableOwner owner root (· != actor) = true ∨ s.db.activeAccount target = true
  | .advance index _ => ∀ tx ∈ s.open_[index]?, tx.roots = [] →
      s.db.usableOwner owner root (fun p => s.db.accountId? p != some tx.accountId) = true
  | .begin .. | .abort .. => True

instance (owner root : UUID) : DecidablePred (s.SparesOwner owner root) := fun action => by
  cases action <;> dsimp only [SparesOwner] <;> infer_instance

/-- A condition on the state before an action under which the counts of the code are enough: they
count Owners who can log in, no other locked role is given at the root, the ownership goes to an
active account, and `Deactivate` and `Delete` run alone. -/
def CountsSuffice (owner root : UUID) : OwnerAction → Prop
  | .changeMemberRole _ business target role => s.open_ = [] ∧ (business = root →
      s.db.OthersUsable owner root target ∧ (s.db.lockedRole role = true → role = owner))
  | .revokeMember _ business target => s.open_ = [] ∧
      (business = root → s.db.OthersUsable owner root target)
  | .leaveBusiness caller business => s.open_ = [] ∧
      (business = root → s.db.OthersUsable owner root caller)
  | .transferOwnership _ business target => s.open_ = [] ∧
      (business = root → s.db.activeAccount target = true)
  | .begin principal _ => s.open_ = [] ∧
      (root ∈ s.db.ownerRoots principal → s.db.OthersUsable owner root principal)
  | .advance .. | .abort .. => True

instance (owner root : UUID) : DecidablePred (s.CountsSuffice owner root) := fun action => by
  cases action <;> dsimp only [CountsSuffice] <;> infer_instance

end OwnerState

namespace Tenants

variable {db db' : Tenants} {owner root : UUID}

theorem usableOwner_iff {keep : UUID → Bool} : db.usableOwner owner root keep = true ↔
    ∃ p, db.ownerAt owner p root = true ∧ db.activeAccount p = true ∧ keep p = true := by
  simp only [usableOwner, ownerAt, List.any_eq_true, Bool.and_eq_true, beq_iff_eq]
  constructor
  · rintro ⟨m, row, ⟨⟨atRoot, isOwner⟩, active⟩, kept⟩
    exact ⟨m.principalId, ⟨m, row, ⟨rfl, atRoot⟩, isOwner⟩, active, kept⟩
  · rintro ⟨p, ⟨m, row, ⟨rfl, atRoot⟩, isOwner⟩, active, kept⟩
    exact ⟨m, row, ⟨⟨atRoot, isOwner⟩, active⟩, kept⟩

theorem hasUsableOwner_iff : db.hasUsableOwner owner root = true ↔
    ∃ p, db.ownerAt owner p root = true ∧ db.activeAccount p = true := by
  simp [hasUsableOwner, usableOwner_iff]

/-! ### One call -/

variable {actor business : UUID}

theorem revokeMember_ok {target : UUID} (call : db.revokeMember actor business target = .ok db') :
    ∃ b, db.loadVisible actor business = .ok b ∧ db.removeMembership actor b target = .ok db' := by
  simp only [revokeMember, bind_ok] at call
  obtain ⟨b, visible, _, -, removed⟩ := call
  exact ⟨b, visible, removed⟩

theorem leaveBusiness_ok {caller : UUID} (call : db.leaveBusiness caller business = .ok db') :
    ∃ b, db.loadVisible caller business = .ok b ∧ db.removeMembership caller b caller = .ok db' := by
  exact bind_ok.mp call

theorem ownerAt_removed {b p : UUID} {principal : UUID}
    (rows : db'.memberships = db.memberships.filter fun m =>
      !(m.principalId == principal && m.businessId == b)) :
    db'.ownerAt owner p root = true ↔
      db.ownerAt owner p root = true ∧ ¬ (p = principal ∧ root = b) := by
  rw [ownerAt_iff, ownerAt_iff, rows]
  constructor
  · rintro ⟨m, row, rfl, rfl, isOwner⟩
    obtain ⟨old, kept⟩ := List.mem_filter.mp row
    exact ⟨⟨m, old, rfl, rfl, isOwner⟩, by simpa [imp_iff_not_or] using kept⟩
  · rintro ⟨⟨m, old, rfl, rfl, isOwner⟩, kept⟩
    exact ⟨m, List.mem_filter.mpr ⟨old, by simpa [imp_iff_not_or] using kept⟩, rfl, rfl, isOwner⟩

theorem usable_reassign_iff {target at_ role : UUID} (good : db.hasUsableOwner owner root = true) :
    ({ db with memberships := reassign target at_ role actor db.memberships } :
      Tenants).hasUsableOwner owner root = true ↔
      (at_ = root → role ≠ owner → db.usableOwner owner root (· != target) = true) := by
  obtain ⟨p, owns, active⟩ := hasUsableOwner_iff.mp good
  rw [hasUsableOwner_iff, usableOwner_iff]
  by_cases spared : at_ = root → role = owner
  · refine iff_of_true ⟨p, ?_, active⟩ fun same other => absurd (spared same) other
    exact ownerAt_reassign_other (fun _ same => spared same.symm) rfl owns
  obtain ⟨same, other⟩ := Classical.not_imp.mp spared
  subst same
  simp only [ne_eq, other, not_false_eq_true, forall_const, bne_iff_ne]
  constructor
  · rintro ⟨q, now, isActive⟩
    refine ⟨q, ?_, isActive, fun isTarget => ?_⟩
    · exact (ownerAt_of_reassign rfl now).resolve_right fun made => other made.2
    · subst isTarget
      exact other (role_of_reassigned rfl now)
  · rintro ⟨q, was, isActive, differs⟩
    exact ⟨q, ownerAt_reassign_other (fun same => absurd same differs) rfl was, isActive⟩

/-- What a tenant and its root are, along a run. -/
structure OwnerInv (db : Tenants) (owner root : UUID) : Prop where
  roleIds : UniqueOn (·.id) db.roles
  preset : db.presetRoleId "owner" = some owner
  locked : db.lockedRole owner = true
  members : UniqueOn (fun m => (m.principalId, m.businessId)) db.memberships
  tenant : ∀ m ∈ db.memberships, m.businessId = root → m.tenantRootId = root
  isRoot : ∃ b, db.business? root = some b ∧ b.tenantRootId = root
  /-- `principal_account_unique`. -/
  accounts : ∀ p ∈ db.principals, ∀ q ∈ db.principals, (db.accountId? p.id).isSome = true →
    db.accountId? p.id = db.accountId? q.id → p.id = q.id

section

variable (inv : db.OwnerInv owner root)

include inv

theorem OwnerInv.reassign (target at_ role actor : UUID) :
    OwnerInv { db with memberships := reassign target at_ role actor db.memberships } owner root :=
  { inv with
    members := inv.members.updateWhere fun _ _ => rfl
    tenant := fun m row => by
      obtain ⟨old, old_mem, ⟨-, rfl⟩ | ⟨-, rfl⟩⟩ := updated_or_kept row
      · exact inv.tenant old old_mem
      · exact inv.tenant old old_mem }

theorem OwnerInv.filter (kept : Membership → Bool) :
    OwnerInv { db with memberships := db.memberships.filter kept } owner root :=
  { inv with
    members := inv.members.filter kept
    tenant := fun m row => inv.tenant m (List.mem_filter.mp row).1 }

theorem OwnerInv.principal_unique {p q account : UUID} (first : db.accountId? p = some account)
    (second : db.accountId? q = some account) : p = q := by
  obtain ⟨p, row, rfl, -⟩ := accountId?_some first
  obtain ⟨q, row', rfl, -⟩ := accountId?_some second
  exact inv.accounts p row q row' (by simp [first]) (first.trans second.symm)

/-- A member with another role than Owner is not the Owner that there is. -/
theorem OwnerInv.usable_of_other (good : db.hasUsableOwner owner root = true) {who : UUID}
    {current : Membership} (found : db.membershipAt who root = some current)
    (other : current.roleId ≠ owner) : db.usableOwner owner root (· != who) = true := by
  obtain ⟨p, owns, active⟩ := hasUsableOwner_iff.mp good
  refine usableOwner_iff.mpr ⟨p, owns, active, bne_iff_ne.mpr fun isWho => other ?_⟩
  obtain ⟨m, row, isP, atRoot, isOwner⟩ := ownerAt_iff.mp owns
  obtain ⟨row', isP', atRoot'⟩ := membershipAt_some found
  have key : (m.principalId, m.businessId) = (current.principalId, current.businessId) := by
    rw [isP, isP', isWho, atRoot, atRoot']
  rw [← inv.members.eq_of_key row row' key, isOwner]

/-! ### What the counts give -/

/-- A count above one gives an Owner besides `who`, where whoever else is counted is one who can log
in: the memberships of one member at the root are one row. -/
theorem OwnerInv.usable_of_count {who : UUID} (others : db.OthersUsable owner root who)
    (counted : 1 < db.countDirectOwners root) : db.usableOwner owner root (· != who) = true := by
  by_contra none
  refine absurd (inv.members.filter_length_le_one fun a row b row' chosen chosen' => ?_)
    (Nat.not_le.mpr counted)
  have isWho (m : Membership) (row : m ∈ db.memberships)
      (chosen : (m.businessId == root && db.lockedRole m.roleId) = true) :
      (m.principalId, m.businessId) = (who, root) := by
    simp only [Bool.and_eq_true, beq_iff_eq] at chosen
    obtain ⟨atRoot, isLocked⟩ := chosen
    refine Prod.ext_iff.mpr ⟨?_, atRoot⟩
    by_contra differs
    obtain ⟨isOwner, active⟩ := others m row atRoot differs isLocked
    have owns := ownerAt_iff.mpr ⟨m, row, rfl, atRoot, isOwner⟩
    exact none (usableOwner_iff.mpr ⟨m.principalId, owns, active, bne_iff_ne.mpr differs⟩)
  exact (isWho a row chosen).trans (isWho b row' chosen').symm

/-- What `guardLastOwner` leaves at the root when it accepts. -/
theorem OwnerInv.usable_of_guard (good : db.hasUsableOwner owner root = true) {b : Business}
    (visible : db.loadVisible actor root = .ok b) {who : UUID} {current : Membership}
    (found : db.membershipAt who root = some current)
    (guard : db.guardLastOwner b current.roleId false = .ok ())
    (others : db.OthersUsable owner root who) : db.usableOwner owner root (· != who) = true := by
  by_cases isOwner : current.roleId = owner
  · obtain ⟨row, business, tenant⟩ := inv.isRoot
    obtain rfl := Option.some.inj ((loadVisible_some visible).symm.trans business)
    obtain ⟨-, isRoot⟩ := business?_some business
    refine inv.usable_of_count others ?_
    by_contra few
    rw [Nat.not_lt] at few
    simp [guardLastOwner, isRoot, tenant, inv.preset, isOwner, few] at guard
  · exact inv.usable_of_other good found isOwner

/-- What a transaction does to the Owners of a root. -/
structure Spares (db db' : Tenants) (owner root : UUID) (cond : Prop) : Prop where
  inv : db'.OwnerInv owner root
  usable : db.hasUsableOwner owner root = true → (db'.hasUsableOwner owner root = true ↔ cond)

theorem Spares.same {cond : Prop} (holds : cond) : db.Spares db owner root cond :=
  ⟨inv, fun good => iff_of_true good holds⟩

theorem changeMemberRole_spares {target role : UUID}
    (call : db.changeMemberRole actor business target role = .ok db') :
    db.Spares db' owner root
      (business = root → role ≠ owner → db.usableOwner owner root (· != target) = true) := by
  obtain ⟨b, newRole, current, -, -, -, found, ⟨isRole, rfl⟩ | ⟨-, -, update⟩⟩ :=
    changeMemberRole_ok call
  · refine ⟨inv, fun good => iff_of_true good fun same other => ?_⟩
    subst same
    exact inv.usable_of_other good found (isRole ▸ other)
  · obtain ⟨-, rfl⟩ := updateMembershipRole_ok update
    exact ⟨inv.reassign target business role actor, usable_reassign_iff⟩

theorem removeMembership_spares {principal : UUID} {b : Business}
    (visible : db.loadVisible actor business = .ok b)
    (call : db.removeMembership actor b principal = .ok db') :
    db.Spares db' owner root
      (business = root → db.usableOwner owner root (· != principal) = true) := by
  obtain ⟨current, -, -, rfl⟩ := removeMembership_ok call
  obtain rfl : b.id = business := (business?_some (loadVisible_some visible)).2
  refine ⟨inv.filter _, fun good => ?_⟩
  obtain ⟨p, owns, active⟩ := hasUsableOwner_iff.mp good
  rw [hasUsableOwner_iff, usableOwner_iff]
  constructor
  · rintro ⟨q, now, isActive⟩ same
    obtain ⟨was, kept⟩ := (ownerAt_removed rfl).mp now
    exact ⟨q, was, isActive, bne_iff_ne.mpr fun isPrincipal => kept ⟨isPrincipal, same.symm⟩⟩
  · intro spared
    by_cases same : b.id = root
    · obtain ⟨q, was, isActive, differs⟩ := spared same
      exact ⟨q, (ownerAt_removed rfl).mpr ⟨was, fun removed => bne_iff_ne.mp differs removed.1⟩,
        isActive⟩
    · exact ⟨p, (ownerAt_removed rfl).mpr ⟨owns, fun removed => same removed.2.symm⟩, active⟩

theorem transferOwnership_spares {target : UUID}
    (call : db.transferOwnership actor business target = .ok db') :
    db.Spares db' owner root (business = root →
      db.usableOwner owner root (· != actor) = true ∨ db.activeAccount target = true) := by
  obtain ⟨b, role, admin, promoted, other, -, -, -, member, isRole, isAdmin, first, second⟩ :=
    transferOwnership_ok call
  obtain rfl : role = owner := Option.some.inj (isRole.symm.trans inv.preset)
  have differ : admin ≠ role := presetRoleId_ne inv.roleIds isAdmin inv.preset (by decide)
  obtain ⟨-, rfl⟩ := updateMembershipRole_ok first
  obtain ⟨-, rfl⟩ := updateMembershipRole_ok second
  have mid := inv.reassign target business role actor
  refine ⟨mid.reassign actor business admin actor, fun good => ?_⟩
  have promotedGood :
      ({ db with memberships := reassign target business role actor db.memberships } :
        Tenants).hasUsableOwner role root = true :=
    (usable_reassign_iff good).mpr fun _ same => absurd rfl same
  rw [usable_reassign_iff promotedGood]
  refine forall_congr' fun same => ?_
  subst same
  simp only [ne_eq, differ, not_false_eq_true, forall_const, usableOwner_iff, bne_iff_ne]
  constructor
  · rintro ⟨p, owns, active, differs⟩
    rcases ownerAt_of_reassign rfl owns with was | ⟨⟨rfl, -⟩, -⟩
    · exact .inl ⟨p, was, active, differs⟩
    · exact .inr active
  · rintro (⟨p, was, active, differs⟩ | active)
    · exact ⟨p, ownerAt_reassign_other (fun _ _ => rfl) rfl was, active, differs⟩
    · exact ⟨target, ownerAt_reassigned member rfl, active, other.symm⟩

end

end Tenants

namespace OwnerState

variable {s : OwnerState} {owner root : UUID} (inv : s.db.OwnerInv owner root)

include inv

theorem commit_spares {called : Except Refusal Tenants} {cond : Prop}
    (spares : ∀ db, called = .ok db → s.db.Spares db owner root cond) :
    s.db.Spares (s.commit called).db owner root (called.isOk = true → cond) := by
  cases called with
  | ok db =>
    obtain ⟨inv', usable⟩ := spares db rfl
    exact ⟨inv', fun good => (usable good).trans ⟨fun holds _ => holds, fun holds => holds rfl⟩⟩
  | error refusal => exact .same inv nofun

/-- Only the last statement can take an Owner away. -/
theorem statement_spares (index : Nat) (now : Timestamp) (tx : AccountTx) :
    s.db.Spares (s.statement index now tx).db owner root (tx.roots = [] →
      s.db.usableOwner owner root (fun p => s.db.accountId? p != some tx.accountId) = true) := by
  unfold statement
  split
  next first rest roots =>
    have counting : tx.roots ≠ [] := by simp [roots]
    split
    · exact .same inv fun none => absurd none counting
    · exact .same inv fun none => absurd none counting
  next roots =>
  refine ⟨{ inv with }, fun good => ?_⟩
  -- The rows of `membership` stay; the Owner is usable when the account is another one.
  rw [hasUsableOwner_iff, usableOwner_iff, roots]
  simp only [activeAccount_written, bne_iff_ne, ne_eq, forall_const]
  rfl

/-- After an action the root has a usable Owner exactly when the action spares one. -/
theorem next_spares (action : OwnerAction) :
    s.db.Spares (s.next action).db owner root (s.SparesOwner owner root action) := by
  cases action with
  | changeMemberRole actor business target role =>
    exact commit_spares inv fun db call => changeMemberRole_spares inv call
  | revokeMember actor business target =>
    refine commit_spares inv fun db call => ?_
    obtain ⟨b, visible, removed⟩ := revokeMember_ok call
    exact removeMembership_spares inv visible removed
  | leaveBusiness caller business =>
    refine commit_spares inv fun db call => ?_
    obtain ⟨b, visible, removed⟩ := leaveBusiness_ok call
    exact removeMembership_spares inv visible removed
  | transferOwnership actor business target =>
    exact commit_spares inv fun db call => transferOwnership_spares inv call
  | begin principal op =>
    simp only [next]
    split
    · exact .same inv trivial
    · exact .same inv trivial
  | advance index now =>
    simp only [next, SparesOwner]
    cases isOpen : s.open_[index]? with
    | none => exact .same inv nofun
    | some tx => simpa using statement_spares inv index now tx
  | abort index => exact .same inv trivial

/-! ### Runs on which the counts suffice -/

omit inv in
/-- The open transaction runs alone, and has counted the Owners of the root if it has to and the
root is no longer on its list. -/
def Counted (s : OwnerState) (owner root : UUID) : Prop :=
  s.open_ = [] ∨ ∃ tx, s.open_ = [tx] ∧ s.db.accountId? tx.principal = some tx.accountId ∧
    (root ∈ s.db.ownerRoots tx.principal → s.db.OthersUsable owner root tx.principal ∧
      (root ∈ tx.roots ∨ 1 < s.db.countDirectOwners root))

theorem ownerRoots_of_owner {p : UUID} (owns : s.db.ownerAt owner p root = true) :
    root ∈ s.db.ownerRoots p := by
  obtain ⟨m, row, rfl, rfl, rfl⟩ := ownerAt_iff.mp owns
  have tenant := inv.tenant m row rfl
  refine List.mem_map.mpr ⟨m, List.mem_filter.mpr ⟨row, ?_⟩, tenant⟩
  simp [tenant, inv.locked]

theorem Counted.write (counted : s.Counted owner root)
    (good : s.db.hasUsableOwner owner root = true) {index : Nat} {tx : AccountTx}
    (isOpen : s.open_[index]? = some tx) (none : tx.roots = []) :
    s.db.usableOwner owner root (fun p => s.db.accountId? p != some tx.accountId) = true := by
  obtain nil | ⟨tx', alone, account, counts⟩ := counted
  · simp [nil] at isOpen
  obtain rfl : tx' = tx := by
    rw [alone] at isOpen
    exact (List.mem_singleton.mp (List.mem_of_getElem? isOpen)).symm
  obtain ⟨p, owns, active⟩ := hasUsableOwner_iff.mp good
  by_cases same : s.db.accountId? p = some tx'.accountId
  · obtain rfl := inv.principal_unique same account
    obtain ⟨others, listed | above⟩ := counts (ownerRoots_of_owner inv owns)
    · rw [none] at listed
      cases listed
    obtain ⟨q, owns', active', differs⟩ :=
      usableOwner_iff.mp (inv.usable_of_count others above)
    refine usableOwner_iff.mpr ⟨q, owns', active', bne_iff_ne.mpr fun isAccount => ?_⟩
    exact bne_iff_ne.mp differs (inv.principal_unique isAccount account)
  · exact usableOwner_iff.mpr ⟨p, owns, active, bne_iff_ne.mpr same⟩

/-- The counts of the code are enough under the condition. -/
theorem spares_of_counts (counted : s.Counted owner root)
    (good : s.db.hasUsableOwner owner root = true) {action : OwnerAction}
    (suffice : s.CountsSuffice owner root action) : s.SparesOwner owner root action := by
  have removal {actor who : UUID} {b : Business} (visible : s.db.loadVisible actor root = .ok b)
      {db : Tenants} (removed : s.db.removeMembership actor b who = .ok db)
      (others : s.db.OthersUsable owner root who) :
      s.db.usableOwner owner root (· != who) = true := by
    obtain ⟨current, found, guard, -⟩ := removeMembership_ok removed
    rw [(business?_some (loadVisible_some visible)).2] at found
    exact inv.usable_of_guard good visible found guard others
  cases action with
  | changeMemberRole actor business target role =>
    rintro accepted rfl other
    obtain ⟨db, call⟩ := isOk_iff.mp accepted
    obtain ⟨others, locked⟩ := suffice.2 rfl
    obtain ⟨b, newRole, current, visible, -, assignable, found, ⟨isRole, -⟩ | ⟨-, guard, -⟩⟩ :=
      changeMemberRole_ok call
    · exact inv.usable_of_other good found (isRole ▸ other)
    -- A role that is not locked is the case that `guardLastOwner` counts in.
    obtain ⟨row, rfl⟩ := roleInTenant?_some assignable
    have unlocked : newRole.isLocked = false := by
      by_contra isLocked
      refine other (locked (List.any_eq_true.mpr ⟨newRole, row, ?_⟩))
      simpa using isLocked
    rw [unlocked] at guard
    exact inv.usable_of_guard good visible found guard others
  | revokeMember actor business target =>
    rintro accepted rfl
    obtain ⟨db, call⟩ := isOk_iff.mp accepted
    obtain ⟨b, visible, removed⟩ := revokeMember_ok call
    exact removal visible removed (suffice.2 rfl)
  | leaveBusiness caller business =>
    rintro accepted rfl
    obtain ⟨db, call⟩ := isOk_iff.mp accepted
    obtain ⟨b, visible, removed⟩ := leaveBusiness_ok call
    exact removal visible removed (suffice.2 rfl)
  | transferOwnership actor business target => exact fun _ atRoot => .inr (suffice.2 atRoot)
  | advance index now => exact fun tx isOpen none => counted.write inv good isOpen none
  | begin principal op => trivial
  | abort index => trivial

omit inv in
theorem Counted.next (counted : s.Counted owner root) {action : OwnerAction}
    (suffice : s.CountsSuffice owner root action) : (s.next action).Counted owner root := by
  have call {called : Except Refusal Tenants} (nil : s.open_ = []) :
      (s.commit called).Counted owner root := by
    cases called with
    | ok db => exact .inl nil
    | error refusal => exact .inl nil
  cases action with
  | changeMemberRole | revokeMember | leaveBusiness | transferOwnership => exact call suffice.1
  | begin principal op =>
    simp only [OwnerState.next]
    split
    next a account =>
      refine .inr ⟨_, by rw [suffice.1]; rfl, (accountOf_some account).1, fun owns => ?_⟩
      exact ⟨suffice.2 owns, .inl owns⟩
    next => exact counted
  | advance index now =>
    simp only [OwnerState.next]
    obtain nil | ⟨tx, alone, account, counts⟩ := counted
    · simp only [nil, List.getElem?_nil]
      exact .inl nil
    rw [alone]
    cases index with
    | succ index => exact .inr ⟨tx, alone, account, counts⟩
    | zero =>
      simp only [List.getElem?_cons_zero, statement, alone]
      split
      next first rest roots =>
        split
        next => exact .inl rfl
        next above =>
        refine .inr ⟨_, rfl, account, fun owns => ⟨(counts owns).1, ?_⟩⟩
        simp only [Bool.or_eq_true, decide_eq_true_eq, not_or, Nat.not_le] at above
        obtain listed | already := (counts owns).2
        · rw [roots] at listed
          obtain rfl | later := List.mem_cons.mp listed
          · exact .inr above.2
          · exact .inl later
        · exact .inr already
      next => exact .inl rfl
  | abort index =>
    obtain nil | ⟨tx, alone, account, counts⟩ := counted
    · exact .inl (by simp [OwnerState.next, nil])
    cases index with
    | zero => exact .inl (by simp [OwnerState.next, alone])
    | succ index => exact .inr ⟨tx, by simp [OwnerState.next, alone], account, counts⟩

end OwnerState

open OwnerState

/-- Along every run a tenant's root keeps an Owner with an active account exactly when each action
spares the last of them. The counts of the code see to that on the runs on which they suffice. -/
theorem last_owner_iff {s : OwnerState} {owner root : UUID} (start : s.db.OwnerInv owner root)
    (usable : s.db.hasUsableOwner owner root = true) (actions : List OwnerAction) :
    (Along next (fun s action => (s.next action).db.hasUsableOwner owner root = true) s
        actions ↔
      Along next (SparesOwner · owner root) s actions) ∧
    (s.open_ = [] → Along next (CountsSuffice · owner root) s actions →
      Along next (fun s action => (s.next action).db.hasUsableOwner owner root = true) s
        actions) := by
  constructor
  · exact Along.iff_of_step (fun s : OwnerState => s.db.hasUsableOwner owner root = true)
      (fun _ action inv good => (next_spares inv action).usable good)
      (fun _ action inv => (next_spares inv action).inv) start usable
  · intro none suffice
    -- What a run keeps: the schema, a usable Owner, and what the open transaction has counted.
    let Kept (s : OwnerState) : Prop := s.db.OwnerInv owner root ∧
      s.db.hasUsableOwner owner root = true ∧ s.Counted owner root
    have spared (s : OwnerState) (action : OwnerAction) (kept : Kept s)
        (suffice : s.CountsSuffice owner root action) :
        (s.next action).db.hasUsableOwner owner root = true := by
      obtain ⟨inv, good, counted⟩ := kept
      exact ((next_spares inv action).usable good).mpr
        (spares_of_counts inv counted good suffice)
    have begins : Kept s := ⟨start, usable, .inl none⟩
    refine Along.of_invariant (fun s action kept suffice => ?_) spared begins suffice
    exact ⟨(next_spares kept.1 action).inv, spared s action kept suffice,
      kept.2.2.next suffice⟩

namespace Sample

/-- A tenant with two Owners and a third member. -/
def partners : OwnerState where
  db := { Seeds.tables with
    businesses := [⟨10, none, 10, "Acme", .active, none, 0⟩]
    closure := [⟨10, 10, 0, 10⟩]
    principals := [⟨20, .human 30⟩, ⟨21, .human 31⟩, ⟨22, .human 32⟩]
    accounts := [⟨30, "ada@acme.test", some 0, .active, none⟩,
      ⟨31, "bob@acme.test", some 0, .active, none⟩, ⟨32, "cy@acme.test", some 0, .active, none⟩]
    memberships := [⟨40, 20, 10, 10, Seeds.owner, none⟩, ⟨41, 21, 10, 10, Seeds.owner, some 20⟩,
      ⟨42, 22, 10, 10, Seeds.viewer, some 20⟩] }
  open_ := []

theorem partners_inv : partners.db.OwnerInv Seeds.owner 10 where
  roleIds := by decide +kernel
  preset := by decide +kernel
  locked := by decide +kernel
  members := by decide
  tenant := by decide
  isRoot := ⟨_, rfl, rfl⟩
  accounts := by decide

/-- One Owner deactivates the account, the other hands the tenant over to the third member, who
makes the first an Owner again and leaves. -/
theorem last_owner_partners :
    Along next (fun s action => (s.next action).db.hasUsableOwner Seeds.owner 10 = true)
        partners [.begin 21 .deactivate, .advance 0 1, .advance 0 2, .transferOwnership 20 10 22,
          .begin 22 .delete, .advance 0 3, .changeMemberRole 22 10 20 Seeds.owner,
          .leaveBusiness 22 10] ∧
      Along next (fun s action =>
        (s.next action).db.hasUsableOwner Seeds.owner 10 = true)
        partners [.begin 21 .deactivate, .advance 0 1, .advance 0 2, .revokeMember 20 10 21,
          .leaveBusiness 20 10, .transferOwnership 20 10 22] :=
  ⟨(last_owner_iff partners_inv (by decide +kernel) _).1.mpr (by decide +kernel),
    (last_owner_iff partners_inv (by decide +kernel) _).2 rfl (by decide +kernel)⟩

/-- The tenant of one Owner, with an agent. -/
def automated : OwnerState where
  db := { Seeds.tables with
    businesses := [⟨10, none, 10, "Acme", .active, none, 0⟩]
    closure := [⟨10, 10, 0, 10⟩]
    principals := [⟨20, .human 30⟩, ⟨25, .agent 10 10⟩]
    accounts := [⟨30, "ada@acme.test", some 0, .active, none⟩]
    memberships := [⟨40, 20, 10, 10, Seeds.owner, none⟩,
      ⟨45, 25, 10, 10, Seeds.agentRuntime, some 20⟩] }
  open_ := []

/-- The account of one Owner is deactivated and still counted when the other leaves. Two Owners
whose counts both come before the first write deactivate their accounts at the same time. And the
role of an agent is locked, so the only Owner leaves; the guard at the commit sees nothing. -/
theorem owners_lost :
    partners.db.OwnerInv Seeds.owner 10 ∧ partners.db.hasUsableOwner Seeds.owner 10 = true ∧
      ([OwnerAction.begin 21 .deactivate, .advance 0 1, .advance 0 2, .leaveBusiness 20 10].foldl
        next partners).db.hasUsableOwner Seeds.owner 10 = false ∧
      ([OwnerAction.begin 20 .deactivate, .begin 21 .deactivate, .advance 0 1, .advance 1 1,
        .advance 0 2, .advance 0 2].foldl
          next partners).db.hasUsableOwner Seeds.owner 10 = false ∧
      automated.db.hasUsableOwner Seeds.owner 10 = true ∧
      (automated.next (.leaveBusiness 20 10)).db.memberships =
        [⟨45, 25, 10, 10, Seeds.agentRuntime, some 20⟩] :=
  ⟨partners_inv, by decide +kernel, by decide +kernel, by decide +kernel, by decide +kernel,
    by decide +kernel⟩

end Sample

end Manyforge.Tenancy
