import Manyforge.Tenancy.Integrity

/-!
# Merging one tenant into another

A merge is prepared by a preflight, which takes no lock and reads the two tenants one statement
after the other, and carried out by `tenant_merge_cutover` under both tenants' locks. The cutover
does not look at the depths again: it compares the rows of both tenants with those the preflight has
seen. The stored generations are digests of these rows; here they are the rows.
-/
namespace Manyforge.Tenancy

open Table Forest

/-- `tenant_merge_root_snapshot`, for the tables of this model. -/
structure RootSnapshot where
  businesses : List Business
  closure : List Path
  roles : List Role
  principals : List Principal
  memberships : List Membership
  invitations : List Invitation
  deriving DecidableEq

/-- The row counts that the cutover compares. -/
def RootSnapshot.rows (s : RootSnapshot) : List Nat :=
  [s.businesses.length, s.closure.length, s.roles.length, s.principals.length, s.memberships.length,
    s.invitations.length]

inductive MergeStatus where
  | preflightRequired | ready | succeeded | failed
  deriving DecidableEq

structure MergeOperation where
  (id sourceRootId destinationParentId destinationRootId actorPrincipalId : UUID)
  status : MergeStatus
  (source destination : RootSnapshot)
  resultingDepth : Nat
  deriving DecidableEq

def Principal.homeRoot? (p : Principal) : Option UUID :=
  match p.kind with
  | .agent _ root => some root
  | .human _ => none

def Principal.withRoot (p : Principal) (root : UUID) : Principal :=
  match p.kind with
  | .agent home _ => { p with kind := .agent home root }
  | .human _ => p

namespace Tenants

variable (db : Tenants)

def rootSnapshot (root : UUID) : RootSnapshot where
  businesses := db.businesses.filter (·.tenantRootId == root)
  closure := db.closure.filter (·.tenantRootId == root)
  roles := db.roles.filter (·.tenantRootId == some root)
  principals := db.principals.filter (·.homeRoot? == some root)
  memberships := db.memberships.filter (·.tenantRootId == root)
  invitations := db.invitations.filter (·.tenantRootId == root)

/-- A direct Owner of a root, by the preset's key. -/
def directOwner (actor root : UUID) : Bool :=
  db.memberships.any fun m => m.principalId == actor && m.businessId == root && m.tenantRootId == root &&
    db.roles.any fun r => r.id == m.roleId && r.tenantRootId == none && r.key == "owner" && r.isLocked

def mergeAuthorized (actor sourceRoot destinationParent : UUID) : Option UUID :=
  match db.kind? actor, db.business? sourceRoot, db.business? destinationParent with
  | some (.human _), some source, some parent =>
    match db.business? parent.tenantRootId with
    | some destination =>
      if source.tenantRootId == source.id && source.parentId.isNone &&
          source.tenantRootId != destination.tenantRootId && db.directOwner actor source.id &&
          db.directOwner actor destination.id
      then some parent.tenantRootId
      else none
    | none => none
  | _, _, _ => none

/-- The height of the source tree, as the preflight reads it. -/
def sourceHeight (sourceRoot : UUID) : Nat :=
  ((db.closure.filter fun c => c.ancestorId == sourceRoot && c.tenantRootId == sourceRoot).map
    (·.depth)).foldr max 0

def sourceBusinesses (sourceRoot : UUID) : Nat :=
  (db.closure.filter fun c => c.ancestorId == sourceRoot && c.tenantRootId == sourceRoot).length

/-- The depth of the destination parent, as the preflight reads it. -/
def parentDepth (op : MergeOperation) : Nat :=
  ((db.closure.find? fun c => c.ancestorId == op.destinationRootId &&
    c.descendantId == op.destinationParentId && c.tenantRootId == op.destinationRootId).map
      (·.depth)).getD 0

def activeRoot (root : UUID) : Bool :=
  db.businesses.any fun b => b.id == root && b.parentId.isNone && b.tenantRootId == b.id &&
    b.status == .active && b.deletedAt.isNone

def activeParent (op : MergeOperation) : Bool :=
  db.businesses.any fun b => b.id == op.destinationParentId &&
    b.tenantRootId == op.destinationRootId && b.status == .active && b.deletedAt.isNone

/-- The conflicts of the preflight about the hierarchy, but for the depth. -/
def lifecycleConflict (op : MergeOperation) : Bool :=
  !db.activeRoot op.sourceRootId || !db.activeParent op || !db.activeRoot op.destinationRootId ||
    !(db.resolve op.actorPrincipalId op.destinationParentId).contains "hierarchy.manage" ||
    decide (db.sourceBusinesses op.sourceRootId > 1000)

/-- `tenant_merge_validate_preflight`. -/
def preflightCurrent (op : MergeOperation) : Bool :=
  db.mergeAuthorized op.actorPrincipalId op.sourceRootId op.destinationParentId ==
      some op.destinationRootId &&
    op.status == .ready && db.rootSnapshot op.sourceRootId == op.source &&
    db.rootSnapshot op.destinationRootId == op.destination

/-- The foreign keys that carry the tenant. -/
def tenantKeys : Bool :=
  (db.businesses.all fun b => b.parentId.all (db.hasKey · b.tenantRootId)) &&
    (db.closure.all fun c =>
      db.hasKey c.ancestorId c.tenantRootId && db.hasKey c.descendantId c.tenantRootId) &&
    db.memberships.all fun m => db.hasKey m.businessId m.tenantRootId

def rewrittenBusinesses (op : MergeOperation) : List Business :=
  updateWhere (·.tenantRootId == op.sourceRootId) (fun b => { b with
    tenantRootId := op.destinationRootId
    parentId := if b.id == op.sourceRootId then some op.destinationParentId else b.parentId })
    db.businesses

def rewrittenPaths (op : MergeOperation) : List Path :=
  updateWhere (·.tenantRootId == op.sourceRootId)
    (fun c => { c with tenantRootId := op.destinationRootId }) db.closure

/-- The paths from the ancestors of the destination parent into the source. -/
def mergedPaths (op : MergeOperation) : List Path :=
  crossPaths
    ((db.rewrittenPaths op).filter fun c => c.descendantId == op.destinationParentId &&
      c.tenantRootId == op.destinationRootId)
    ((db.rewrittenPaths op).filter fun c => c.ancestorId == op.sourceRootId &&
      c.tenantRootId == op.destinationRootId) op.destinationRootId

def merged (op : MergeOperation) : Tenants :=
  { db with
    businesses := db.rewrittenBusinesses op
    closure := db.rewrittenPaths op ++ db.mergedPaths op
    roles := updateWhere (·.tenantRootId == some op.sourceRootId)
      (fun r => { r with tenantRootId := some op.destinationRootId }) db.roles
    principals := updateWhere (·.homeRoot? == some op.sourceRootId)
      (·.withRoot op.destinationRootId) db.principals
    memberships := updateWhere (·.tenantRootId == op.sourceRootId)
      (fun m => { m with tenantRootId := op.destinationRootId }) db.memberships
    invitations := updateWhere (·.tenantRootId == op.sourceRootId)
      (fun i => { i with tenantRootId := op.destinationRootId }) db.invitations }

/-- The writes of `tenant_merge_cutover`, with the row counts, the row triggers of the memberships,
the keys and the owner guard, which is checked in the definer's function and sees every row. -/
def cutover (op : MergeOperation) : Except Refusal Tenants :=
  let after := db.merged op
  if (db.rootSnapshot op.sourceRootId).rows == op.source.rows &&
      ((db.memberships.filter (·.tenantRootId == op.sourceRootId)).all fun m =>
        after.membershipGuards { m with tenantRootId := op.destinationRootId }) &&
      decide (UniqueOn (fun c : Path => (c.ancestorId, c.descendantId)) after.closure) &&
      after.tenantKeys && after.ownerGuard (fun _ => true) op.destinationRootId
  then .ok after
  else .error .raised

/-! ### The cutover keeps the hierarchy -/

variable {db} {db' : Tenants} {op : MergeOperation}

theorem cutover_ok (call : db.cutover op = .ok db') : db' = db.merged op := by
  unfold cutover at call
  simp only at call
  split at call
  · exact (Except.ok.inj call).symm
  · cases call

theorem mergeAuthorized_rows {actor sourceRoot destinationParent destinationRoot : UUID}
    (authorized : db.mergeAuthorized actor sourceRoot destinationParent = some destinationRoot) :
    (∃ source ∈ db.businesses, source.id = sourceRoot ∧ source.tenantRootId = sourceRoot ∧
      source.parentId = none) ∧
    (∃ parent ∈ db.businesses, parent.id = destinationParent ∧
      parent.tenantRootId = destinationRoot) ∧ sourceRoot ≠ destinationRoot := by
  unfold mergeAuthorized at authorized
  split at authorized
  next account source parent _ foundSource foundParent =>
    split at authorized
    next destination foundRoot =>
      split at authorized
      next holds =>
        obtain rfl := Option.some.inj authorized
        simp only [Bool.and_eq_true, beq_iff_eq, bne_iff_ne, ne_eq, Option.isNone_iff_eq_none] at holds
        obtain ⟨⟨⟨⟨ownRoot, master⟩, other⟩, -⟩, -⟩ := holds
        obtain ⟨memberS, idS⟩ := business?_some foundSource
        obtain ⟨memberP, idP⟩ := business?_some foundParent
        refine ⟨⟨source, memberS, idS, ownRoot.trans idS, master⟩, ⟨parent, memberP, idP, rfl⟩,
          fun same => ?_⟩
        -- The root of the destination would be the row of the source.
        rw [← same, foundSource] at foundRoot
        exact other (Option.some.inj foundRoot ▸ rfl)
      next => cases authorized
    next => cases authorized
  next => cases authorized

theorem mergeAuthorized_some {actor sourceRoot destinationParent destinationRoot : UUID}
    (inv : db.Hierarchy)
    (authorized : db.mergeAuthorized actor sourceRoot destinationParent = some destinationRoot) :
    (db.Known sourceRoot ∧ db.parentOf sourceRoot = none) ∧
      (db.Known destinationParent ∧ Rooted db.parentOf destinationParent destinationRoot) ∧
      sourceRoot ≠ destinationRoot := by
  obtain ⟨⟨source, memberS, rfl, -, master⟩, ⟨parent, memberP, rfl, rfl⟩, other⟩ :=
    mergeAuthorized_rows authorized
  refine ⟨⟨⟨source, memberS, rfl⟩, ?_⟩, ⟨⟨parent, memberP, rfl⟩, inv.roots parent memberP⟩, other⟩
  rw [parentOf, business?_eq inv.ids memberS, Option.bind_some, master]

/-- A master business and a business of another tree. -/
structure Joins (db : Tenants) (op : MergeOperation) : Prop where
  source : db.Known op.sourceRootId ∧ db.parentOf op.sourceRootId = none
  parent : db.Known op.destinationParentId ∧
    Rooted db.parentOf op.destinationParentId op.destinationRootId
  other : op.sourceRootId ≠ op.destinationRootId

/-- What the cutover relies on. -/
structure Mergeable (db : Tenants) (op : MergeOperation) : Prop extends db.Joins op where
  fits : Fits db.parentOf maxDepth op.sourceRootId op.destinationParentId

theorem rewrittenPaths_rows (op : MergeOperation) : RowByRow (fun old c => c.ancestorId = old.ancestorId ∧
    c.descendantId = old.descendantId ∧ c.depth = old.depth ∧ c.tenantRootId =
      if old.tenantRootId = op.sourceRootId then op.destinationRootId else old.tenantRootId)
    db.closure (db.rewrittenPaths op) := by
  refine List.forall₂_map_right_iff.mpr (List.forall₂_same.mpr fun old _ => ?_)
  by_cases moved : old.tenantRootId = op.sourceRootId <;> simp [moved]

/-- The hierarchy without its depth and its members: trees whose closure and roots are right. -/
structure Closed (db : Tenants) : Prop where
  ids : UniqueOn (·.id) db.businesses
  upward : ∀ d e, db.Known d → db.parentOf d = some e → db.Known e
  closure : ClosureOf db.parentOf db.Known db.Lists
  acyclic : Acyclic db.parentOf
  roots : ∀ b ∈ db.businesses, Rooted db.parentOf b.id b.tenantRootId
  paths : ∀ c ∈ db.closure, Rooted db.parentOf c.descendantId c.tenantRootId

theorem Hierarchy.closed (inv : db.Hierarchy) : db.Closed :=
  ⟨inv.ids, inv.upward, inv.closure, inv.bounded.acyclic, inv.roots, inv.paths⟩

theorem Closed.lists_iff (inv : db.Closed) {a d : UUID} (known : db.Known d) :
    (∃ n, db.Lists a d n) ↔ Below db.parentOf a d :=
  inv.closure.below_iff known

theorem Closed.known_of_path (inv : db.Closed) {c : Path} (member : c ∈ db.closure) :
    db.Known c.descendantId :=
  ((inv.closure _ _ _).mp ⟨c, member, rfl, rfl, rfl⟩).1

theorem Joins.below_iff (joins : db.Joins op) {d r : UUID}
    (rooted : Rooted db.parentOf d r) : Below db.parentOf op.sourceRootId d ↔ r = op.sourceRootId := by
  constructor
  · exact fun below => rooted.unique ⟨below, joins.source.2⟩
  · rintro rfl
    exact rooted.1

theorem Joins.carries (joins : db.Joins op) {id r : UUID} (rooted : Rooted db.parentOf id r) :
    db.Carries op.sourceRootId op.destinationRootId id
      (if r = op.sourceRootId then op.destinationRootId else r) := by
  split
  next moved => exact .of_below ((joins.below_iff rooted).mpr moved)
  next kept => exact ⟨fun below => absurd ((joins.below_iff rooted).mp below) kept, fun _ => rooted⟩

section

variable (inv : db.Closed) (joins : db.Joins op)

include inv joins

theorem lists_merged {a d : UUID} {n : Nat} :
    (db.merged op).Lists a d n ↔
      db.ListsGrafted op.sourceRootId op.destinationParentId a d n := by
  have destination {c : Path} (member : c ∈ db.closure)
      (atParent : c.descendantId = op.destinationParentId) :
      c.tenantRootId = op.destinationRootId := by
    have rooted := inv.paths c member
    rw [atParent] at rooted
    exact rooted.unique joins.parent.2
  have source {c : Path} (member : c ∈ db.closure) (atRoot : c.ancestorId = op.sourceRootId) :
      c.tenantRootId = op.sourceRootId := by
    have below : Below db.parentOf op.sourceRootId c.descendantId :=
      (inv.lists_iff (inv.known_of_path member)).mp ⟨c.depth, c, member, atRoot, rfl, rfl⟩
    exact (joins.below_iff (inv.paths c member)).mp below
  constructor
  · rintro ⟨c, member, rfl, rfl, rfl⟩
    rcases List.mem_append.mp member with own | cross
    · obtain ⟨old, row, ancestor, descendant, depth, -⟩ := (rewrittenPaths_rows op).exists_before own
      rw [ancestor, descendant, depth]
      refine .inl ⟨⟨old, row, rfl, rfl, rfl⟩, fun ⟨k, inside⟩ => ?_⟩
      -- Above a business of the source there is only the source.
      have known := inv.known_of_path row
      have above : Below db.parentOf old.ancestorId old.descendantId :=
        (inv.lists_iff known).mp ⟨old.depth, old, row, rfl, rfl, rfl⟩
      have below : Below db.parentOf op.sourceRootId old.descendantId :=
        (inv.lists_iff known).mp ⟨k, inside⟩
      have rooted : Rooted db.parentOf old.ancestorId op.sourceRootId :=
        Rooted.below ⟨below, joins.source.2⟩ above
      obtain ⟨j, reached⟩ := above
      exact (inv.lists_iff (up_node inv.upward known reached)).mpr rooted.1
    · obtain ⟨super, isSuper, sub, isSub, rfl⟩ := mem_crossPaths.mp cross
      simp only [List.mem_filter, Bool.and_eq_true, beq_iff_eq] at isSuper isSub
      obtain ⟨upper, upperRow, upperA, upperD, upperN, -⟩ :=
        (rewrittenPaths_rows op).exists_before isSuper.1
      obtain ⟨lower, lowerRow, lowerA, lowerD, lowerN, -⟩ :=
        (rewrittenPaths_rows op).exists_before isSub.1
      refine .inr ⟨super.depth, sub.depth, ⟨upper, upperRow, upperA.symm, ?_, upperN.symm⟩,
        ⟨lower, lowerRow, ?_, lowerD.symm, lowerN.symm⟩, rfl⟩
      · rw [← upperD, isSuper.2.1]
      · rw [← lowerA, isSub.2.1]
  · rintro (⟨⟨c, row, rfl, rfl, rfl⟩, -⟩ |
      ⟨i, j, ⟨upper, upperRow, rfl, atParent, rfl⟩, ⟨lower, lowerRow, atRoot, rfl, rfl⟩, rfl⟩)
    · obtain ⟨c', member, ancestor, descendant, depth, -⟩ := (rewrittenPaths_rows op).exists_after row
      exact ⟨c', List.mem_append_left _ member, ancestor, descendant, depth⟩
    · obtain ⟨super, isSuper, superA, superD, superN, superR⟩ :=
        (rewrittenPaths_rows op).exists_after upperRow
      obtain ⟨sub, isSub, subA, subD, subN, subR⟩ := (rewrittenPaths_rows op).exists_after lowerRow
      rw [destination upperRow atParent, if_neg (Ne.symm joins.other)] at superR
      rw [source lowerRow atRoot, if_pos rfl] at subR
      have cross : (⟨super.ancestorId, sub.descendantId, super.depth + sub.depth + 1,
          op.destinationRootId⟩ : Path) ∈ db.mergedPaths op := by
        refine mem_crossPaths.mpr ⟨super, ?_, sub, ?_, rfl⟩
        · exact List.mem_filter.mpr ⟨isSuper, by simp [superD, atParent, superR]⟩
        · exact List.mem_filter.mpr ⟨isSub, by simp [subA, atRoot, subR]⟩
      exact ⟨_, List.mem_append_right _ cross, superA, subD, by rw [superN, subN]⟩

theorem Joins.parentOf_merged :
    (db.merged op).parentOf = graft db.parentOf op.sourceRootId op.destinationParentId := by
  refine parentOf_changed rfl joins.source.1 (fun _ => rfl) (fun b member isSource => ?_)
    fun b _ other _ => ?_
  · have rooted := inv.roots b member
    have root : b.tenantRootId = op.sourceRootId := by
      rw [isSource] at rooted
      exact rooted.unique ⟨.refl _, joins.source.2⟩
    simp [root, isSource]
  · simp [other]

omit inv joins in
theorem Mergeable.parentOf_merged (inv : db.Hierarchy) (mergeable : db.Mergeable op) :
    (db.merged op).parentOf = graft db.parentOf op.sourceRootId op.destinationParentId :=
  mergeable.toJoins.parentOf_merged inv.closed

omit inv joins in
theorem ids_merged : (db.merged op).businesses.map (·.id) = db.businesses.map (·.id) :=
  map_updateWhere _ _ fun _ _ => rfl

theorem Joins.carries_business {b : Business} (member : b ∈ (db.merged op).businesses) :
    db.Carries op.sourceRootId op.destinationRootId b.id b.tenantRootId := by
  obtain ⟨old, row, rfl⟩ := mem_updateWhere.mp member
  have carries := joins.carries (inv.roots old row)
  by_cases moved : old.tenantRootId = op.sourceRootId <;> simpa [moved] using carries

theorem Joins.carries_path {c : Path} (member : c ∈ (db.merged op).closure) :
    db.Carries op.sourceRootId op.destinationRootId c.descendantId c.tenantRootId := by
  rcases List.mem_append.mp member with own | cross
  · obtain ⟨old, row, -, descendant, -, root⟩ := (rewrittenPaths_rows op).exists_before own
    rw [descendant, root]
    exact joins.carries (inv.paths old row)
  · obtain ⟨super, -, sub, isSub, rfl⟩ := mem_crossPaths.mp cross
    simp only [List.mem_filter, Bool.and_eq_true, beq_iff_eq] at isSub
    obtain ⟨lower, row, ancestor, descendant, -, -⟩ := (rewrittenPaths_rows op).exists_before isSub.1
    have known := inv.known_of_path row
    refine .of_below ?_
    rw [descendant]
    exact (inv.lists_iff known).mp ⟨lower.depth, lower, row, ancestor ▸ isSub.2.1, rfl, rfl⟩

end

theorem Hierarchy.merged (inv : db.Hierarchy) (mergeable : db.Mergeable op) :
    (db.merged op).Hierarchy := by
  have joins := mergeable.toJoins
  refine inv.grafted (known_of_ids ids_merged) ?_ mergeable.parent mergeable.fits
    (mergeable.parentOf_merged inv) (fun a d n => lists_merged inv.closed joins)
    (fun b => joins.carries_business inv.closed) (fun c => joins.carries_path inv.closed) ?_
  · rw [UniqueOn, ids_merged]
    exact inv.ids
  · intro m member
    obtain ⟨old, row, rfl⟩ := mem_updateWhere.mp member
    obtain ⟨known, rooted⟩ := inv.members old row
    have carries := joins.carries rooted
    by_cases moved : old.tenantRootId = op.sourceRootId <;> simpa [moved, known] using carries

end Tenants

end Manyforge.Tenancy
