import Manyforge.Tenancy.Merge

/-!
# What a commit does to the trees

A commit changes only trees whose locks its transaction holds. A lock taken for a tenant that has
meanwhile been merged away protects nothing, but then the foreign keys refuse the writes. A merge
relies on depths that its preflight has read without a lock; `Tracks` says that they are still
right, or that some row of the tenant has a time stamp by which the cutover will notice.
-/
namespace Manyforge.Tenancy

open Table Forest Calls

namespace Tenants

variable {db db' : Tenants} {now : Timestamp} {locks : List UUID}

/-! ### What a commit may do -/

/-- The businesses after a write at time `now`: each row is still there, and what has changed in it
besides its tenant is stamped. -/
structure Restamped (now : Timestamp) (rows rows' : List Business) : Prop where
  kept : ∀ b ∈ rows, ∃ b' ∈ rows', b'.id = b.id ∧ (b'.updatedAt = b.updatedAt ∨ b'.updatedAt = now)
  stamps : ∀ b' ∈ rows', b'.updatedAt = now ∨ ∃ b ∈ rows, b.updatedAt = b'.updatedAt

theorem Restamped.updateWhere {chosen : Business → Bool} {change : Business → Business}
    (rows : List Business) (ids : ∀ b, (change b).id = b.id)
    (stamped : ∀ b, (change b).updatedAt = b.updatedAt ∨ (change b).updatedAt = now) :
    Restamped now rows (updateWhere chosen change rows) := by
  constructor
  · intro b member
    refine ⟨_, mem_updateWhere.mpr ⟨b, member, rfl⟩, ?_⟩
    split
    · exact ⟨ids b, stamped b⟩
    · exact ⟨rfl, .inl rfl⟩
  · intro b' member
    obtain ⟨b, old, rfl⟩ := mem_updateWhere.mp member
    split
    · rcases stamped b with same | new
      · exact .inr ⟨b, old, same.symm⟩
      · exact .inl new
    · exact .inr ⟨b, old, rfl⟩

theorem Restamped.append {b : Business} (rows : List Business) (stamped : b.updatedAt = now) :
    Restamped now rows (rows ++ [b]) := by
  constructor
  · exact fun old member => ⟨old, List.mem_append_left _ member, rfl, .inl rfl⟩
  · intro b' member
    rcases mem_inserted.mp member with old | rfl
    · exact .inr ⟨b', old, rfl⟩
    · exact .inl stamped

/-- A commit that hangs `x` under `p`, whose trees are locked; `x` may be new. The tree that has
grown shows it, by a stamp or by a row that was in another tree. -/
def Regrafts (db db' : Tenants) (now : Timestamp) (locks : List UUID) : Prop :=
  ∃ x p rx rp, db'.parentOf = graft db.parentOf x p ∧ ¬ Below db.parentOf x p ∧
    Rooted db.parentOf x rx ∧ (rx ∈ locks ∨ ¬ db.Known rx) ∧ Rooted db.parentOf p rp ∧ rp ∈ locks ∧
    (rx = rp ∨ x = rx) ∧
    ∃ b ∈ db'.businesses, Rooted db'.parentOf b.id rp ∧
      (b.updatedAt = now ∨ ¬ Rooted db.parentOf b.id rp)

/-- What a commit may do, given the locks of its transaction. -/
structure Commits (db db' : Tenants) (now : Timestamp) (locks : List UUID) : Prop where
  hierarchy : db'.Hierarchy
  parents : db'.parentOf = db.parentOf ∨ db.Regrafts db' now locks
  rows : Restamped now db.businesses db'.businesses

theorem Commits.known (commits : db.Commits db' now locks) {d : UUID} (known : db.Known d) :
    db'.Known d := by
  obtain ⟨b, member, rfl⟩ := known
  obtain ⟨b', member', id, -⟩ := commits.rows.kept b member
  exact ⟨b', member', id⟩

theorem Commits.refl (inv : db.Hierarchy) : db.Commits db now locks :=
  ⟨inv, .inl rfl, fun b member => ⟨b, member, rfl, .inl rfl⟩, fun b member => .inr ⟨b, member, rfl⟩⟩

section

variable (inv : db.Hierarchy)

include inv

theorem createMaster_commits {creator id membership : UUID} {name : String}
    (call : db.createMaster creator id membership name now = .ok db') :
    db.Commits db' now locks := by
  have hierarchy := inv.master call
  obtain ⟨owner, -, fresh, rfl⟩ := createMaster_ok call
  exact ⟨hierarchy, .inl (parentOf_append_master fresh rfl rfl), .append _ rfl⟩

variable {root : UUID}

theorem writeSub_commits {parent child : UUID} {name : String}
    (call : db.writeSub parent root child name now = .ok db')
    (room : Rooted db.parentOf parent root → ∀ a n, up db.parentOf n parent = some a →
      n + 1 ≤ maxDepth) : db.Commits db' now [root] := by
  obtain ⟨fresh, key, made⟩ := writeSub_ok call
  obtain ⟨known, rooted⟩ := inv.rooted_of_key key
  have hierarchy := inv.sub call (room rooted)
  have rows : db'.businesses =
      db.businesses ++ [⟨child, some parent, root, name, .active, none, now⟩] := by
    rw [made]
  have new : (⟨child, some parent, root, name, .active, none, now⟩ : Business) ∈ db'.businesses := by
    rw [rows]
    exact List.mem_concat_self
  have parents : db'.parentOf = graft db.parentOf child parent := parentOf_append_sub fresh rows rfl
  refine ⟨hierarchy, .inr ⟨child, parent, child, root, parents, inv.not_below_unknown fresh known,
    ⟨.refl child, parentOf_of_unknown fresh⟩, .inr fresh, rooted, List.mem_singleton_self root,
    .inr rfl, _, new, hierarchy.roots _ new, .inl rfl⟩, ?_⟩
  rw [rows]
  exact .append _ rfl

theorem moveBusiness_commits {node newParent tenant : UUID}
    (call : db.moveBusiness node newParent tenant now = .ok db') (knownNode : db.Known node)
    (knownParent : db.Known newParent)
    (fits : Rooted db.parentOf node tenant → Rooted db.parentOf newParent tenant →
      Fits db.parentOf maxDepth node newParent) : db.Commits db' now [tenant] := by
  obtain ⟨rootedNode, rootedParent⟩ := moveBusiness_tenant inv call knownNode knownParent
  have fits := fits rootedNode rootedParent
  have hierarchy := inv.move call knownNode knownParent fits
  obtain ⟨-, -, made⟩ := moveBusiness_ok call
  have rows : db'.businesses = reparented node newParent now db.businesses := by rw [made]
  have parents := parentOf_reparented rows knownNode
  obtain ⟨b, member, isNode⟩ := knownNode
  have moved : ({ b with parentId := some newParent, updatedAt := now } : Business) ∈
      db'.businesses := by
    rw [rows]
    exact mem_updateWhere.mpr ⟨b, member, by simp [isNode]⟩
  have restamped : Restamped now db.businesses db'.businesses := by
    rw [rows]
    exact .updateWhere _ (fun _ => rfl) fun _ => .inr rfl
  refine ⟨hierarchy, .inr ⟨node, newParent, tenant, tenant, parents, fits.outside, rootedNode,
    .inl (List.mem_singleton_self tenant), rootedParent, List.mem_singleton_self tenant, .inl rfl,
    _, moved, ?_, .inl rfl⟩, restamped⟩
  have rooted := rootedNode
  rw [← isNode] at rooted
  rw [← (inv.roots b member).unique rooted]
  exact hierarchy.roots _ moved

theorem setStatus_commits {actor node : UUID} {status : BusinessStatus}
    (call : db.setStatus actor node status now = .ok db') : db.Commits db' now locks := by
  simp only [setStatus, bind_ok, pure_ok] at call
  obtain ⟨_, -, rfl⟩ := call
  exact ⟨inv.status node status now, .inl (parentOf_of_links (map_updateWhere _ _ fun _ _ => rfl)),
    .updateWhere _ (fun _ => rfl) fun _ => .inr rfl⟩

theorem deleteBusiness_commits {actor node : UUID}
    (call : db.deleteBusiness actor node now = .ok db') : db.Commits db' now locks := by
  have hierarchy := inv.delete call
  simp only [deleteBusiness, ↓guard_ok, bind_ok, pure_ok] at call
  obtain ⟨_, -, -, rfl⟩ := call
  exact ⟨hierarchy, .inl (parentOf_of_links (map_updateWhere _ _ fun _ _ => rfl)),
    .updateWhere _ (fun _ => rfl) fun _ => .inr rfl⟩

theorem merged_commits {op : MergeOperation} (mergeable : db.Mergeable op) :
    db.Commits (db.merged op) now [op.sourceRootId, op.destinationRootId] := by
  have hierarchy := inv.merged mergeable
  have root : Rooted db.parentOf op.sourceRootId op.sourceRootId := ⟨.refl _, mergeable.source.2⟩
  have restamped : Restamped now db.businesses (db.merged op).businesses :=
    .updateWhere _ (fun _ => rfl) fun _ => .inl rfl
  refine ⟨hierarchy, .inr ⟨op.sourceRootId, op.destinationParentId, op.sourceRootId,
    op.destinationRootId, mergeable.parentOf_merged inv, mergeable.fits.outside, root,
    .inl (by simp), mergeable.parent.2, by simp, .inr rfl, ?_⟩, restamped⟩
  -- The source root itself is now in the tree of the destination, where it was not before.
  obtain ⟨b, member, isSource⟩ := mergeable.source.1
  obtain ⟨b', member', same, -⟩ := restamped.kept b member
  have isSource' := same.trans isSource
  refine ⟨b', member', ?_, .inr fun elsewhere => ?_⟩
  · rw [isSource', mergeable.parentOf_merged inv]
    exact mergeable.parent.2.graft_inside inv.bounded.acyclic mergeable.fits.outside (.refl _)
  · rw [isSource'] at elsewhere
    exact mergeable.other (root.unique elsewhere)

end

/-! ### What a commit leaves alone -/

/-- The tree of `r` has not changed. -/
def Elsewhere (db db' : Tenants) (r : UUID) : Prop :=
  db'.parentOf = db.parentOf ∨ ∃ x p, db'.parentOf = graft db.parentOf x p ∧
    ¬ Below db.parentOf x p ∧ ¬ Rooted db.parentOf x r ∧ ¬ Rooted db.parentOf p r

theorem Commits.elsewhere (commits : db.Commits db' now locks) {r : UUID} (known : db.Known r)
    (free : r ∉ locks) : db.Elsewhere db' r := by
  rcases commits.parents with same | ⟨x, p, rx, rp, parents, outside, rootedX, lockedX,
    rootedP, lockedP, -⟩
  · exact .inl same
  · refine .inr ⟨x, p, parents, outside, fun inTree => ?_, fun inTree => ?_⟩
    · obtain rfl := rootedX.unique inTree
      exact lockedX.elim free fun unknown => unknown known
    · exact free (rootedP.unique inTree ▸ lockedP)

section Elsewhere

variable {r : UUID} (inv : db.Hierarchy) (elsewhere : db.Elsewhere db' r)
include elsewhere

theorem Elsewhere.up_eq {d : UUID} (rooted : Rooted db.parentOf d r) (n : Nat) :
    up db'.parentOf n d = up db.parentOf n d := by
  rcases elsewhere with same | ⟨x, p, parents, -, noSub, -⟩
  · rw [same]
  · rw [parents]
    exact up_graft_elsewhere rooted noSub n

theorem Elsewhere.rooted {d : UUID} (rooted : Rooted db.parentOf d r) : Rooted db'.parentOf d r := by
  rcases elsewhere with same | ⟨x, p, parents, -, noSub, -⟩
  · rwa [same]
  · rw [parents]
    exact rooted.graft_elsewhere noSub

include inv

theorem Elsewhere.up_of {a d : UUID} {n : Nat} (rooted : Rooted db.parentOf a r)
    (reached : up db'.parentOf n d = some a) : up db.parentOf n d = some a := by
  rcases elsewhere with same | ⟨x, p, parents, outside, -, noSuper⟩
  · rwa [same] at reached
  · rw [parents] at reached
    exact up_of_graft_elsewhere inv.bounded.acyclic outside rooted noSuper reached

theorem Elsewhere.rooted_of {d : UUID} (rooted : Rooted db'.parentOf d r) : Rooted db.parentOf d r := by
  rcases elsewhere with same | ⟨x, p, parents, outside, -, noSuper⟩
  · rwa [same] at rooted
  · rw [parents] at rooted
    exact rooted.of_graft_elsewhere inv.bounded.acyclic outside noSuper

theorem Elsewhere.fits {r' y q : UUID} (elsewhere' : db.Elsewhere db' r')
    (below : Rooted db.parentOf y r) (above : Rooted db.parentOf q r')
    (fits : Fits db.parentOf maxDepth y q) : Fits db'.parentOf maxDepth y q := by
  obtain ⟨apart, most, least, high, low, room⟩ := fits
  refine ⟨fun ⟨n, reached⟩ => apart ⟨n, ?_⟩, most, least, fun a n reached => high a n ?_,
    fun d n reached => low d n (elsewhere.up_of inv below reached), room⟩
  · rwa [elsewhere'.up_eq above] at reached
  · rwa [elsewhere'.up_eq above] at reached

end Elsewhere

section

variable (inv : db.Hierarchy)

include inv

theorem Commits.mergeable (commits : db.Commits db' now locks) {op : MergeOperation}
    (mergeable : db.Mergeable op) (freeSource : op.sourceRootId ∉ locks)
    (freeDestination : op.destinationRootId ∉ locks) : db'.Mergeable op := by
  obtain ⟨n, reached⟩ := mergeable.parent.2.1
  have knownRoot := up_node inv.upward mergeable.parent.1 reached
  have source := commits.elsewhere mergeable.source.1 freeSource
  have destination := commits.elsewhere knownRoot freeDestination
  have root : Rooted db.parentOf op.sourceRootId op.sourceRootId := ⟨.refl _, mergeable.source.2⟩
  exact ⟨⟨⟨commits.known mergeable.source.1, (source.rooted root).2⟩,
    ⟨commits.known mergeable.parent.1, destination.rooted mergeable.parent.2⟩, mergeable.other⟩,
    source.fits inv destination root mergeable.parent.2 mergeable.fits⟩

/-! ### What a preflight has seen -/

/-- Some business of the tenant was not in the snapshot with its present stamp. -/
def Changed (db : Tenants) (snapshot : RootSnapshot) (root : UUID) : Prop :=
  ∃ b ∈ db.businesses, Rooted db.parentOf b.id root ∧
    ∀ x ∈ snapshot.businesses, x.id = b.id → x.updatedAt ≠ b.updatedAt

/-- As long as `root` is one, its tenant has the businesses of the snapshot, and what was read after
the snapshot still holds, or the tenant has visibly changed. -/
def Tracks (db : Tenants) (snapshot : RootSnapshot) (root : UUID) (fact : Prop) : Prop :=
  db.parentOf root = none → (∀ x ∈ snapshot.businesses, Rooted db.parentOf x.id root) ∧
    (fact ∨ db.Changed snapshot root)

theorem tracks_rootSnapshot (root : UUID) : db.Tracks (db.rootSnapshot root) root True := by
  refine fun _ => ⟨fun x member => ?_, .inl trivial⟩
  obtain ⟨row, isRoot⟩ := List.mem_filter.mp member
  rw [← beq_iff_eq.mp isRoot]
  exact inv.roots x row

omit inv in
theorem Tracks.read {snapshot : RootSnapshot} {fact : Prop} (tracks : db.Tracks snapshot root True)
    (holds : db.parentOf root = none → fact) : db.Tracks snapshot root fact :=
  fun isRoot => ⟨(tracks isRoot).1, .inl (holds isRoot)⟩

theorem Tracks.current {snapshot : RootSnapshot} {fact : Prop}
    (tracks : db.Tracks snapshot root fact) (isRoot : db.parentOf root = none)
    (same : db.rootSnapshot root = snapshot) : fact := by
  rcases (tracks isRoot).2 with holds | ⟨b, member, rooted, changed⟩
  · exact holds
  · refine absurd rfl (changed b ?_ rfl)
    rw [← same]
    exact List.mem_filter.mpr ⟨member, by simpa using (inv.roots b member).unique rooted⟩

omit inv in
theorem Changed.commits (commits : db.Commits db' now locks) {snapshot : RootSnapshot}
    (fresh : ∀ x ∈ snapshot.businesses, x.updatedAt ≠ now)
    (stays : ∀ d, Rooted db.parentOf d root → Rooted db'.parentOf d root)
    (changed : db.Changed snapshot root) : db'.Changed snapshot root := by
  obtain ⟨b, member, rooted, differs⟩ := changed
  obtain ⟨b', member', id, stamp⟩ := commits.rows.kept b member
  refine ⟨b', member', id ▸ stays b.id rooted, fun x seen same => ?_⟩
  rcases stamp with old | new
  · rw [old]
    exact differs x seen (same.trans id)
  · rw [new]
    exact fresh x seen

/-- A commit leaves what a preflight has read as it is, or shows in the tenant. -/
theorem Commits.tracks (commits : db.Commits db' now locks) {snapshot : RootSnapshot}
    {fact fact' : Prop} (fresh : ∀ x ∈ snapshot.businesses, x.updatedAt ≠ now)
    (carry : db.parentOf root = none → db.Elsewhere db' root → fact → fact')
    (tracks : db.Tracks snapshot root fact) : db'.Tracks snapshot root fact' := by
  intro isRoot'
  have untouched (isRoot : db.parentOf root = none) (elsewhere : db.Elsewhere db' root) :
      (∀ x ∈ snapshot.businesses, Rooted db'.parentOf x.id root) ∧ (fact' ∨ db'.Changed snapshot root) :=
    ⟨fun x seen => elsewhere.rooted ((tracks isRoot).1 x seen),
      (tracks isRoot).2.imp (carry isRoot elsewhere)
        (Changed.commits commits fresh fun _ => elsewhere.rooted)⟩
  rcases commits.parents with same |
    ⟨x, p, rx, rp, parents, outside, rootedX, -, rootedP, -, oneTree, b, member, grown, shows⟩
  · exact untouched (same ▸ isRoot') (.inl same)
  have isRoot : db.parentOf root = none := root_of_graft (parents ▸ isRoot')
  by_cases isP : rp = root
  · -- The tree has grown; its businesses stay in it, and the new part tells.
    subst isP
    have stays (d : UUID) (rooted : Rooted db.parentOf d rp) : Rooted db'.parentOf d rp := by
      rw [parents]
      by_cases inside : Below db.parentOf x d
      · exact rootedP.graft_inside inv.bounded.acyclic outside inside
      · exact rooted.graft inside
    refine ⟨fun y seen =>
      stays y.id ((tracks isRoot).1 y seen), .inr ⟨b, member, grown, fun y seen same => ?_⟩⟩
    rcases shows with stamped | foreign
    · rw [stamped]
      exact fresh y seen
    · exact absurd (same ▸ (tracks isRoot).1 y seen) foreign
  · have notX : rx ≠ root := by
      rintro rfl
      rcases oneTree with same | rfl
      · exact isP same.symm
      · rw [parents, graft_self] at isRoot'
        cases isRoot'
    exact untouched isRoot (.inr ⟨x, p, parents, outside, fun inTree => notX (rootedX.unique inTree),
      fun inTree => isP (rootedP.unique inTree)⟩)

/-- No business is more than `height` below the root. -/
def HeightWithin (db : Tenants) (root : UUID) (height : Nat) : Prop :=
  ∀ d n, up db.parentOf n d = some root → n ≤ height

/-- The destination parent is no more than `depth` below its root. -/
def DepthWithin (db : Tenants) (op : MergeOperation) (depth : Nat) : Prop :=
  Rooted db.parentOf op.destinationParentId op.destinationRootId →
    ∀ a n, up db.parentOf n op.destinationParentId = some a → n ≤ depth

/-- What a preflight without conflicts has found. -/
def Prepared (db : Tenants) (op : MergeOperation) : Prop :=
  ∃ height depth, db.Tracks op.source op.sourceRootId (db.HeightWithin op.sourceRootId height) ∧
    db.Tracks op.destination op.destinationRootId (db.DepthWithin op depth) ∧
    depth + 1 + height ≤ maxDepth

theorem heightWithin_sourceHeight (isRoot : db.parentOf root = none) :
    db.HeightWithin root (db.sourceHeight root) := by
  intro d n reached
  cases n with
  | zero => exact Nat.zero_le _
  | succ n =>
    obtain ⟨c, member, ancestor, descendant, depth⟩ :=
      (inv.closure _ _ _).mpr ⟨(inv.known_of_up reached).1, reached⟩
    have rooted := inv.paths c member
    rw [descendant] at rooted
    have isTenant : c.tenantRootId = root := rooted.unique ⟨⟨_, reached⟩, isRoot⟩
    rw [← depth]
    exact le_foldr_max (List.mem_map_of_mem (List.mem_filter.mpr ⟨member, by simp [ancestor, isTenant]⟩))

theorem depthWithin_parentDepth (op : MergeOperation)
    (known : db.Known op.destinationParentId) : db.DepthWithin op (db.parentDepth op) := by
  intro rooted a n reached
  obtain ⟨k, toRoot⟩ := rooted.1
  obtain ⟨c, member, ancestor, descendant, -⟩ := (inv.closure _ _ _).mpr ⟨known, toRoot⟩
  have isTenant : c.tenantRootId = op.destinationRootId := by
    have carried := inv.paths c member
    rw [descendant] at carried
    exact carried.unique rooted
  have found : (db.closure.find? fun c => c.ancestorId == op.destinationRootId &&
      c.descendantId == op.destinationParentId && c.tenantRootId == op.destinationRootId).isSome = true :=
    List.find?_isSome.mpr ⟨c, member, by simp [ancestor, descendant, isTenant]⟩
  obtain ⟨row, isFound⟩ := Option.isSome_iff_exists.mp found
  have holds := List.find?_some isFound
  simp only [Bool.and_eq_true, beq_iff_eq] at holds
  have listed : db.Lists op.destinationRootId op.destinationParentId (db.parentDepth op) := by
    refine ⟨row, List.mem_of_find?_eq_some isFound, holds.1.1, holds.1.2, ?_⟩
    rw [parentDepth, isFound]
    rfl
  exact inv.le_depth listed rooted.2 reached

theorem Commits.prepared (commits : db.Commits db' now locks) {op : MergeOperation}
    (freshSource : ∀ x ∈ op.source.businesses, x.updatedAt ≠ now)
    (freshDestination : ∀ x ∈ op.destination.businesses, x.updatedAt ≠ now)
    (prepared : db.Prepared op) : db'.Prepared op := by
  obtain ⟨height, depth, source, destination, room⟩ := prepared
  refine ⟨height, depth, commits.tracks inv freshSource (fun isRoot elsewhere within => ?_) source,
    commits.tracks inv freshDestination (fun _ elsewhere within => ?_) destination, room⟩
  · exact fun d n reached => within d n (elsewhere.up_of inv ⟨.refl _, isRoot⟩ reached)
  · intro rooted a n reached
    have before := elsewhere.rooted_of inv rooted
    rw [elsewhere.up_eq before] at reached
    exact within before a n reached

/-- The validation under both locks makes the preflight's findings present facts. -/
theorem Prepared.mergeable {op : MergeOperation} (prepared : db.Prepared op)
    (current : db.preflightCurrent op = true) : db.Mergeable op := by
  simp only [preflightCurrent, Bool.and_eq_true, beq_iff_eq] at current
  obtain ⟨⟨⟨authorized, -⟩, sameSource⟩, sameDestination⟩ := current
  obtain ⟨source, parent, other⟩ := mergeAuthorized_some inv authorized
  obtain ⟨height, depth, trackedSource, trackedDestination, room⟩ := prepared
  have low := trackedSource.current inv source.2 sameSource
  have high := trackedDestination.current inv parent.2.2 sameDestination
  refine ⟨⟨source, parent, other⟩, fun below => other ?_, depth, height, high parent.2, low, room⟩
  exact Rooted.unique ⟨below, source.2⟩ parent.2

end

end Tenants

end Manyforge.Tenancy
