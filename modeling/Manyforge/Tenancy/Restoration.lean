import Manyforge.Tenancy.Escalation

/-!
# Undoing an archive

`Archive` takes a subtree out of the businesses whose memberships count, and `Restore` asks for the
same permission as `Archive`. Whoever got it from a membership at the archived business itself has
lost it by then; and `Restore` also wakes what had been archived before.
-/
namespace Manyforge.Tenancy

open Table Forest Calls

namespace Tenants

variable {db db' : Tenants} {principal node : UUID} {now later : Timestamp}

/-- The principal restores the business, with which the active businesses are active again and the
principal's permissions are what they were. -/
def Undone (db db' : Tenants) (principal node : UUID) (later : Timestamp) : Prop :=
  ∃ restored, db'.changeStatus principal node .active later = .ok restored ∧
    (∀ id, db.unarchived id = true → restored.unarchived id = true) ∧
    ∀ business key, key ∈ restored.resolve principal business ↔ key ∈ db.resolve principal business

/-- The principal manages the business by a membership further up, and has no membership in an
archived part of it that would give more than the principal has. -/
structure Reversible (db : Tenants) (principal node : UUID) : Prop where
  manages : ∃ m ∈ db.memberships, m.principalId = principal ∧ m.businessId ≠ node ∧
    node ∈ db.below m.businessId ∧ db.unarchived m.businessId = true ∧
      "hierarchy.manage" ∈ db.conveys m.roleId
  dormant : ∀ m ∈ db.memberships, m.principalId = principal → m.businessId ∈ db.below node →
    (∃ b ∈ db.businesses, b.id = m.businessId ∧ b.status = .archived ∧ b.deletedAt = none) →
    ∀ business ∈ db.below m.businessId, ∀ key ∈ db.conveys m.roleId, key ∈ db.resolve principal business

/-- The later status stands alone: the first one changes no column that selects the rows. -/
theorem setSubtreeStatus_again (status status' : BusinessStatus) :
    (db.setSubtreeStatus node status now).setSubtreeStatus node status' later =
      db.setSubtreeStatus node status' later := by
  refine congrArg (fun businesses => { db with businesses }) (updateWhere_updateWhere db.businesses ?_)
  exact fun _ chosen => chosen

theorem changeStatus_ok_iff {status : BusinessStatus} :
    db.changeStatus principal node status now = .ok db' ↔
    (∃ b, db.loadVisible principal node = .ok b) ∧
      "hierarchy.manage" ∈ db.resolve principal node ∧ db.setSubtreeStatus node status now = db' := by
  simp only [changeStatus, setStatus, requirePerm, bind_ok, pure_ok, permit_ok, List.contains_iff_mem]
  constructor
  · rintro ⟨b, visible, _, ⟨held, -⟩, made⟩
    exact ⟨⟨b, visible⟩, held, made⟩
  · rintro ⟨⟨b, visible⟩, held, made⟩
    exact ⟨b, visible, (), ⟨held, trivial⟩, made⟩

theorem visible_iff (ids : UniqueOn (·.id) db.businesses) : (∃ b, db.loadVisible principal node = .ok b) ↔
    db.authorized principal node = true ∧ ∃ b ∈ db.businesses, b.id = node ∧ b.deletedAt = none := by
  constructor
  · rintro ⟨b, visible⟩
    have found := loadVisible_some visible
    obtain ⟨row, isNode⟩ := business?_some found
    simp only [loadVisible, found] at visible
    obtain ⟨holds, -⟩ := refuse_ok.mp visible
    simp only [Bool.or_eq_true, not_or, Bool.not_eq_true, Bool.not_eq_false',
      Option.isSome_eq_false_iff, Option.isNone_iff_eq_none] at holds
    exact ⟨holds.2, b, row, isNode, holds.1⟩
  · rintro ⟨authorized, b, row, rfl, live⟩
    refine ⟨b, ?_⟩
    simp [loadVisible, business?_eq ids row, live, authorized]

/-- At the businesses above one, the archive silences the memberships of that business only. -/
theorem unarchived_above (inv : db.GrantInv) {b : Business} (row : b ∈ db.businesses)
    (live : b.deletedAt = none) {id : UUID} (above : b.id ∈ db.below id) :
    (db.setSubtreeStatus b.id .archived now).unarchived id = true ↔
      db.unarchived id = true ∧ id ≠ b.id := by
  have known := known_of_below inv above
  have under := (inv.hierarchy.lists_iff known).mp (mem_below.mp above)
  have self : db.isDescendant b.id b.id = true :=
    isDescendant_iff.mpr (mem_below.mpr ((inv.hierarchy.lists_iff known).mpr (.refl _)))
  constructor
  · intro open_
    refine ⟨unarchived_archive open_, ?_⟩
    rintro rfl
    obtain ⟨b', row', isId, active⟩ := unarchived_iff.mp open_
    obtain ⟨old, wasRow, ⟨-, rfl⟩ | ⟨kept, rfl⟩⟩ := updated_or_kept row'
    · cases active
    · obtain rfl := inv.hierarchy.ids.eq_of_key wasRow row isId
      exact kept (by simp [self, live])
  · rintro ⟨open_, other⟩
    obtain ⟨b', row', rfl, active⟩ := unarchived_iff.mp open_
    refine unarchived_iff.mpr ⟨b', kept_mem row' fun chosen => other ?_, rfl, active⟩
    -- A business above and below is the same one.
    obtain ⟨lower, -⟩ := Bool.and_eq_true_iff.mp chosen
    have knownAbove : db.Known b'.id := ⟨b', row', rfl⟩
    have back := (inv.hierarchy.lists_iff knownAbove).mp (mem_below.mp (isDescendant_iff.mp lower))
    exact under.antisymm inv.hierarchy.bounded.acyclic back

theorem mem_resolve_status (inv : db.GrantInv) {status : BusinessStatus} {business : UUID}
    {key : String} :
    key ∈ (db.setSubtreeStatus node status now).resolve principal business ↔
      ∃ m ∈ db.memberships, m.principalId = principal ∧ business ∈ db.below m.businessId ∧
        (db.setSubtreeStatus node status now).unarchived m.businessId = true ∧
          key ∈ db.conveys m.roleId :=
  mem_resolve (inv.status node status now).catalogued

theorem restorable_iff (inv : db.GrantInv)
    (archived : db.changeStatus principal node .archived now = .ok db') (later : Timestamp) :
    (∃ restored, db'.changeStatus principal node .active later = .ok restored) ↔
      ∃ m ∈ db.memberships, m.principalId = principal ∧ m.businessId ≠ node ∧
        node ∈ db.below m.businessId ∧
        db.unarchived m.businessId = true ∧ "hierarchy.manage" ∈ db.conveys m.roleId := by
  obtain ⟨visible, -, rfl⟩ := changeStatus_ok_iff.mp archived
  obtain ⟨authorized, b, row, rfl, live⟩ := (visible_iff inv.hierarchy.ids).mp visible
  have inv' := inv.hierarchy.status b.id .archived now
  have still : ∃ b', (db.setSubtreeStatus b.id .archived now).loadVisible principal b.id = .ok b' := by
    refine (visible_iff inv'.ids).mpr ⟨authorized, _, mem_updateWhere.mpr ⟨b, row, rfl⟩, ?_⟩
    split
    · exact ⟨rfl, live⟩
    · exact ⟨rfl, live⟩
  simp only [changeStatus_ok_iff, still, true_and, exists_and_left, exists_eq', and_true]
  rw [mem_resolve_status inv]
  refine exists_congr fun m => and_congr_right fun _ => and_congr_right fun _ => ?_
  constructor
  · rintro ⟨covers, open_, conveyed⟩
    obtain ⟨open_, other⟩ := (unarchived_above inv row live covers).mp open_
    exact ⟨other, covers, open_, conveyed⟩
  · rintro ⟨other, covers, open_, conveyed⟩
    exact ⟨covers, (unarchived_above inv row live covers).mpr ⟨open_, other⟩, conveyed⟩

theorem resolve_restored_iff (inv : db.GrantInv) :
    (∀ business key, key ∈ (db.setSubtreeStatus node .active later).resolve principal business ↔
      key ∈ db.resolve principal business) ↔
    ∀ m ∈ db.memberships, m.principalId = principal → m.businessId ∈ db.below node →
      (∃ b ∈ db.businesses, b.id = m.businessId ∧ b.status = .archived ∧ b.deletedAt = none) →
      ∀ business ∈ db.below m.businessId, ∀ key ∈ db.conveys m.roleId, key ∈
        db.resolve principal business := by
  constructor
  · intro same m member isPrincipal lower archived business covers key conveyed
    refine (same business key).mp
      ((mem_resolve_status inv).mpr ⟨m, member, isPrincipal, covers, ?_, conveyed⟩)
    exact unarchived_restore.mpr (.inr ⟨lower, archived⟩)
  · intro dormant business key
    rw [mem_resolve_status inv]
    constructor
    · rintro ⟨m, member, isPrincipal, covers, open_, conveyed⟩
      rcases unarchived_restore.mp open_ with was | ⟨lower, archived⟩
      · exact (mem_resolve inv.catalogued).mpr ⟨m, member, isPrincipal, covers, was, conveyed⟩
      · exact dormant m member isPrincipal lower archived business covers key conveyed
    · intro held
      obtain ⟨m, member, isPrincipal, covers, open_, conveyed⟩ := (mem_resolve inv.catalogued).mp held
      exact ⟨m, member, isPrincipal, covers, unarchived_restore.mpr (.inl open_), conveyed⟩

/-- Who archived a business can undo it exactly if the permission came from further up and nothing
was archived below that would give them more. -/
theorem archive_undone_iff (inv : db.GrantInv)
    (archived : db.changeStatus principal node .archived now = .ok db')
    (later : Timestamp) : Undone db db' principal node later ↔ Reversible db principal node := by
  have made := (changeStatus_ok_iff.mp archived).2.2
  have again {restored : Tenants} (call : db'.changeStatus principal node .active later = .ok restored) :
      restored = db.setSubtreeStatus node .active later := by
    rw [← (changeStatus_ok_iff.mp call).2.2, ← made, setSubtreeStatus_again]
  constructor
  · rintro ⟨restored, call, -, same⟩
    obtain rfl := again call
    exact ⟨(restorable_iff inv archived later).mp ⟨_, call⟩, (resolve_restored_iff inv).mp same⟩
  · rintro ⟨manages, dormant⟩
    obtain ⟨restored, call⟩ := (restorable_iff inv archived later).mpr manages
    obtain rfl := again call
    refine ⟨_, call, fun id open_ => ?_, (resolve_restored_iff inv).mpr dormant⟩
    exact unarchived_restore.mpr (.inl open_)

end Tenants

namespace Sample

/-- A tenant with one sub-business, both by principal 20. -/
def branched : GrantState :=
  (staff.next mailed (.createMaster 20 10 40 "Acme" 0)).next mailed (.createSub 20 10 11 "East" 1)

theorem branched_inv : branched.db.GrantInv :=
  GrantState.keeps mailed (GrantState.keeps mailed staff_inv _) _

theorem sub_archive_undone :
    Tenants.Undone branched.db (branched.db.setSubtreeStatus 11 .archived 8) 20 11 9 := by
  have archived : branched.db.changeStatus 20 11 .archived 8 =
      .ok (branched.db.setSubtreeStatus 11 .archived 8) :=
    Tenants.changeStatus_ok_iff.mpr ⟨⟨_, rfl⟩, by decide +kernel, rfl⟩
  exact (Tenants.archive_undone_iff branched_inv archived 9).mpr ⟨by decide +kernel, by decide +kernel⟩

/-- The Owner who archives the master business is refused when they want it back. -/
theorem master_archive_final : branched.db.GrantInv ∧
    branched.db.changeStatus 20 10 .archived 8 = .ok (branched.db.setSubtreeStatus 10 .archived 8) ∧
    (branched.db.setSubtreeStatus 10 .archived 8).resolve 20 10 = [] ∧
    ¬ Tenants.Undone branched.db (branched.db.setSubtreeStatus 10 .archived 8) 20 10 9 := by
  have none : (branched.db.setSubtreeStatus 10 .archived 8).resolve 20 10 = [] := by decide +kernel
  refine ⟨branched_inv, Tenants.changeStatus_ok_iff.mpr ⟨⟨_, rfl⟩, by decide +kernel, rfl⟩, none, ?_⟩
  rintro ⟨restored, call, -⟩
  have held := (Tenants.changeStatus_ok_iff.mp call).2.1
  rw [none] at held
  cases held

end Sample

end Manyforge.Tenancy
