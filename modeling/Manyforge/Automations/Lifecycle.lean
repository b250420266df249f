import Manyforge.Automations.Versions
import Manyforge.Lib.Transition
import Manyforge.Lib.Calls

/-!
# The life of automation versions

What each transaction on an automation does to its row and its versions, and the
invariant that all of them keep: one version at most is active and the automation
points to it, one at most is a draft and it has the greatest number, and every other
version has the graph that was validated when it was activated.
-/
namespace Manyforge

open Table Transition Calls Database

/-! ### What the transactions do -/

namespace Database

variable {db db' : Database} {key : AutomationKey}

theorem insertVersion_ok {row : AutomationVersion} (call : db.insertVersion row = .ok db') :
    0 < row.number ∧ (∀ v ∈ db.versions, v.id ≠ row.id) ∧
      db' = { db with versions := db.versions ++ [row] } := by
  simp only [insertVersion, refuse_ok, Except.ok.injEq] at call
  obtain ⟨positive, fresh, -, rfl⟩ := call
  exact ⟨by simpa using positive, by simpa using fresh, rfl⟩

theorem create_ok {versionId : UUID} {allowReenroll : Bool}
    (call : db.create key versionId allowReenroll = .ok db') :
    (∀ a ∈ db.automations, a.id ≠ key.automationId) ∧ (∀ v ∈ db.versions, v.id ≠ versionId) ∧
      db' = { db with
        versions := db.versions ++ [newVersion key versionId 1 ⟨[], []⟩]
        automations := db.automations ++ [newAutomation key versionId allowReenroll] } := by
  simp only [create, bind_ok, refuse_ok, Except.ok.injEq] at call
  obtain ⟨_, -, absent, mid, inserted, rfl⟩ := call
  obtain ⟨-, fresh, rfl⟩ := insertVersion_ok inserted
  exact ⟨by simpa using absent, fresh, rfl⟩

def keptVersions (db : Database) (key : AutomationKey) : List AutomationVersion :=
  db.versions.filter fun v => !(db.prunedVersions key (maxAutomationVersions - 1)).contains v.id

theorem pruned_removable (unique : UniqueOn (·.id) db.versions) {v : AutomationVersion}
    (member : v ∈ db.versions) {target : Int} (pruned : v.id ∈ db.prunedVersions key target) :
    db.removable key v = true := by
  obtain ⟨w, selected, same⟩ := List.mem_map.mp pruned
  obtain ⟨w_mem, holds⟩ := mem_selectFirst selected
  obtain rfl := unique.eq_of_key w_mem member same
  exact holds

theorem cloneVersion_ok {automation : Automation} {newId : UUID}
    (call : db.cloneVersion key automation newId = .ok db') :
    automation.status ≠ .archived ∧ automation.draftVersionId = none ∧
    ∃ active ∈ db.keptVersions key, automation.activeVersionId = some active.id ∧
      key.owns active = true ∧ 0 < int32 (active.number + 1) ∧
      (∀ v ∈ db.keptVersions key, v.id ≠ newId) ∧
      db' = { db with
        versions := db.keptVersions key ++
          [newVersion key newId (int32 (active.number + 1)) active.graph]
        automations := updateWhere (fun a => key.names a && a.draftVersionId.isNone)
          (fun a => { a with draftVersionId := some newId }) db.automations } := by
  obtain ⟨allowed, call⟩ := refuse_ok.mp call
  split at call; · cases call
  next activeId pointer =>
  simp only [pruneVersions, bind_ok, refuse_ok, Except.ok.injEq] at call
  obtain ⟨_, -, mid, ⟨-, rfl⟩, -, call⟩ := call
  split at call; · cases call
  next active found =>
  simp only [bind_ok, permit_ok, Except.ok.injEq] at call
  obtain ⟨mid, inserted, -, rfl⟩ := call
  obtain ⟨positive, fresh, rfl⟩ := insertVersion_ok inserted
  obtain ⟨row, isActive, owned⟩ := of_find?_key found
  simp only [not_or, Bool.not_eq_true, Option.isSome_eq_false_iff,
    Option.isNone_iff_eq_none] at allowed
  refine ⟨allowed.1, allowed.2, active, row, ?_, owned, positive, fresh, rfl⟩
  rw [pointer, isActive]

/-- The row of a version after an activation: the active version is superseded, the draft becomes
the active one. -/
def activationRow (key : AutomationKey) (activeId : Option UUID) (versionId : UUID)
    (identity : String × String) (snapshot : List UUID) (v : AutomationVersion) :
    AutomationVersion :=
  if graphEditable key versionId v then activatedVersion identity snapshot v
  else if activeId = some v.id ∧ key.owns v = true ∧ v.status = .active then
    { v with status := .superseded }
  else v

theorem activationRow_columns (key : AutomationKey) (activeId : Option UUID) (versionId : UUID)
    (identity : String × String) (snapshot : List UUID) (v : AutomationVersion) :
    (activationRow key activeId versionId identity snapshot v).id = v.id ∧
    (activationRow key activeId versionId identity snapshot v).automationId = v.automationId ∧
    (activationRow key activeId versionId identity snapshot v).number = v.number ∧
    (activationRow key activeId versionId identity snapshot v).graph = v.graph ∧
    key.owns (activationRow key activeId versionId identity snapshot v) = key.owns v := by
  unfold activationRow
  split_ifs <;> exact ⟨rfl, rfl, rfl, rfl, rfl⟩

theorem activate_ok {env : ServiceEnv} {automation : Automation} {version : AutomationVersion}
    {versionId : UUID} (call : db.activate env key automation version versionId = .ok db') :
    automation.status ≠ .archived ∧ automation.draftVersionId = some versionId ∧
    version.status = .draft ∧
    validate env.runtime version.graph (db.tenantReferences env.runtime key version.graph) = [] ∧
    ∃ identity snapshot, db' = { db with
      versions := db.versions.map
        (activationRow key automation.activeVersionId versionId identity snapshot)
      automations := updateWhere key.names (activatedAutomation versionId) db.automations } := by
  simp only [activate, refuse_ok, bind_ok, Except.ok.injEq] at call
  obtain ⟨allowed, valid, identity, -, snapshot, -, _, -, mid, superseded, -, -, rfl⟩ := call
  simp only [not_or, ne_eq, not_not] at allowed
  simp only [ne_eq, List.length_eq_zero_iff, not_not] at valid
  refine ⟨allowed.1, allowed.2.1, allowed.2.2, valid, identity, snapshot, ?_⟩
  cases pointer : automation.activeVersionId with
  | none =>
    rw [pointer] at superseded
    obtain rfl := Except.ok.inj superseded
    simp [updateWhere, activationRow]
  | some activeId =>
    simp only [pointer, supersede, permit_ok, Except.ok.injEq] at superseded
    obtain ⟨-, rfl⟩ := superseded
    simp only [updateWhere, List.map_map]
    congr 1
    refine List.map_congr_left fun v _ => ?_
    simp only [Function.comp_apply, activationRow, graphEditable, Bool.and_eq_true, beq_iff_eq]
    grind

end Database

/-! ### The versions of one automation -/

/-- A graph that passed the validation of an activation. -/
structure Activation (rt : Runtime) where
  versionId : UUID
  graph : Graph
  refs : References
  valid : validate rt graph refs = []

/-- What always holds of the versions of an automation with the given row; `log` are its
activations, the latest first. -/
structure Versioned {rt : Runtime} (key : AutomationKey) (row : Option Automation)
    (versions : List AutomationVersion) (log : List (Activation rt)) : Prop where
  ids : UniqueOn (·.id) versions
  owned : ∀ v ∈ versions, v.automationId = key.automationId → key.owns v = true
  range : ∀ v ∈ versions, v.automationId = key.automationId → 0 < v.number ∧ v.number < 2 ^ 31
  numbers : ∀ v ∈ versions, ∀ w ∈ versions, v.automationId = key.automationId →
    w.automationId = key.automationId → v.number = w.number → v.id = w.id
  absent : row = none → ∀ v ∈ versions, v.automationId ≠ key.automationId
  active : ∀ a, row = some a → ∀ v ∈ versions, v.automationId = key.automationId →
    (v.status = .active ↔ a.activeVersionId = some v.id)
  pointed : ∀ a, row = some a → ∀ v ∈ versions, v.automationId = key.automationId →
    a.draftVersionId = some v.id → v.status = .draft
  draft : ∀ a, row = some a → ∀ v ∈ versions, v.automationId = key.automationId →
    v.status = .draft → a.draftVersionId = some v.id ∨ a.status = .archived
  newest : ∀ v ∈ versions, ∀ w ∈ versions, v.automationId = key.automationId →
    w.automationId = key.automationId → v.status = .draft → w.id ≠ v.id → w.number < v.number
  ordered : ∀ v ∈ versions, ∀ w ∈ versions, v.automationId = key.automationId →
    w.automationId = key.automationId → v.status = .active → w.status = .superseded →
    w.number < v.number
  settled : ∀ v ∈ versions, v.automationId = key.automationId → v.status ≠ .draft →
    ∃ activation ∈ log, activation.versionId = v.id ∧ activation.graph = v.graph
  unsettled : ∀ v ∈ versions, v.automationId = key.automationId → v.status = .draft →
    ∀ activation ∈ log, activation.versionId ≠ v.id
  once : (log.map (·.versionId)).Nodup

theorem int32_succ {n : Int} (positive : 0 < n) (bounded : n < 2 ^ 31)
    (still : 0 < int32 (n + 1)) : int32 (n + 1) = n + 1 ∧ n + 1 < 2 ^ 31 := by
  unfold int32 at still ⊢
  rw [Int.bmod_def] at still ⊢
  split at still <;> rename_i small
  · rw [if_pos small]
    omega
  · omega

namespace Versioned

variable {rt : Runtime} {key : AutomationKey} {row : Option Automation} {a : Automation}
  {versions : List AutomationVersion} {log : List (Activation rt)}

theorem of_pointers (tidy : Versioned key (some a) versions log) {a' : Automation}
    (active : a'.activeVersionId = a.activeVersionId)
    (draft : (a'.draftVersionId = a.draftVersionId ∧ a.status ≠ .archived) ∨
      (a'.draftVersionId = none ∧ a'.status = .archived)) :
    Versioned key (some a') versions log := by
  refine { tidy with absent := nofun, active := ?_, pointed := ?_, draft := ?_ }
  · rintro _ ⟨⟩
    rw [active]
    exact tidy.active a rfl
  · rintro _ ⟨⟩ v member own points
    rcases draft with ⟨kept, -⟩ | ⟨cleared, -⟩
    · exact tidy.pointed a rfl v member own (kept ▸ points)
    · simp [cleared] at points
  · rintro _ ⟨⟩ v member own isDraft
    rcases draft with ⟨kept, live⟩ | ⟨-, archived⟩
    · rw [kept]
      exact .inl ((tidy.draft a rfl v member own isDraft).resolve_right live)
    · exact .inr archived

/-- While there is no draft, the number after that of the active version is above all numbers. -/
theorem below_next (tidy : Versioned key (some a) versions log) (live : a.status ≠ .archived)
    (noDraft : a.draftVersionId = none) {active : AutomationVersion}
    (active_mem : active ∈ versions) (active_own : active.automationId = key.automationId)
    (pointer : a.activeVersionId = some active.id) (positive : 0 < int32 (active.number + 1)) :
    int32 (active.number + 1) < 2 ^ 31 ∧ ∀ v ∈ versions, v.automationId = key.automationId →
      v.status ≠ .draft ∧ v.number < int32 (active.number + 1) := by
  obtain ⟨active_pos, active_bound⟩ := tidy.range active active_mem active_own
  obtain ⟨next, bound⟩ := int32_succ active_pos active_bound positive
  have isActive : active.status = .active :=
    (tidy.active a rfl active active_mem active_own).mpr pointer
  rw [next]
  refine ⟨bound, fun v member own => ?_⟩
  cases status : v.status with
  | draft =>
    rcases tidy.draft a rfl v member own status with points | archived
    · simp [noDraft] at points
    · exact absurd archived live
  | active =>
    have points := (tidy.active a rfl v member own).mp status
    have same : v.id = active.id := Option.some.inj (points.symm.trans pointer)
    obtain rfl := tidy.ids.eq_of_key member active_mem same
    exact ⟨by simp, Int.lt_succ _⟩
  | superseded =>
    have least := tidy.ordered active active_mem v member active_own own isActive status
    exact ⟨by simp, by omega⟩

section

variable (tidy : Versioned key row versions log)

include tidy

theorem of_edit {edit : AutomationVersion → AutomationVersion}
    (columns : ∀ v, (edit v).id = v.id ∧ (edit v).automationId = v.automationId ∧
      (edit v).number = v.number ∧ (edit v).status = v.status ∧ key.owns (edit v) = key.owns v)
    (graph : ∀ v, v.status ≠ .draft → (edit v).graph = v.graph) :
    Versioned key row (versions.map edit) log where
  ids := by
    have same : (versions.map edit).map (·.id) = versions.map (·.id) := by
      simp [Function.comp_def, (columns _).1]
    rw [UniqueOn, same]
    exact tidy.ids
  owned := by simpa [columns] using tidy.owned
  range := by simpa [columns] using tidy.range
  numbers := by simpa [columns] using tidy.numbers
  absent := by simpa [columns] using tidy.absent
  active := by simpa [columns] using tidy.active
  pointed := by simpa [columns] using tidy.pointed
  draft := by simpa [columns] using tidy.draft
  newest := by simpa [columns] using tidy.newest
  ordered := by simpa [columns] using tidy.ordered
  settled := by
    rw [List.forall_mem_map]
    intro v member own isSettled
    simp only [columns] at own isSettled ⊢
    rw [graph v isSettled]
    exact tidy.settled v member own isSettled
  unsettled := by simpa [columns] using tidy.unsettled
  once := tidy.once

theorem of_own (ids : UniqueOn (·.id) versions')
    (own : ∀ v ∈ versions', v.automationId = key.automationId → v ∈ versions) :
    Versioned key row versions' log where
  ids := ids
  owned v member here := tidy.owned v (own v member here) here
  range v member here := tidy.range v (own v member here) here
  numbers v v_mem w w_mem v_own w_own :=
    tidy.numbers v (own v v_mem v_own) w (own w w_mem w_own) v_own w_own
  absent none v member here := tidy.absent none v (own v member here) here
  active a same v member here := tidy.active a same v (own v member here) here
  pointed a same v member here := tidy.pointed a same v (own v member here) here
  draft a same v member here := tidy.draft a same v (own v member here) here
  newest v v_mem w w_mem v_own w_own :=
    tidy.newest v (own v v_mem v_own) w (own w w_mem w_own) v_own w_own
  ordered v v_mem w w_mem v_own w_own :=
    tidy.ordered v (own v v_mem v_own) w (own w w_mem w_own) v_own w_own
  settled v member here := tidy.settled v (own v member here) here
  unsettled v member here := tidy.unsettled v (own v member here) here
  once := tidy.once

theorem of_filter (kept : AutomationVersion → Bool) :
    Versioned key row (versions.filter kept) log :=
  tidy.of_own (tidy.ids.filter kept) fun _ member _ => (List.mem_filter.mp member).1

theorem of_draft {new : AutomationVersion}
    (below : ∀ v ∈ versions, v.automationId = key.automationId →
      v.status ≠ .draft ∧ v.number < new.number)
    (bounded : 0 < new.number ∧ new.number < 2 ^ 31) (fresh : ∀ v ∈ versions, v.id ≠ new.id)
    (unlogged : ∀ activation ∈ log, activation.versionId ≠ new.id) (owns : key.owns new = true)
    (isDraft : new.status = .draft) (points : a.draftVersionId = some new.id)
    (inactive : a.activeVersionId ≠ some new.id)
    (active : ∀ v ∈ versions, v.automationId = key.automationId →
      (v.status = .active ↔ a.activeVersionId = some v.id)) :
    Versioned key (some a) (versions ++ [new]) log where
  ids := tidy.ids.append_fresh fresh
  owned := forall_inserted tidy.owned fun _ => owns
  range := forall_inserted tidy.range fun _ => bounded
  numbers := by
    refine forall_inserted (fun v v_old => forall_inserted (tidy.numbers v v_old) ?_)
      (forall_inserted ?_ ?_)
    · exact fun v_own _ same => absurd same (below v v_old v_own).2.ne
    · exact fun w w_old _ w_own same => absurd same (below w w_old w_own).2.ne'
    · exact fun _ _ _ => rfl
  absent := nofun
  active := by
    rintro _ ⟨⟩
    exact forall_inserted active fun _ => by simp [isDraft, inactive]
  pointed := by
    rintro _ ⟨⟩
    refine forall_inserted (fun v old own here => ?_) fun _ _ => isDraft
    exact absurd (Option.some.inj (here.symm.trans points)) (fresh v old)
  draft := by
    rintro _ ⟨⟩
    exact forall_inserted (fun v old own drafted => absurd drafted (below v old own).1) fun _ _ =>
      .inl points
  newest := by
    refine forall_inserted (fun v old w _ own _ drafted => absurd drafted (below v old own).1)
      (forall_inserted ?_ ?_)
    · exact fun w w_old _ w_own _ _ => (below w w_old w_own).2
    · exact fun _ _ _ other => absurd rfl other
  ordered := by
    refine forall_inserted (fun v v_old => forall_inserted (tidy.ordered v v_old) ?_)
      fun w _ _ _ isActive => ?_
    · intro _ _ _ isSuperseded
      simp [isDraft] at isSuperseded
    · simp [isDraft] at isActive
  settled := forall_inserted tidy.settled fun _ isSettled => absurd isDraft isSettled
  unsettled := forall_inserted tidy.unsettled fun _ _ => unlogged
  once := tidy.once

end

theorem activationRow_status (tidy : Versioned key (some a) versions log)
    (live : a.status ≠ .archived) {versionId : UUID} (points : a.draftVersionId = some versionId)
    (identity : String × String) (snapshot : List UUID) {v : AutomationVersion}
    (member : v ∈ versions) (own : v.automationId = key.automationId) :
    (activationRow key a.activeVersionId versionId identity snapshot v).status =
      if v.id = versionId then .active else .superseded := by
  have owns := tidy.owned v member own
  have drafted : v.status = .draft ↔ v.id = versionId := by
    constructor
    · intro isDraft
      have here := (tidy.draft a rfl v member own isDraft).resolve_right live
      exact Option.some.inj (here.symm.trans points)
    · intro here
      exact tidy.pointed a rfl v member own (here ▸ points)
  have isActive := tidy.active a rfl v member own
  unfold activationRow
  cases status : v.status with
  | draft =>
    simp [graphEditable, owns, status, drafted.mp status, activatedVersion]
  | active =>
    have other : v.id ≠ versionId := fun here => by simp [drafted.mpr here] at status
    simp [graphEditable, owns, status, other, isActive.mp status]
  | superseded =>
    have other : v.id ≠ versionId := fun here => by simp [drafted.mpr here] at status
    simp [graphEditable, status, other]

theorem of_activate (tidy : Versioned key (some a) versions log) (live : a.status ≠ .archived)
    {version : AutomationVersion} (version_mem : version ∈ versions)
    (version_own : version.automationId = key.automationId)
    (points : a.draftVersionId = some version.id) (identity : String × String)
    (snapshot : List UUID) {activation : Activation rt} (names : activation.versionId = version.id)
    (graph : activation.graph = version.graph) :
    Versioned key (some (activatedAutomation version.id a))
      (versions.map (activationRow key a.activeVersionId version.id identity snapshot))
      (activation :: log) := by
  have columns :=
    activationRow_columns key a.activeVersionId version.id identity snapshot
  have status {v} (member : v ∈ versions) (own : v.automationId = key.automationId) :=
    tidy.activationRow_status live points identity snapshot member own
  have isDraft : version.status = .draft :=
    tidy.pointed a rfl version version_mem version_own points
  -- Every version of the automation is active or superseded afterwards.
  have noDraft : ∀ v ∈ versions.map (activationRow key a.activeVersionId version.id identity snapshot),
      v.automationId = key.automationId → v.status ≠ .draft := by
    rw [List.forall_mem_map]
    intro v member own
    simp only [columns] at own
    rw [status member own]
    split <;> simp
  exact
    { ids := by
        have same : (versions.map (activationRow key a.activeVersionId version.id identity
            snapshot)).map (·.id) = versions.map (·.id) := by
          simp [Function.comp_def, columns]
        rw [UniqueOn, same]
        exact tidy.ids
      owned := by simpa [columns] using tidy.owned
      range := by simpa [columns] using tidy.range
      numbers := by simpa [columns] using tidy.numbers
      absent := by simp
      active := fun b same => by
        obtain rfl := Option.some.inj same
        rw [List.forall_mem_map]
        intro v member own
        simp only [columns] at own ⊢
        rw [status member own]
        simp [activatedAutomation, eq_comm]
      pointed := fun b same => by
        obtain rfl := Option.some.inj same
        simp [activatedAutomation]
      draft := fun _ _ v member own drafted => absurd drafted (noDraft v member own)
      newest := fun v member _ _ own _ drafted => absurd drafted (noDraft v member own)
      ordered := by
        simp only [List.forall_mem_map, columns]
        intro v v_mem w w_mem v_own w_own isActive isSuperseded
        rw [status v_mem v_own] at isActive
        rw [status w_mem w_own] at isSuperseded
        have v_here : v.id = version.id := by by_contra other; simp [other] at isActive
        have w_other : w.id ≠ version.id := fun here => by simp [here] at isSuperseded
        obtain rfl := tidy.ids.eq_of_key v_mem version_mem v_here
        exact tidy.newest v v_mem w w_mem v_own w_own isDraft w_other
      settled := by
        simp only [List.forall_mem_map, columns]
        intro v member own _
        by_cases here : v.id = version.id
        · obtain rfl := tidy.ids.eq_of_key member version_mem here
          exact ⟨activation, List.mem_cons_self, names, graph⟩
        · have isSettled : v.status ≠ .draft := fun drafted =>
            here (Option.some.inj
              (((tidy.draft a rfl v member own drafted).resolve_right live).symm.trans points))
          obtain ⟨earlier, logged, same⟩ := tidy.settled v member own isSettled
          exact ⟨earlier, List.mem_cons_of_mem _ logged, same⟩
      unsettled := fun v member own drafted => absurd drafted (noDraft v member own)
      once := by
        rw [List.map_cons, List.nodup_cons]
        refine ⟨?_, tidy.once⟩
        intro logged
        obtain ⟨earlier, earlier_mem, same⟩ := List.mem_map.mp logged
        exact tidy.unsettled version version_mem version_own isDraft earlier earlier_mem
          (same.trans names) }

end Versioned

namespace Database

variable {rt : Runtime} {key : AutomationKey} {db db' : Database} {log : List (Activation rt)}

theorem automationRow_updateWhere {chosen : Automation → Bool} {change : Automation → Automation}
    (written : db'.automations = updateWhere chosen change db.automations)
    (kept : ∀ a, key.names (change a) = key.names a) :
    db'.automationRow key =
      (db.automationRow key).map fun a => if chosen a then change a else a := by
  rw [automationRow, automationRow, written]
  exact find?_updateWhere _ fun a _ => kept a

theorem names_of_automationRow {a : Automation} (row : db.automationRow key = some a) :
    key.names a = true :=
  List.find?_some row

theorem own_of_owns {v : AutomationVersion} (owns : key.owns v = true) :
    v.automationId = key.automationId := by
  simp only [AutomationKey.owns, Bool.and_eq_true, beq_iff_eq] at owns
  exact owns.1.1

theorem newVersion_owns (key : AutomationKey) (id : UUID) (number : Int) (graph : Graph) :
    key.owns (newVersion key id number graph) = true := by
  simp [newVersion, AutomationKey.owns]

theorem create_absent {versionId : UUID} {allowReenroll : Bool}
    (call : db.create key versionId allowReenroll = .ok db') : db.automationRow key = none := by
  obtain ⟨absent, -⟩ := create_ok call
  refine List.find?_eq_none.mpr fun a member names => ?_
  simp only [AutomationKey.names, isAutomation, Bool.and_eq_true, beq_iff_eq] at names
  exact absent a member names.1.1

section

variable (tidy : Versioned key (db.automationRow key) db.versions log)

include tidy

variable {a : Automation} {versionId : UUID}

theorem create_versioned {allowReenroll : Bool}
    (call : db.create key versionId allowReenroll = .ok db')
    (unlogged : ∀ activation ∈ log, activation.versionId ≠ versionId) :
    Versioned key (db'.automationRow key) db'.versions log := by
  have absent := create_absent call
  obtain ⟨-, fresh, rfl⟩ := create_ok call
  have row : (db.automations ++ [newAutomation key versionId allowReenroll]).find? key.names =
      some (newAutomation key versionId allowReenroll) := by
    rw [List.find?_append, show db.automations.find? key.names = none from absent]
    simp [newAutomation, AutomationKey.names, isAutomation]
  have noVersion {P : AutomationVersion → Prop} :
      ∀ v ∈ db.versions, v.automationId = key.automationId → P v :=
    fun v member own => absurd own (tidy.absent absent v member)
  rw [automationRow, row]
  exact tidy.of_draft noVersion (by decide : (0 : Int) < 1 ∧ (1 : Int) < 2 ^ 31) fresh unlogged
    (newVersion_owns ..) rfl rfl nofun
    noVersion

omit tidy in
theorem updateGraph_ok {graph : Graph} (call : db.updateGraph key versionId graph = .ok db') :
    db' = { db with
      versions := updateWhere (graphEditable key versionId) (fun v => { v with graph })
        db.versions } := by
  simp only [updateGraph, bind_ok, permit_ok, Except.ok.injEq] at call
  obtain ⟨_, -, -, made⟩ := call
  exact made.symm

theorem updateGraph_versioned {graph : Graph}
    (call : db.updateGraph key versionId graph = .ok db') :
    Versioned key (db'.automationRow key) db'.versions log := by
  obtain rfl := updateGraph_ok call
  refine tidy.of_edit (fun v => ?_) (fun v settled => ?_)
  · split <;> exact ⟨rfl, rfl, rfl, rfl, rfl⟩
  · simp [graphEditable, settled]

theorem cloneVersion_versioned {newId : UUID}
    (row : db.automationRow key = some a) (call : db.cloneVersion key a newId = .ok db')
    (unlogged : ∀ activation ∈ log, activation.versionId ≠ newId) :
    Versioned key (db'.automationRow key) db'.versions log := by
  obtain ⟨live, noDraft, active, active_mem, pointer, owns, positive, fresh, written⟩ :=
    cloneVersion_ok call
  have names := names_of_automationRow row
  have row' : db'.automationRow key = some { a with draftVersionId := some newId } := by
    rw [automationRow_updateWhere (congrArg automations written) fun _ => rfl, row]
    simp [names, noDraft]
  have kept : Versioned key (some a) (db.keptVersions key) log := row ▸ tidy.of_filter _
  obtain ⟨bound, below⟩ :=
    kept.below_next live noDraft active_mem (own_of_owns owns) pointer positive
  rw [row', written]
  refine kept.of_draft below ⟨positive, bound⟩ fresh unlogged (newVersion_owns ..) rfl rfl ?_
    (kept.active a rfl)
  rw [pointer]
  exact fun same => fresh active active_mem (Option.some.inj same)

omit tidy in
/-- The number of a clone is free: pruning keeps the active version, and nothing is above it. -/
theorem cloneVersion_number_free {newId : UUID} (tidy : Versioned key (some a) db.versions log) :
    db.cloneVersion key a newId ≠
      .error (.sql (.uniqueViolation "automation_version_automation_id_number_key")) := by
  intro failed
  simp only [cloneVersion, bind, Except.bind, writeFence, pruneVersions] at failed
  split at failed; · cases failed
  next allowed =>
  simp only [not_or, Bool.not_eq_true, Option.isSome_eq_false_iff,
    Option.isNone_iff_eq_none] at allowed
  split at failed; · cases failed
  next activeId pointer =>
  split at failed
  · next fenced => split at fenced <;> cases fenced; cases failed
  split at failed
  · next pruned => split at pruned <;> cases pruned; cases failed
  next mid pruned =>
  split at pruned; · cases pruned
  obtain rfl := Except.ok.inj pruned
  split at failed; · cases failed
  split at failed; · cases failed
  next active found =>
  split at failed
  · next inserted =>
    obtain rfl := Except.error.inj failed
    simp only [insertVersion] at inserted
    split at inserted; · cases inserted
    next positive =>
    split at inserted; · simp at inserted
    split at inserted
    · next taken =>
      obtain ⟨v, member, clash⟩ := List.any_eq_true.mp taken
      simp only [newVersion, Bool.and_eq_true, beq_iff_eq] at clash
      have kept : Versioned key (some a) (db.keptVersions key) log := tidy.of_filter _
      obtain ⟨active_mem, isActive, owned⟩ := of_find?_key found
      have below := (kept.below_next allowed.1 allowed.2 active_mem (own_of_owns owned)
        (by rw [pointer, isActive]) (not_not.mp positive)).2 v member clash.1
      exact absurd clash.2 below.2.ne
    · cases inserted
  · split at failed <;> cases failed

omit tidy in
theorem activate_versioned {env : ServiceEnv} {log : List (Activation env.runtime)}
    {version : AutomationVersion} (tidy : Versioned key (db.automationRow key) db.versions log)
    (row : db.automationRow key = some a) (found : db.versionRow key version.id = some version)
    (call : db.activate env key a version version.id = .ok db')
    {activation : Activation env.runtime} (names : activation.versionId = version.id)
    (graph : activation.graph = version.graph) :
    Versioned key (db'.automationRow key) db'.versions (activation :: log) := by
  obtain ⟨live, points, -, -, identity, snapshot, written⟩ := activate_ok call
  have row' : db'.automationRow key = some (activatedAutomation version.id a) := by
    rw [automationRow_updateWhere (congrArg automations written) fun _ => rfl, row]
    simp [names_of_automationRow row]
  have chosen := List.find?_some found
  simp only [Bool.and_eq_true] at chosen
  rw [row] at tidy
  rw [row', written]
  exact tidy.of_activate live (List.mem_of_find?_eq_some found)
    (own_of_owns chosen.2) points identity
    snapshot names graph

theorem versioned_of_repointed (chosen : Automation → Bool) (change : Automation → Automation)
    (written : db'.automations = updateWhere chosen change db.automations)
    (versions : db'.versions = db.versions) (names : ∀ a, key.names (change a) = key.names a)
    (active : ∀ a, (change a).activeVersionId = a.activeVersionId) (draft : ∀ a, chosen a = true →
      ((change a).draftVersionId = a.draftVersionId ∧ a.status ≠ .archived) ∨
        ((change a).draftVersionId = none ∧ (change a).status = .archived)) :
    Versioned key (db'.automationRow key) db'.versions log := by
  rw [automationRow_updateWhere written names, versions]
  cases row : db.automationRow key with
  | none => simpa [row] using tidy
  | some a =>
    rw [row] at tidy
    rw [Option.map_some]
    split_ifs with here
    · exact tidy.of_pointers (active a) (draft a here)
    · exact tidy

theorem transition_versioned {before after : AutomationStatus} (live : before ≠ .archived) :
    let db' := db.transition key.automationId key.businessId key.tenantRootId before after
    Versioned key (db'.automationRow key) db'.versions log := by
  simp only [transition]
  split; · exact tidy
  split
  · refine versioned_of_repointed tidy (fun a => key.names a && a.status == before)
      (fun a => { a with status := after }) rfl rfl (fun _ => rfl) (fun _ => rfl) ?_
    intro a chosen
    simp only [Bool.and_eq_true, beq_iff_eq] at chosen
    exact .inl ⟨rfl, chosen.2 ▸ live⟩
  · exact tidy

theorem archive_versioned (now : Timestamp) :
    let db' := db.archive now key.automationId key.businessId key.tenantRootId
    Versioned key (db'.automationRow key) db'.versions log := by
  simp only [archive]
  split; · exact tidy
  split
  · exact versioned_of_repointed tidy (fun a => key.names a && a.status != .archived)
      (fun a => { a with status := .archived, draftVersionId := none }) rfl rfl (fun _ => rfl)
      (fun _ => rfl) fun _ _ => .inr ⟨rfl, rfl⟩
  · exact tidy

end

end Database

end Manyforge
