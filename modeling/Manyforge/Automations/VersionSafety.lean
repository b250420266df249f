import Manyforge.Automations.Lifecycle
import Manyforge.Automations.Stepper

/-!
# Safety of automation versions

Any number of sessions create, edit, clone, activate, pause, resume and archive one
automation at the same time. `CloneVersion`, `Activate`, `Pause`, `Resume` and
`Archive` lock the row of the automation until they commit, and `Activate` then locks
the row of the version; `PutGraph` reads without a lock and locks the row of the
version when it updates it. What a session writes is seen by the others when it
commits.
-/
namespace Manyforge

open Table Transition Database

/-- The calls that lock the automation first. -/
inductive LockedCall where
  | clone (newId : UUID)
  | activate (versionId : UUID)
  | pause
  | resume
  | archive (now : Timestamp)

/-- The permission a call asks for before it locks anything. -/
def LockedCall.permission (db : Database) (env : ServiceEnv) (key : AutomationKey) :
    LockedCall → Except ServiceError Unit
  | activate _ => db.requireSend env key
  | resume => db.requireSend env key
  | _ => .ok ()

/-- How far the transaction of a session is. -/
inductive Session where
  | idle
  /-- `PutGraph` passed its checks. -/
  | checked (versionId : UUID) (graph : Graph)
  /-- `PutGraph` updated the version and will commit. -/
  | updated (versionId : UUID) (graph : Graph)
  /-- The call holds the automation, whose row it read. -/
  | locked (call : LockedCall) (automation : Automation)
  /-- `Activate` also holds the version, whose row it read. -/
  | activating (automation : Automation) (version : AutomationVersion)

namespace Session

/-- The automation's row as the session read it under its lock. -/
def automation? : Session → Option Automation
  | locked _ automation => some automation
  | activating automation _ => some automation
  | _ => none

/-- The version whose row the session has locked. -/
def versionLock : Session → Option UUID
  | updated versionId _ => some versionId
  | activating _ version => some version.id
  | _ => none

theorem holds_of_locked {session : Session} {call : LockedCall} {a : Automation}
    (turn : session = .locked call a) : session.automation? = some a := by
  rw [turn]; rfl

theorem holds_of_activating {session : Session} {a : Automation} {v : AutomationVersion}
    (turn : session = .activating a v) : session.automation? = some a := by
  rw [turn]; rfl

end Session

open Session

structure LifecycleState (env : ServiceEnv) where
  db : Database
  sessions : Nat → Session
  /-- The activations so far, the latest first. -/
  log : List (Activation env.runtime)

/-- The activation that a successful call of `Activate` makes. -/
def Activation.ofCall {env : ServiceEnv} {key : AutomationKey} {db db' : Database}
    {automation : Automation} {version : AutomationVersion} {versionId : UUID}
    (call : db.activate env key automation version versionId = .ok db') : Activation env.runtime :=
  ⟨versionId, version.graph, db.tenantReferences env.runtime key version.graph,
    (activate_ok call).2.2.2.1⟩

namespace LifecycleState

variable {env : ServiceEnv} (s : LifecycleState env)

def enter (n : Nat) (session : Session) : LifecycleState env :=
  { s with sessions := Function.update s.sessions n session }

def commit (n : Nat) (db' : Database) : LifecycleState env :=
  { s.enter n .idle with db := db' }

def record (activation : Activation env.runtime) : LifecycleState env :=
  { s with log := activation :: s.log }

def versions (s : LifecycleState env) (key : AutomationKey) (status : VersionStatus) :
    List AutomationVersion :=
  s.db.versions.filter fun v => v.automationId == key.automationId && v.status == status

end LifecycleState

/-- The steps of the sessions. The id of a new version is `uuid.New()`, which no earlier activation
had. -/
inductive LifecycleStep (env : ServiceEnv) (key : AutomationKey) :
    LifecycleState env → LifecycleState env → Prop where
  | create {s : LifecycleState env} {db' : Database} (versionId : UUID) (allowReenroll : Bool)
      (call : s.db.create key versionId allowReenroll = .ok db')
      (new : ∀ activation ∈ s.log, activation.versionId ≠ versionId) :
      LifecycleStep env key s { s with db := db' }
  | check {s : LifecycleState env} (n : Nat) (versionId : UUID) (graph : Graph)
      (turn : s.sessions n = .idle) (passed : s.db.putGraphChecks key versionId = .ok ()) :
      LifecycleStep env key s (s.enter n (.checked versionId graph))
  -- The update waits for the lock of the row and looks at the row again when it has it.
  | update {s : LifecycleState env} (n : Nat) {versionId : UUID} {graph : Graph}
      (turn : s.sessions n = .checked versionId graph)
      (free : ∀ m, (s.sessions m).versionLock ≠ some versionId)
      (found : s.db.versions.any (graphEditable key versionId) = true) :
      LifecycleStep env key s (s.enter n (.updated versionId graph))
  | putGraph {s : LifecycleState env} {db' : Database} (n : Nat) {versionId : UUID} {graph : Graph}
      (turn : s.sessions n = .updated versionId graph)
      (call : s.db.updateGraph key versionId graph = .ok db') :
      LifecycleStep env key s (s.commit n db')
  | lock {s : LifecycleState env} (n : Nat) (call : LockedCall) {automation : Automation}
      (turn : s.sessions n = .idle) (permitted : call.permission s.db env key = .ok ())
      (free : ∀ m, (s.sessions m).automation? = none)
      (found : s.db.automationRow key = some automation) :
      LifecycleStep env key s (s.enter n (.locked call automation))
  | lockVersion {s : LifecycleState env} (n : Nat) {versionId : UUID} {automation : Automation}
      {version : AutomationVersion} (turn : s.sessions n = .locked (.activate versionId) automation)
      (free : ∀ m, (s.sessions m).versionLock ≠ some versionId)
      (found : s.db.versionRow key versionId = some version) :
      LifecycleStep env key s (s.enter n (.activating automation version))
  | clone {s : LifecycleState env} {db' : Database} (n : Nat) {newId : UUID}
      {automation : Automation} (turn : s.sessions n = .locked (.clone newId) automation)
      (call : s.db.cloneVersion key automation newId = .ok db')
      (new : ∀ activation ∈ s.log, activation.versionId ≠ newId) :
      LifecycleStep env key s (s.commit n db')
  | activate {s : LifecycleState env} {db' : Database} (n : Nat) {automation : Automation}
      {version : AutomationVersion} (turn : s.sessions n = .activating automation version)
      (call : s.db.activate env key automation version version.id = .ok db') :
      LifecycleStep env key s ((s.commit n db').record (.ofCall call))
  | pause {s : LifecycleState env} (n : Nat) {automation : Automation}
      (turn : s.sessions n = .locked .pause automation) :
      LifecycleStep env key s
        (s.commit n (s.db.pause key.automationId key.businessId key.tenantRootId))
  | resume {s : LifecycleState env} (n : Nat) {automation : Automation}
      (turn : s.sessions n = .locked .resume automation) :
      LifecycleStep env key s
        (s.commit n (s.db.resume key.automationId key.businessId key.tenantRootId))
  | archive {s : LifecycleState env} (n : Nat) {now : Timestamp} {automation : Automation}
      (turn : s.sessions n = .locked (.archive now) automation) :
      LifecycleStep env key s
        (s.commit n (s.db.archive now key.automationId key.businessId key.tenantRootId))
  -- An error, a crash or a lost connection rolls back.
  | abort {s : LifecycleState env} (n : Nat) : LifecycleStep env key s (s.enter n .idle)
  -- The rest of the program: enrollments, deliveries, subscribers, other automations.
  | other {s : LifecycleState env} (db' : Database)
      (automation : db'.automationRow key = s.db.automationRow key)
      (own : db'.versions.filter (fun v => v.automationId == key.automationId) =
        s.db.versions.filter fun v => v.automationId == key.automationId)
      (ids : UniqueOn (·.id) db'.versions) :
      LifecycleStep env key s { s with db := db' }

/-! ### The invariant -/

/-- The versions are in order, and a session that holds a lock knows the row as it is. -/
structure LifecycleInv {env : ServiceEnv} (key : AutomationKey) (s : LifecycleState env) :
    Prop where
  versioned : Versioned key (s.db.automationRow key) s.db.versions s.log
  current : ∀ n a, (s.sessions n).automation? = some a → s.db.automationRow key = some a
  holder : ∀ m n a b, (s.sessions m).automation? = some a → (s.sessions n).automation? = some b →
    m = n
  editor : ∀ m n id, (s.sessions m).versionLock = some id → (s.sessions n).versionLock = some id →
    m = n
  version : ∀ n a v, s.sessions n = .activating a v → s.db.versionRow key v.id = some v

namespace LifecycleInv

variable {env : ServiceEnv} {key : AutomationKey} {s : LifecycleState env}
  (inv : LifecycleInv key s)

include inv

/-- A session goes on: what it locks is free, and what it has read is so. -/
theorem entered (n : Nat) {session : Session}
    (current : ∀ a, session.automation? = some a → s.db.automationRow key = some a)
    (holder : ∀ m a b, session.automation? = some a → (s.sessions m).automation? = some b → m = n)
    (editor : ∀ m id, session.versionLock = some id → (s.sessions m).versionLock ≠ some id)
    (version : ∀ a v, session = .activating a v → s.db.versionRow key v.id = some v) :
    LifecycleInv key (s.enter n session) := by
  have either (m : Nat) : (m = n ∧ (s.enter n session).sessions m = session) ∨
      (s.enter n session).sessions m = s.sessions m := by
    rcases eq_or_ne m n with rfl | other
    · exact .inl ⟨rfl, Function.update_self ..⟩
    · exact .inr (Function.update_of_ne other ..)
  refine ⟨inv.versioned, fun m a holds => ?_, fun m m' a b first second =>
    ?_, fun m m' id first second => ?_, fun m a v here => ?_⟩
  · rcases either m with ⟨-, same⟩ | same <;> rw [same] at holds
    · exact current a holds
    · exact inv.current m a holds
  · rcases either m with ⟨rfl, same⟩ | same <;> rcases either m' with ⟨rfl, same'⟩ | same' <;>
      rw [same] at first <;> rw [same'] at second
    · exact (holder m' a b first second).symm
    · exact holder m b a second first
    · exact inv.holder m m' a b first second
  · rcases either m with ⟨rfl, same⟩ | same <;> rcases either m' with ⟨rfl, same'⟩ | same' <;>
      rw [same] at first <;> rw [same'] at second
    · exact absurd second (editor m' id first)
    · exact absurd first (editor m id second)
    · exact inv.editor m m' id first second
  · rcases either m with ⟨-, same⟩ | same <;> rw [same] at here
    · exact version a v here
    · exact inv.version m a v here

theorem enter_unlocked (n : Nat) {session : Session} (automation : session.automation? = none)
    (version : session.versionLock = none) : LifecycleInv key (s.enter n session) := by
  refine inv.entered n (by simp [automation]) (by simp [automation]) (by simp [version])
    fun a v here => ?_
  simp [here, automation?] at automation

/-- After a commit no session holds the automation, so that none relies on what was written. -/
theorem of_unheld {t : LifecycleState env}
    (versioned : Versioned key (t.db.automationRow key) t.db.versions t.log)
    (unheld : ∀ m, (t.sessions m).automation? = none)
    (locks : ∀ m id, (t.sessions m).versionLock = some id → (s.sessions m).versionLock = some id) :
    LifecycleInv key t where
  versioned := versioned
  current m a holds := by simp [unheld m] at holds
  holder m n a b holds := by simp [unheld m] at holds
  editor m n id first second := inv.editor m n id (locks m id first) (locks n id second)
  version m a v here := by simpa [here, automation?] using unheld m

theorem of_commit {n : Nat} {a : Automation} (holds : (s.sessions n).automation? = some a)
    {t : LifecycleState env} (sessions : t.sessions = Function.update s.sessions n .idle)
    (versioned : Versioned key (t.db.automationRow key) t.db.versions t.log) :
    LifecycleInv key t := by
  refine inv.of_unheld versioned (fun m => ?_) (fun m id => ?_) <;>
    rw [sessions, Function.update_apply] <;> split
  · rfl
  · next other =>
    cases held : (s.sessions m).automation? with
    | none => rfl
    | some b => exact absurd (inv.holder m n b a held holds) other
  · simp [versionLock]
  · exact fun locked => locked

theorem create {db' : Database} {versionId : UUID} {allowReenroll : Bool}
    (call : s.db.create key versionId allowReenroll = .ok db')
    (new : ∀ activation ∈ s.log, activation.versionId ≠ versionId) :
    LifecycleInv key { s with db := db' } := by
  refine inv.of_unheld (create_versioned inv.versioned call new) (fun m => ?_)
    (fun m id locked => locked)
  -- There is no row that a session could have locked.
  cases held : (s.sessions m).automation? with
  | none => rfl
  | some a =>
    have found := inv.current m a held
    rw [create_absent call] at found
    cases found

omit inv in
theorem versionRow_updateGraph {db db' : Database} {versionId id : UUID} {graph : Graph}
    (call : db.updateGraph key versionId graph = .ok db') (other : id ≠ versionId) :
    db'.versionRow key id = db.versionRow key id := by
  obtain rfl := updateGraph_ok call
  simp only [versionRow]
  rw [find?_updateWhere]
  · cases found : db.versions.find? fun v => v.id == id && key.owns v with
    | none => rfl
    | some v =>
      simp [graphEditable, (of_find?_key found).2.1, other]
  · intro v _
    rfl

theorem putGraph {db' : Database} {n : Nat} {versionId : UUID} {graph : Graph}
    (turn : s.sessions n = .updated versionId graph)
    (call : s.db.updateGraph key versionId graph = .ok db') :
    LifecycleInv key (s.commit n db') := by
  have ended : LifecycleInv key (s.enter n .idle) := inv.enter_unlocked n rfl rfl
  refine ⟨updateGraph_versioned inv.versioned call, fun m a holds => ?_, ended.holder,
    ended.editor, fun m a v here => ?_⟩
  · have found := ended.current m a holds
    obtain rfl := updateGraph_ok call
    exact found
  · have found := ended.version m a v here
    -- A session that activates this version would have to hold its lock.
    have other : v.id ≠ versionId := by
      rintro rfl
      simp only [LifecycleState.commit, LifecycleState.enter, Function.update_apply] at here
      split at here
      · cases here
      · next differs =>
        refine differs (inv.editor m n v.id ?_ ?_)
        · rw [here]; rfl
        · rw [turn]; rfl
    exact (versionRow_updateGraph call other).trans found

theorem other {db' : Database} (automation : db'.automationRow key = s.db.automationRow key)
    (own : db'.versions.filter (fun v => v.automationId == key.automationId) = s.db.versions.filter
      fun v => v.automationId == key.automationId)
    (ids : UniqueOn (·.id) db'.versions) : LifecycleInv key { s with db := db' } := by
  have row (db : Database) (id : UUID) : db.versionRow key id =
      (db.versions.filter fun v => v.automationId == key.automationId).find?
        fun v => v.id == id && key.owns v := by
    rw [versionRow, List.find?_filter]
    congr 1
    funext v
    cases owns : key.owns v with
    | false => simp
    | true => simp [own_of_owns owns, Bool.beq_eq_decide_eq]
  refine ⟨?_, ?_, inv.holder, inv.editor, fun n a v here => ?_⟩
  · show Versioned key (db'.automationRow key) db'.versions s.log
    rw [automation]
    refine inv.versioned.of_own ids fun v member here => ?_
    have among : v ∈ db'.versions.filter fun v => v.automationId == key.automationId := by
      simp [member, here]
    rw [own] at among
    exact (List.mem_filter.mp among).1
  · intro n a holds
    exact automation.trans (inv.current n a holds)
  · have found := inv.version n a v here
    rw [row] at found ⊢
    rw [← own] at found
    exact found

omit inv in
/-- Every call of the lifecycle keeps the invariant. -/
theorem preserved : Preserved (LifecycleStep env key) (LifecycleInv key) := by
  intro s t step inv
  cases step with
  | create versionId allowReenroll call new => exact inv.create call new
  | check n versionId graph turn passed | abort n => exact inv.enter_unlocked n rfl rfl
  | update n turn free found =>
    refine inv.entered n ?_ ?_ (fun m id locks => ?_) ?_
    · rintro _ ⟨⟩
    · rintro _ _ _ ⟨⟩
    · obtain rfl := Option.some.inj locks
      exact free m
    · rintro _ _ ⟨⟩
  | putGraph n turn call => exact inv.putGraph turn call
  | lock n call turn permitted free found =>
    refine inv.entered n ?_ (fun m _ b _ held => ?_) ?_ ?_
    · rintro _ ⟨⟩
      exact found
    · simp [free m] at held
    · rintro _ _ ⟨⟩
    · rintro _ _ ⟨⟩
  | lockVersion n turn free found =>
    obtain ⟨-, rfl, -⟩ := of_find?_key found
    have held := holds_of_locked turn
    refine inv.entered n (fun a holds => Option.some.inj holds ▸ inv.current n _ held)
      (fun m a b _ other => inv.holder m n b _ other held)
        (fun m id locks => Option.some.inj locks ▸ free m) ?_
    rintro _ _ ⟨⟩
    exact found
  | clone n turn call new =>
    have holds := holds_of_locked turn
    exact inv.of_commit holds rfl
      (cloneVersion_versioned inv.versioned (inv.current n _ holds) call new)
  | activate n turn call =>
    have holds := holds_of_activating turn
    exact inv.of_commit holds rfl (activate_versioned inv.versioned
      (inv.current n _ holds) (inv.version n _ _ turn) call rfl rfl)
  | pause n turn | resume n turn =>
    exact inv.of_commit (holds_of_locked turn) rfl
      (transition_versioned inv.versioned (by decide))
  | archive n turn =>
    exact inv.of_commit (holds_of_locked turn) rfl
      (archive_versioned inv.versioned _)
  | other db' automation own ids => exact inv.other automation own ids

/-! ### What follows in every state -/

theorem versions_length_le_one {status : VersionStatus}
    (same : ∀ v ∈ s.db.versions, ∀ w ∈ s.db.versions, v.automationId = key.automationId →
      w.automationId = key.automationId → v.status = status → w.status = status → v.id = w.id) :
    (s.versions key status).length ≤ 1 := by
  refine inv.versioned.ids.filter_length_le_one fun v v_mem w w_mem v_here w_here => ?_
  simp only [Bool.and_eq_true, beq_iff_eq] at v_here w_here
  exact same v v_mem w w_mem v_here.1 w_here.1 v_here.2 w_here.2

theorem active_le_one : (s.versions key .active).length ≤ 1 := by
  refine inv.versions_length_le_one fun v v_mem w w_mem v_own w_own v_active w_active => ?_
  cases row : s.db.automationRow key with
  | none => exact absurd v_own (inv.versioned.absent row v v_mem)
  | some a =>
    have v_points := (inv.versioned.active a row v v_mem v_own).mp v_active
    have w_points := (inv.versioned.active a row w w_mem w_own).mp w_active
    exact Option.some.inj (v_points.symm.trans w_points)

theorem draft_le_one : (s.versions key .draft).length ≤ 1 := by
  refine inv.versions_length_le_one fun v v_mem w w_mem v_own w_own v_draft w_draft => ?_
  by_contra differ
  have less := inv.versioned.newest v v_mem w w_mem v_own w_own v_draft (Ne.symm differ)
  have more := inv.versioned.newest w w_mem v v_mem w_own v_own w_draft differ
  exact lt_asymm less more

theorem numbers_nodup :
    UniqueOn (·.number) (s.db.versions.filter fun v => v.automationId == key.automationId) := by
  refine List.Nodup.map_on (fun v v_mem w w_mem same => ?_)
    (List.Nodup.filter _ (List.Nodup.of_map _ inv.versioned.ids))
  simp only [List.mem_filter, beq_iff_eq] at v_mem w_mem
  exact inv.versioned.ids.eq_of_key v_mem.1 w_mem.1
    (inv.versioned.numbers v v_mem.1 w w_mem.1 v_mem.2 w_mem.2 same)

theorem clone_number_free {n : Nat} {newId : UUID} {a : Automation}
    (turn : s.sessions n = .locked (.clone newId) a) :
    s.db.cloneVersion key a newId ≠
      .error (.sql (.uniqueViolation "automation_version_automation_id_number_key")) := by
  have found := inv.current n a (holds_of_locked turn)
  exact cloneVersion_number_free (found ▸ inv.versioned)

/-- A version still has the graph that it was activated with. -/
theorem graph_eq {v : AutomationVersion} (member : v ∈ s.db.versions)
    (own : v.automationId = key.automationId) {activation : Activation env.runtime}
    (logged : activation ∈ s.log) (names : activation.versionId = v.id) :
    v.graph = activation.graph := by
  have isSettled : v.status ≠ .draft := fun isDraft =>
    inv.versioned.unsettled v member own isDraft activation logged names
  obtain ⟨settled, settled_mem, same, graph⟩ := inv.versioned.settled v member own isSettled
  have eq : settled = activation :=
    List.inj_on_of_nodup_map inv.versioned.once settled_mem logged (same.trans names.symm)
  rw [← graph, eq]

end LifecycleInv

/-! ### What one step does to the log and to the versions -/

namespace LifecycleStep

variable {env : ServiceEnv} {key : AutomationKey} {s t : LifecycleState env}

theorem log_suffix (step : LifecycleStep env key s t) : s.log <:+ t.log := by
  cases step with
  | activate => exact List.suffix_cons _ _
  | _ => exact List.suffix_rfl

theorem transition_versions (db : Database) (automation business root : UUID)
    (before after : AutomationStatus) :
    (db.transition automation business root before after).versions = db.versions := by
  unfold transition
  split_ifs <;> rfl

theorem archive_versions (db : Database) (now : Timestamp) (automation business root : UUID) :
    (db.archive now automation business root).versions = db.versions := by
  unfold Database.archive
  split_ifs <;> rfl

theorem removed (step : LifecycleStep env key s t) (inv : LifecycleInv key s)
    {v : AutomationVersion} (member : v ∈ s.db.versions) (own : v.automationId = key.automationId)
    (gone : ∀ w ∈ t.db.versions, w.id ≠ v.id) :
    v.status = .superseded ∧ ∀ e ∈ s.db.enrollments, e.versionId ≠ v.id := by
  -- Every step but the clone leaves a row with the same id.
  cases step with
  | create versionId allowReenroll call new =>
    obtain ⟨-, -, rfl⟩ := create_ok call
    exact absurd rfl (gone v (List.mem_append_left _ member))
  | check | update | lock | lockVersion | abort => exact absurd rfl (gone v member)
  | putGraph n turn call =>
    obtain rfl := updateGraph_ok call
    refine absurd ?_ (gone _ (List.mem_map_of_mem member))
    split <;> rfl
  | clone n turn call new =>
    obtain ⟨-, -, active, -, -, -, -, -, rfl⟩ := cloneVersion_ok call
    have pruned : v.id ∈ s.db.prunedVersions key (maxAutomationVersions - 1) := by
      by_contra kept
      refine gone v (List.mem_append_left _ (List.mem_filter.mpr ⟨member, ?_⟩)) rfl
      simpa using kept
    have removable := pruned_removable inv.versioned.ids member pruned
    simp only [Database.removable, Bool.and_eq_true, beq_iff_eq] at removable
    exact ⟨removable.1.2, by simpa using removable.2⟩
  | activate n turn call =>
    obtain ⟨-, -, -, -, identity, snapshot, rfl⟩ := activate_ok call
    refine absurd ?_ (gone _ (List.mem_map_of_mem member))
    exact (activationRow_columns ..).1
  | pause | resume =>
    refine absurd rfl (gone v ?_)
    exact (transition_versions ..).symm ▸ member
  | archive =>
    refine absurd rfl (gone v ?_)
    exact (archive_versions ..).symm ▸ member
  | other db' automation same ids =>
    have among : v ∈ s.db.versions.filter fun v => v.automationId == key.automationId := by
      simp [member, own]
    rw [← same] at among
    exact absurd rfl (gone v (List.mem_filter.mp among).1)

end LifecycleStep

/-- **Safety of automation versions.** In every state of every run that starts before the automation
is created, at most one of its versions is active and at most one is a draft, no two have the same
number, the active version has the graph that its only activation validated, and a clone never fails
on the uniqueness of the number. A version that was active keeps its graph, and a step removes only
superseded versions that no enrollment refers to. -/
theorem version_safety (env : ServiceEnv) (key : AutomationKey) (start : LifecycleState env)
    (absent : start.db.automationRow key = none)
    (unowned : ∀ v ∈ start.db.versions, v.automationId ≠ key.automationId)
    (ids : UniqueOn (·.id) start.db.versions) (idle : ∀ n, start.sessions n = .idle)
    (unlogged : start.log = []) (visited : List (LifecycleState env))
    (run : Run (LifecycleStep env key) start visited) :
    (∀ s ∈ start :: visited,
      (s.versions key .active).length ≤ 1 ∧ (s.versions key .draft).length ≤ 1 ∧
      UniqueOn (·.number) (s.db.versions.filter fun v => v.automationId == key.automationId) ∧
      (s.log.map (·.versionId)).Nodup ∧
      (∀ v ∈ s.versions key .active,
        ∃ activation ∈ s.log, activation.versionId = v.id ∧ activation.graph = v.graph) ∧
      ∀ n newId a, s.sessions n = .locked (.clone newId) a →
        s.db.cloneVersion key a newId ≠
          .error (.sql (.uniqueViolation "automation_version_automation_id_number_key"))) ∧
    (start :: visited).Pairwise (fun s t => ∀ v ∈ s.versions key .active, ∀ w ∈ t.db.versions,
      w.automationId = key.automationId → w.id = v.id → w.graph = v.graph) ∧
    (start :: visited).IsChain (fun s t => ∀ v ∈ s.db.versions, v.automationId = key.automationId →
      (∀ w ∈ t.db.versions, w.id ≠ v.id) →
      v.status = .superseded ∧ ∀ e ∈ s.db.enrollments, e.versionId ≠ v.id) := by
  have begun : LifecycleInv key start := by
    refine ⟨?_, ?_, ?_, ?_, ?_⟩
    · rw [absent]
      constructor <;> simp_all
    all_goals simp [idle, automation?, versionLock]
  have invariant : ∀ s ∈ start :: visited, LifecycleInv key s := fun s member =>
    LifecycleInv.preserved.reaches (run.reaches s member) begun
  have active {s : LifecycleState env} (inv : LifecycleInv key s) {v : AutomationVersion}
      (member : v ∈ s.versions key .active) :
      ∃ activation ∈ s.log, activation.versionId = v.id ∧ activation.graph = v.graph := by
    simp only [LifecycleState.versions, List.mem_filter, Bool.and_eq_true, beq_iff_eq] at member
    exact inv.versioned.settled v member.1 member.2.1 (by simp [member.2.2])
  refine ⟨fun s member => ?_, ?_, ?_⟩
  · have inv := invariant s member
    exact ⟨inv.active_le_one, inv.draft_le_one, inv.numbers_nodup, inv.versioned.once,
      fun v here => active inv here, fun n newId a turn => inv.clone_number_free turn⟩
  · -- Logs only grow, so the activation of a version is still there later.
    have grows : (start :: visited).Pairwise fun s t => s.log <:+ t.log :=
      run.pairwise LifecycleInv.preserved (fun _ => List.suffix_rfl)
        (fun _ _ _ first second => first.trans second) (fun _ _ step _ => step.log_suffix) begun
    refine grows.imp_of_mem fun {s t} s_mem t_mem suffix v here w w_mem own same => ?_
    obtain ⟨activation, logged, names, graph⟩ := active (invariant s s_mem) here
    rw [← graph]
    exact (invariant t t_mem).graph_eq w_mem own (suffix.subset logged) (names.trans same.symm)
  · exact run.isChain LifecycleInv.preserved
      (fun _ _ step inv _ member own gone => step.removed inv member own gone) begun

namespace Sample

def serviceEnv : ServiceEnv where
  runtime := runtime
  uuidText _ := "list"
  toLower := id
  permitted := true
  snapshotBytes _ := 100

def onboarding : AutomationKey := ⟨100, 1, 1⟩

/-- The database after a call of the service. -/
def servedBy (db : Database) : Except ServiceError Database → Database
  | .ok db' => db'
  | .error _ => db

theorem eq_ok_of_served (db : Database) {call : Except ServiceError Database}
    (served : call.isOk = true) : call = .ok (servedBy db call) := by
  cases call with
  | error => cases served
  | ok => rfl

def unborn : LifecycleState serviceEnv := ⟨database, fun _ => .idle, []⟩

def born : LifecycleState serviceEnv :=
  { unborn with db := servedBy database (database.create onboarding 101 false) }

def checked : LifecycleState serviceEnv := born.enter 0 (.checked 101 graph)

def updated : LifecycleState serviceEnv := checked.enter 0 (.updated 101 graph)

def edited : LifecycleState serviceEnv :=
  updated.commit 0 (servedBy born.db (born.db.updateGraph onboarding 101 graph))

def automation : Automation := (edited.db.automationRow onboarding).get (by decide)

def version : AutomationVersion := (edited.db.versionRow onboarding 101).get (by decide)

def locked : LifecycleState serviceEnv := edited.enter 0 (.locked (.activate 101) automation)

def activating : LifecycleState serviceEnv := locked.enter 0 (.activating automation version)

theorem activated :
    (activating.db.activate serviceEnv onboarding automation version version.id).isOk = true := by
  decide

def live : LifecycleState serviceEnv :=
  (activating.commit 0 (servedBy edited.db
    (activating.db.activate serviceEnv onboarding automation version version.id))).record
      (.ofCall (eq_ok_of_served edited.db activated))

def liveAutomation : Automation := (live.db.automationRow onboarding).get (by decide)

def cloning : LifecycleState serviceEnv := live.enter 1 (.locked (.clone 102) liveAutomation)

def cloned : LifecycleState serviceEnv :=
  cloning.commit 1 (servedBy live.db (live.db.cloneVersion onboarding liveAutomation 102))

theorem onboarding_run : Run (LifecycleStep serviceEnv onboarding) unborn
    [born, checked, updated, edited, locked, activating, live, cloning, cloned] := by
  have idle : ∀ m, edited.sessions m = .idle := by
    intro m
    simp [edited, updated, checked, born, unborn, LifecycleState.commit, LifecycleState.enter]
  have later : ∀ m, live.sessions m = .idle := by
    intro m
    simp only [live, activating, locked, LifecycleState.record, LifecycleState.commit,
      LifecycleState.enter, Function.update_apply, idle]
    split <;> rfl
  refine .cons_cons ?_ <| .cons_cons ?_ <| .cons_cons ?_ <| .cons_cons ?_ <| .cons_cons ?_ <|
    .cons_cons ?_ <| .cons_cons ?_ <| .cons_cons ?_ <| .cons_cons ?_ <| .singleton _
  · exact .create 101 false (eq_ok_of_served _ (by decide)) (by simp [unborn])
  · exact .check 0 101 graph rfl rfl
  · refine .update 0 rfl (fun m => ?_) (by decide)
    simp only [checked, born, unborn, LifecycleState.enter, Function.update_apply]
    split <;> simp [versionLock]
  · exact .putGraph 0 rfl (eq_ok_of_served _ (by decide))
  · exact .lock 0 (.activate 101) rfl rfl (fun m => by rw [idle]; rfl) (by simp [automation])
  · refine .lockVersion 0 rfl (fun m => ?_) (by simp [version, locked, LifecycleState.enter])
    simp only [locked, LifecycleState.enter, Function.update_apply, idle]
    split <;> simp [versionLock]
  · exact .activate 0 rfl (eq_ok_of_served _ activated)
  · exact .lock 1 (.clone 102) (later 1) rfl (fun m => by rw [later]; rfl)
      (by simp [liveAutomation])
  · exact .clone 1 rfl (eq_ok_of_served _ (by decide)) (by decide)

/-- An automation is created, edited, activated and cloned: the active version keeps its graph. -/
theorem version_safety_cloned :
    (live.versions onboarding .active).map (·.id) = [101] ∧
    (cloned.versions onboarding .draft).map (fun v => (v.id, v.number)) = [(102, 2)] ∧
    (cloned.versions onboarding .active).length ≤ 1 ∧
    (∀ v ∈ live.versions onboarding .active, ∀ w ∈ cloned.db.versions,
      w.automationId = 100 → w.id = v.id → w.graph = v.graph) :=
  have safe := version_safety serviceEnv onboarding unborn (by decide) (by decide) (by decide)
    (fun _ => rfl) rfl _ onboarding_run
  ⟨by decide, by decide, (safe.1 cloned (by simp)).1, by
    have pairs := safe.2.1
    simp only [List.pairwise_cons] at pairs
    exact pairs.2.2.2.2.2.2.2.1 cloned (by simp)⟩

end Sample

end Manyforge
