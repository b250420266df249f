import Manyforge.Automations.EventIngest
import Manyforge.Lib.Calls

/-!
# One event per idempotency key

What is to hold of the calls that are answered and of the rows they leave, and that it holds in
every run.
-/
namespace Manyforge.Ingress

open Table Transition Calls

/-- The call has passed the checks: the insert is done, or has met a conflict. -/
def Stage.passed : Stage → Bool
  | .inserted .. | .reread | .found _ => true
  | .resolve .. | .fence | .ingress | .list | .subscriber | .insert .. => false

namespace Ingesting

/-- The outbox entries since the start for an event. -/
def notices (before : EventDb) (s : Ingesting) (eventId : UUID) : Nat :=
  (s.db.outbox.drop before.outbox.length).countP (·.eventId == eventId)

/-- The state of the tables and the answers given so far. -/
structure Idempotent (before : EventDb) (s : Ingesting) : Prop where
  /-- All calls under one key that succeed were the same request and got the same event. -/
  same : ∀ a ∈ s.log, ∀ b ∈ s.log, ∀ v w, a.outcome = .ok v → b.outcome = .ok w →
    a.request.key = b.request.key →
    v.id = w.id ∧ a.request.requestFingerprint = b.request.requestFingerprint
  /-- There is one row for them, and one outbox entry unless the row was there before. -/
  one : ∀ a ∈ s.log, ∀ v, a.outcome = .ok v →
    ∃ row ∈ s.db.events, row.id = v.id ∧ row.key = a.request.key ∧
    (∀ other ∈ s.db.events, other.key = a.request.key → other = row) ∧
    notices before s v.id = if row ∈ before.events then 0 else 1
  apart : ∀ a ∈ s.log, ∀ b ∈ s.log, ∀ v w, a.outcome = .ok v → b.outcome = .ok w →
    a.request.key ≠ b.request.key → v.id ≠ w.id

variable (rt : Runtime) (tenantOf : UUID → UUID)

/-- What a step of a transaction answers. -/
structure Answers (s : Ingesting) (tx : Tx) (outcome : Except EventError View) : Prop where
  /-- A failed call changes nothing. -/
  failed : ∀ e, outcome = .error e →
    (s.advance rt tx).db.events = s.db.events ∧ (s.advance rt tx).db.outbox = s.db.outbox
  /-- Once the checks are passed, a row with the key decides: the same request gets its event,
  another one a conflict. -/
  decided : tx.stage.passed = true → ∀ row ∈ s.db.events, row.key = tx.request.key →
    if row.requestFingerprint = tx.request.requestFingerprint then outcome = .ok (row.view false)
    else outcome = .error .conflict
  /-- Without such a row it is created. -/
  creates : tx.stage.passed = true → (∀ row ∈ s.db.events, row.key ≠ tx.request.key) →
    ∃ row listId, outcome = .ok (row.view true) ∧ row.key = tx.request.key ∧
      (s.advance rt tx).db.events = s.db.events ++ [row] ∧
      (s.advance rt tx).db.outbox = s.db.outbox ++ [tx.notice row listId]

def Answered (s : Ingesting) (action : Action) : Prop :=
  ∀ id tx outcome, action = .advance id → s.open_.find? (·.id == id) = some tx →
    (s.advance rt tx).log = s.log ++ [⟨tx.request, outcome⟩] → Answers rt s tx outcome

end Ingesting

/-! ### Statements -/

variable {rt : Runtime} {tenantOf : UUID → UUID} {db : EventDb} {tx : Tx}

/-- What a transaction has found out about its key. -/
def Stage.Ok (events : List EventRow) (key : Option IndexKey) : Stage → Prop
  | .inserted .. => ∀ row ∈ events, row.key ≠ key
  | .reread => ∃ row ∈ events, row.key = key
  | .found row => row ∈ events ∧ row.key = key
  | .resolve .. | .fence | .ingress | .list | .subscriber | .insert .. => True

structure Tx.Ok (tenantOf : UUID → UUID) (db : EventDb) (tx : Tx) : Prop where
  tenant : tx.request.tenantRootId = tenantOf tx.request.businessId
  fingerprint : tx.request.requestFingerprint.isSome = true
  keyed : ∃ key, tx.request.key = some key
  stage : tx.stage.Ok db.events tx.request.key

theorem Tx.Ok.moved (ok : tx.Ok tenantOf db) {stage : Stage}
    (holds : stage.Ok db.events tx.request.key) :
    Tx.Ok tenantOf db { tx with stage } := ⟨ok.tenant, ok.fingerprint, ok.keyed, holds⟩

/-- What the reply to a statement says. -/
def Tx.Replied (tenantOf : UUID → UUID) (db : EventDb) (tx : Tx) : Tx.Reply → Prop
  | .goOn wanted tx' => tx'.id = tx.id ∧ tx'.Ok tenantOf db ∧ ∀ key ∈ tx'.locks, key ∈ wanted
  | .commit db' view =>
    (∃ row, tx.stage = .found row ∧ row ∈ db.events ∧ row.key = tx.request.key ∧
        row.requestFingerprint = tx.request.requestFingerprint ∧ db' = db ∧ view = row.view false) ∨
      ∃ row listId email, tx.stage = .inserted listId email ∧
        (∀ old ∈ db.events, old.key ≠ tx.request.key) ∧
        row = tx.row (freshKey (db.events.map EventRow.id)) email ∧ view = row.view true ∧
        db' = { db with events := db.events ++ [row], outbox := db.outbox ++ [tx.notice row listId] }
  | .rollback e =>
    tx.stage.passed = true → e = .conflict ∧ ∃ row, tx.stage = .found row ∧ row ∈ db.events ∧
      row.key = tx.request.key ∧ row.requestFingerprint ≠ tx.request.requestFingerprint

theorem Tx.Ok.replied (ok : tx.Ok tenantOf db)
    (tenants : ∀ row ∈ db.events, row.tenantRootId = tenantOf row.businessId) :
    tx.Replied tenantOf db (tx.statement rt db) := by
  have holds := ok.stage
  obtain ⟨key, isKey⟩ := ok.keyed
  have refused (early : tx.stage.passed = false) (e : EventError) :
      tx.Replied tenantOf db (.rollback e) := by
    intro passed
    rw [early] at passed
    cases passed
  unfold Tx.statement
  cases isStage : tx.stage with
  | resolve p listId subscriberId =>
    simp only
    split
    next => exact refused (by rw [isStage]; rfl) _
    next email _ =>
    have sameKey : Request.key
        { tx.request with email, requestFingerprint := some (rt.eventRequestFingerprint
        { p with email := some email }) } = tx.request.key := by
      simp [Request.key, Request.ingressListId, ok.fingerprint]
    exact ⟨rfl, ⟨ok.tenant, rfl, ⟨key, sameKey.trans isKey⟩, trivial⟩, by simp [Tx.locks]⟩
  | fence | ingress | list =>
    simp only
    split
    next => exact ⟨rfl, ok.moved trivial, by simp [Tx.locks]⟩
    next => exact refused (by rw [isStage]; rfl) _
  | subscriber =>
    simp only
    split
    next => exact refused (by rw [isStage]; rfl) _
    next =>
    split
    next => exact refused (by rw [isStage]; rfl) _
    next => exact ⟨rfl, ok.moved trivial, by simp [Tx.locks]⟩
  | insert listId email =>
    simp only
    split
    next =>
      refine ⟨rfl, ok.moved ?_, ?_⟩
      · split
        next taken =>
          obtain ⟨row, isRow, sameKey⟩ := List.mem_map.mp taken.2
          exact ⟨row, isRow, sameKey⟩
        next free =>
          intro row isRow sameKey
          exact free ⟨by simp [isKey], sameKey ▸ List.mem_map_of_mem isRow⟩
      · split
        · simp [Tx.locks]
        · simp [Tx.locks]
    next => exact refused (by rw [isStage]; rfl) _
  | inserted listId email =>
    rw [isStage] at holds
    simp only [Tx.finish]
    split
    next => exact .inr ⟨_, listId, email, isStage, holds, rfl, rfl, rfl⟩
    next differs => exact absurd rfl differs
  | reread =>
    rw [isStage] at holds
    simp only
    split
    next none_found =>
      -- The row is there, and it is in the tenant of its business.
      obtain ⟨row, isRow, sameKey⟩ := holds
      refine absurd ?_ (List.find?_eq_none.mp none_found row isRow)
      have sameBusiness : row.businessId = tx.request.businessId := by
        have rowKey := sameKey.trans isKey
        simp only [EventRow.key, Request.key, Option.map_eq_some_iff] at rowKey isKey
        obtain ⟨_, -, rfl⟩ := rowKey
        obtain ⟨_, -, isKey⟩ := isKey
        exact (congrArg IndexKey.businessId isKey).symm
      simp [sameKey, tenants row isRow, ok.tenant, sameBusiness]
    next row found =>
    obtain ⟨isRow, -, sameKey⟩ := of_find?_keys found
    exact ⟨rfl, ok.moved ⟨isRow, sameKey⟩, by simp [Tx.locks]⟩
  | found row =>
    rw [isStage] at holds
    simp only [Tx.finish]
    split
    next same => exact .inl ⟨row, isStage, holds.1, holds.2, same, rfl, rfl⟩
    next differs => exact fun _ => ⟨rfl, row, isStage, holds.1, holds.2, differs⟩

/-! ### Runs -/

/-- A call that got an event has its row. -/
def Answer.Recorded (events : List EventRow) (a : Answer) : Prop :=
  ∀ v, a.outcome = .ok v → ∃ key, a.request.key = some key ∧
    ∃ row ∈ events, row.id = v.id ∧ row.key = some key ∧
      row.requestFingerprint = a.request.requestFingerprint

namespace Ingesting

variable {before : EventDb} {s : Ingesting}

/-- The keys of the table, and that a business is in one tenant. -/
structure Consistent (tenantOf : UUID → UUID) (events : List EventRow) : Prop where
  index : UniqueSome EventRow.key events
  ids : UniqueOn EventRow.id events
  tenants : ∀ row ∈ events, row.tenantRootId = tenantOf row.businessId

structure Inv (tenantOf : UUID → UUID) (before : EventDb) (s : Ingesting) : Prop where
  consistent : Consistent tenantOf s.db.events
  names : UniqueOn Tx.id s.open_
  exclusive : Locks.Exclusive Tx.id Tx.locks s.open_
  txs : ∀ tx ∈ s.open_, tx.Ok tenantOf s.db
  events : ∀ row ∈ before.events, row ∈ s.db.events
  outbox : before.outbox.length ≤ s.db.outbox.length
  noticed : ∀ n ∈ s.db.outbox.drop before.outbox.length, ∃ row ∈ s.db.events, row.id = n.eventId
  notices : ∀ row ∈ s.db.events, Ingesting.notices before s row.id = if row ∈ before.events then
    0 else 1
  returned : ∀ a ∈ s.log, a.Recorded s.db.events

section

variable (inv : Inv tenantOf before s)

include inv

theorem Inv.idempotent : Idempotent before s := by
  refine ⟨?_, ?_, ?_⟩
  · intro a isAnswer b isAnswer' v w ok ok' sameKey
    obtain ⟨key, isKey, row, isRow, isId, rowKey, fingerprint⟩ := inv.returned a isAnswer v ok
    obtain ⟨key', isKey', row', isRow', isId', rowKey', fingerprint'⟩ := inv.returned b isAnswer' w ok'
    obtain rfl : key = key' := Option.some.inj (isKey.symm.trans (sameKey.trans isKey'))
    obtain rfl := inv.consistent.index.eq_of_key isRow isRow' rowKey rowKey'
    exact ⟨isId.symm.trans isId', fingerprint.symm.trans fingerprint'⟩
  · intro a isAnswer v ok
    obtain ⟨key, isKey, row, isRow, isId, rowKey, -⟩ := inv.returned a isAnswer v ok
    refine ⟨row, isRow, isId, rowKey.trans isKey.symm, ?_, isId ▸ inv.notices row isRow⟩
    intro other isOther otherKey
    exact inv.consistent.index.eq_of_key isOther isRow (otherKey.trans isKey) rowKey
  · intro a isAnswer b isAnswer' v w ok ok' differ sameId
    obtain ⟨key, isKey, row, isRow, isId, rowKey, -⟩ := inv.returned a isAnswer v ok
    obtain ⟨key', isKey', row', isRow', isId', rowKey', -⟩ := inv.returned b isAnswer' w ok'
    obtain rfl := inv.consistent.ids.eq_of_key isRow isRow' (isId.trans (sameId.trans isId'.symm))
    exact differ (isKey.trans (rowKey.symm.trans (rowKey'.trans isKey'.symm)))

theorem Inv.same_tables {s' : Ingesting} (events : s'.db.events = s.db.events)
    (outbox : s'.db.outbox = s.db.outbox) (names : UniqueOn Tx.id s'.open_)
    (exclusive : Locks.Exclusive Tx.id Tx.locks s'.open_)
    (txs : ∀ tx ∈ s'.open_, tx.Ok tenantOf s.db) (returned : ∀ a ∈ s'.log, a.Recorded s.db.events) :
    Inv tenantOf before s' := by
  have consistent := inv.consistent
  have kept := inv.events
  have noticed := inv.noticed
  have notices := inv.notices
  have length := inv.outbox
  simp only [Ingesting.notices, ← events,
    ← outbox] at consistent kept noticed notices length returned txs
  have txs' (tx : Tx) (isOpen : tx ∈ s'.open_) : tx.Ok tenantOf s'.db := by
    obtain ⟨tenant, fingerprint, keyed, stage⟩ := txs tx isOpen
    exact ⟨tenant, fingerprint, keyed, events ▸ stage⟩
  exact ⟨consistent, names, exclusive, txs', kept, length, noticed, notices, returned⟩

theorem names_close (id : UUID) : UniqueOn Tx.id (s.close id) := inv.names.filter _

theorem exclusive_close (id : UUID) : Locks.Exclusive Tx.id Tx.locks (s.close id) :=
  inv.exclusive.of_subset fun _ isOpen => (List.mem_filter.mp isOpen).1

theorem txs_close (id : UUID) : ∀ tx ∈ s.close id, tx.Ok tenantOf s.db :=
  fun tx isOpen => inv.txs tx (List.mem_filter.mp isOpen).1

theorem Inv.closed (id : UUID) {answers : List Answer}
    (returned : ∀ a ∈ answers, a.Recorded s.db.events) :
    Inv tenantOf before ⟨s.db, s.close id, s.log ++ answers⟩ := by
  refine inv.same_tables rfl rfl (names_close inv id) (exclusive_close inv id) (txs_close inv id) ?_
  intro a isAnswer
  rcases List.mem_append.mp isAnswer with old | new
  · exact inv.returned a old
  · exact returned a new

theorem Inv.call (businessId listId keyId : UUID) (raw : String) (started now : Timestamp) :
    Inv tenantOf before (s.call rt tenantOf businessId listId keyId raw started now) := by
  simp only [Ingesting.call]
  split
  next => exact inv
  next p prepared =>
  have keyed : ∃ key, p.idempotencyKey = some key := by
    simp only [prepare] at prepared
    split at prepared
    next => cases prepared
    split at prepared
    next => cases prepared
    obtain ⟨isSome, same⟩ := refuse_ok.mp prepared
    obtain rfl := Except.ok.inj same
    exact Option.ne_none_iff_exists'.mp (by simpa using isSome)
  obtain ⟨key, isKey⟩ := keyed
  have ok (id : UUID) {stage : Stage}
      (silent : stage.Ok s.db.events (request rt tenantOf businessId listId keyId p).key) :
      Tx.Ok tenantOf s.db ⟨id, started, request rt tenantOf businessId listId keyId p, stage⟩ :=
    ⟨rfl, rfl, ⟨_, by simp [Request.key, request, isKey]; rfl⟩, silent⟩
  refine inv.same_tables rfl rfl (inv.names.append_freshKey rfl) ?_ ?_ inv.returned
  · refine inv.exclusive.begun ?_
    cases p.subscriberId with
    | none | some id => simp [Tx.locks]
  · refine forall_inserted inv.txs ?_
    cases p.subscriberId with
    | none | some id => exact ok _ trivial

section

variable (isOpen : tx ∈ s.open_)

include isOpen

theorem Inv.replied : tx.Replied tenantOf s.db (tx.statement rt s.db) :=
  (inv.txs tx isOpen).replied inv.consistent.tenants

theorem Inv.goOn {tx' : Tx} {wanted : List IndexKey}
    (reply : tx.statement rt s.db = .goOn wanted tx')
    (free : wanted.all (Locks.free Tx.id Tx.locks s.open_ tx.id) = true) :
    Inv tenantOf before { s with open_ := updateWhere (·.id == tx.id) (fun _ => tx') s.open_ } := by
  obtain ⟨sameId, ok, gains⟩ : tx.Replied tenantOf s.db (.goOn wanted tx') :=
    reply ▸ inv.replied isOpen
  refine inv.same_tables rfl rfl ?_ ?_ ?_ inv.returned
  · refine inv.names.updateWhere fun other isOwn => ?_
    rw [sameId]
    exact (beq_iff_eq.mp isOwn).symm
  · refine inv.exclusive.advanced isOpen fun key held => .inr ?_
    exact Locks.free_iff.mp (List.all_eq_true.mp free key (gains key held))
  · exact Locks.forall_advanced (fun other isOther _ => inv.txs other isOther) ok

theorem Inv.inserted {listId : Option UUID} {email : String}
    (isStage : tx.stage = .inserted listId email)
    {row : EventRow} (isRow : row = tx.row (freshKey (s.db.events.map EventRow.id)) email) :
    Inv tenantOf before
      ⟨{ s.db with events := s.db.events ++ [row], outbox :=
        s.db.outbox ++ [tx.notice row listId] }, s.close tx.id,
        s.log ++ [⟨tx.request, .ok (row.view true)⟩]⟩ := by
  have ok := inv.txs tx isOpen
  obtain ⟨key, isKey⟩ := ok.keyed
  have unused : ∀ old ∈ s.db.events, old.key ≠ some key := by
    have holds := ok.stage
    rw [isStage, isKey] at holds
    exact holds
  have rowKey : row.key = some key := by rw [isRow, ← isKey]; rfl
  have generated : row.id = freshKey (s.db.events.map EventRow.id) := by rw [isRow]; rfl
  have isNew : ∀ old ∈ s.db.events, old.id ≠ row.id := by
    intro old isOld
    rw [generated]
    exact (lt_freshKey (List.mem_map_of_mem isOld)).ne
  have sent : (s.db.outbox ++ [tx.notice row listId]).drop before.outbox.length =
      s.db.outbox.drop before.outbox.length ++ [tx.notice row listId] :=
    List.drop_append_of_le_length inv.outbox
  refine ⟨⟨?_, ?_, ?_⟩, names_close inv _, exclusive_close inv _, ?_, ?_, ?_, ?_, ?_, ?_⟩
  · refine inv.consistent.index.append fun k isRowKey old isOld => ?_
    obtain rfl : key = k := Option.some.inj (rowKey.symm.trans isRowKey)
    exact unused old isOld
  · exact inv.consistent.ids.append_freshKey generated
  · refine forall_inserted inv.consistent.tenants ?_
    rw [isRow]
    exact ok.tenant
  · -- Nobody else has an entry under this key, so what the others have found out still holds.
    intro other isOther
    obtain ⟨isOther, differs⟩ := List.mem_filter.mp isOther
    obtain ⟨tenant, fingerprint, keyed, stage⟩ := inv.txs other isOther
    refine ⟨tenant, fingerprint, keyed, ?_⟩
    cases otherStage : other.stage with
    | resolve p listId subscriberId | fence | ingress | list | subscriber | insert listId email => trivial
    | inserted listId' email' =>
      rw [otherStage] at stage
      refine forall_inserted stage ?_
      have held : key ∈ tx.locks := by simp [Tx.locks, isStage, isKey]
      have notHeld := inv.exclusive.apart isOpen isOther (by simpa using differs) held
      rw [rowKey]
      simpa [Tx.locks, otherStage, eq_comm] using notHeld
    | reread =>
      rw [otherStage] at stage
      obtain ⟨old, isOld, sameKey⟩ := stage
      exact ⟨old, List.mem_append_left _ isOld, sameKey⟩
    | found old =>
      rw [otherStage] at stage
      exact ⟨List.mem_append_left _ stage.1, stage.2⟩
  · exact fun old isOld => List.mem_append_left _ (inv.events old isOld)
  · rw [List.length_append]
    exact inv.outbox.trans (Nat.le_add_right _ _)
  · rw [sent]
    refine forall_inserted (fun n isNotice => ?_) ⟨row, by simp, rfl⟩
    obtain ⟨old, isOld, isId⟩ := inv.noticed n isNotice
    exact ⟨old, List.mem_append_left _ isOld, isId⟩
  · simp only [Ingesting.notices, sent, List.countP_append, List.countP_singleton]
    refine forall_inserted (fun old isOld => ?_) ?_
    · have other : ((tx.notice row listId).eventId == old.id) = false := by
        simpa [Tx.notice] using (isNew old isOld).symm
      simpa [other, Ingesting.notices] using inv.notices old isOld
    · have none_before : row ∉ before.events := fun isBefore => isNew row (inv.events row isBefore) rfl
      have none_sent : (s.db.outbox.drop before.outbox.length).countP (·.eventId == row.id) = 0 := by
        rw [List.countP_eq_zero]
        intro n isNotice same
        obtain ⟨old, isOld, isId⟩ := inv.noticed n isNotice
        exact isNew old isOld (isId.trans (by simpa using same))
      simp [none_before, none_sent, Tx.notice]
  · refine forall_inserted (fun a isAnswer v ok => ?_) ?_
    · obtain ⟨k, isKey, old, isOld, rest⟩ := inv.returned a isAnswer v ok
      exact ⟨k, isKey, old, List.mem_append_left _ isOld, rest⟩
    · rintro v ⟨⟩
      exact ⟨key, isKey, row, by simp, rfl, rowKey, by rw [isRow]; rfl⟩

/-- One statement of an open transaction keeps the invariant. -/
theorem Inv.advance : Inv tenantOf before (s.advance rt tx) := by
  have replied : tx.Replied tenantOf s.db (tx.statement rt s.db) := inv.replied isOpen
  simp only [Ingesting.advance]
  split
  next wanted tx' reply =>
    split
    next free => exact inv.goOn isOpen reply free
    next => exact inv
  next db view reply =>
    rw [reply] at replied
    rcases replied with
      ⟨row, -, isRow, rowKey, fingerprint, rfl, rfl⟩ | ⟨row, listId, email, isStage, -, isRow, rfl, rfl⟩
    · obtain ⟨key, isKey⟩ := (inv.txs tx isOpen).keyed
      refine inv.closed tx.id ?_
      simp only [List.mem_singleton, forall_eq]
      rintro v ⟨⟩
      exact ⟨key, isKey, row, isRow, rfl, rowKey.trans isKey, fingerprint⟩
    · exact inv.inserted isOpen isStage isRow
  next e reply => exact inv.closed tx.id (by simp [Answer.Recorded])

end

theorem Inv.next (action : Action) : Inv tenantOf before (Ingesting.next rt tenantOf s action) := by
  cases action with
  | call businessId listId keyId raw started now =>
    exact inv.call businessId listId keyId raw started now
  | advance id =>
    simp only [Ingesting.next]
    split
    next => exact inv
    next tx found => exact inv.advance (List.mem_of_find?_eq_some found)
  | abort id =>
    have same := inv.closed id (List.forall_mem_nil _)
    rw [List.append_nil] at same
    exact same
  | others directory =>
    exact inv.same_tables rfl rfl inv.names inv.exclusive inv.txs inv.returned

/-- A row with the key decides the answer, and a failed call changes nothing. -/
theorem Inv.answered (action : Action) : Answered rt s action := by
  intro id tx outcome _ found logged
  have isOpen := List.mem_of_find?_eq_some found
  obtain ⟨key, isKey⟩ := (inv.txs tx isOpen).keyed
  have decides {row other : EventRow} (isRow : row ∈ s.db.events) (rowKey : row.key = tx.request.key)
      (isOther : other ∈ s.db.events) (sameKey : other.key = tx.request.key) : other = row :=
    inv.consistent.index.eq_of_key isOther isRow (sameKey.trans isKey) (rowKey.trans isKey)
  have replied : tx.Replied tenantOf s.db (tx.statement rt s.db) := inv.replied isOpen
  simp only [Ingesting.advance] at logged
  split at logged
  next wanted tx' reply =>
    exfalso
    split at logged
    · simp at logged
    · simp at logged
  next db view reply =>
    obtain rfl : outcome = .ok view := by simpa [eq_comm] using logged
    have after : s.advance rt tx = ⟨db, s.close tx.id, s.log ++ [⟨tx.request, .ok view⟩]⟩ := by
      simp only [Ingesting.advance, reply]
    rw [reply] at replied
    rcases replied with
      ⟨row, isStage, isRow, rowKey, fingerprint, rfl, rfl⟩ | ⟨row, listId, email, isStage, unused,
        isRow, rfl, rfl⟩
    · refine ⟨by simp, fun _ other isOther sameKey => ?_, fun _ unused =>
        absurd rowKey (unused row isRow)⟩
      obtain rfl := decides isRow rowKey isOther sameKey
      rw [if_pos fingerprint]
    · refine ⟨by simp, fun _ other isOther sameKey =>
        absurd sameKey (unused other isOther), fun _ _ => ?_⟩
      exact ⟨row, listId, rfl, by rw [isRow]; rfl, by rw [after], by rw [after]⟩
  next e reply =>
  obtain rfl : outcome = .error e := by simpa [eq_comm] using logged
  have after : s.advance rt tx = ⟨s.db, s.close tx.id, s.log ++ [⟨tx.request, .error e⟩]⟩ := by
    simp only [Ingesting.advance, reply]
  rw [reply] at replied
  refine ⟨fun _ _ => by rw [after]; exact ⟨rfl, rfl⟩, fun passed other isOther sameKey =>
    ?_, fun passed unused => ?_⟩
  · obtain ⟨rfl, row, -, isRow, rowKey, differs⟩ := replied passed
    obtain rfl := decides isRow rowKey isOther sameKey
    rw [if_neg differs]
  · obtain ⟨rfl, row, -, isRow, rowKey, -⟩ := replied passed
    exact absurd rowKey (unused row isRow)

end

/-- Calls under one idempotency key share one event, whatever order their statements run in. -/
theorem events_idempotent (rt : Runtime) (tenantOf : UUID → UUID) {db : EventDb}
    (consistent : Consistent tenantOf db.events) (actions : List Action) :
    Along (next rt tenantOf) (fun s action =>
      Idempotent db (next rt tenantOf s action) ∧ Answered rt s action)
      (start db) actions := by
  have first : Inv tenantOf db (start db) := by
    refine ⟨consistent, UniqueOn.nil _, List.forall_mem_nil _, List.forall_mem_nil _, fun _ =>
      id, le_rfl, ?_, ?_, List.forall_mem_nil _⟩
    · simp [start]
    · intro row isRow
      have isBefore : row ∈ db.events := isRow
      simp [Ingesting.notices, start, isBefore]
  have kept (s : Ingesting) (action : Action) (inv : Inv tenantOf db s) :
      Inv tenantOf db (next rt tenantOf s action) :=
    inv.next action
  have holds (s : Ingesting) (action : Action) (inv : Inv tenantOf db s) :
      Idempotent db (next rt tenantOf s action) ∧ Answered rt s action :=
    ⟨(inv.next action).idempotent, inv.answered action⟩
  exact Along.of_kept kept holds first actions

end Ingesting

open Ingesting

namespace Sample

/-- A list and its key, with an event by e-mail address only. -/
def openDirectory : Directory :=
  ⟨fun _ => true, fun _ _ => true, fun _ _ _ => true, fun _ _ _ _ => true, fun _ _ _ => none⟩

/-- The name of the event is the whole body. -/
def plainRuntime : Runtime where
  decodeEventInput raw := some ⟨raw, some "ann@home.test", none, none, some "order-1", none⟩
  parseAddress := some
  equalFold a b := a == b
  toLower := id
  marshal _ := some ""
  eventRequestFingerprint p := if p.name = "paid" then 1 else 2
  storable _ _ := true

/-- Two calls race for one key, and a third one uses it for something else. -/
def race : List Action :=
  [.call 1 10 20 "paid" 0 0, .call 1 10 20 "paid" 1 1] ++ List.replicate 5 (.advance 1) ++
    List.replicate 5 (.advance 2) ++
    [.advance 1] ++ List.replicate 3 (.advance 2) ++
      .call 1 10 20 "refunded" 2 2 :: List.replicate 7 (.advance 1)

theorem race_is_idempotent :
    Consistent (fun _ => 1) [] ∧
      Along (next plainRuntime fun _ => 1)
        (fun s action => Idempotent ⟨openDirectory, [], []⟩
          (next plainRuntime (fun _ => 1) s action) ∧
          Answered plainRuntime s action)
        (start ⟨openDirectory, [], []⟩) race := by
  have consistent : Consistent (fun _ => 1) [] :=
    ⟨UniqueSome.nil _, UniqueOn.nil _, List.forall_mem_nil _⟩
  exact ⟨consistent, events_idempotent plainRuntime _ consistent race⟩

/-- In that run the event is created once, returned twice, and the third call is a conflict. -/
example :
    ((race.foldl (next plainRuntime fun _ => 1)
      (start ⟨openDirectory, [], []⟩)).log.map
    fun a => match a.outcome with | .ok v => some (v.id, v.created) | .error _ => none) =
      [some (1, true), some (1, false), none] := by
  decide +kernel

end Sample

end Manyforge.Ingress
