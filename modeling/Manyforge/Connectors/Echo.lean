import Manyforge.Connectors.Keys
import Manyforge.Lib.Locks
import Manyforge.Lib.Transition

/-!
# Posted comments that come back

A comment that the dispatcher has posted is part of the issue from then on, but only the write-back
puts its external id on the native message. A sync that fetches the issue in between takes the
comment for a new one: it becomes an inbound message, the write-back runs into the unique index and
fails, and the comment is posted again.

One operation is dispatched here, in the steps of `dispatchComment`, beside any number of workers
that sync the issue.
-/
namespace Manyforge.Connectors

open Table Transition

/-- The operation, the message it posts and the issue it posts to. -/
structure Job where
  (op messageId businessId : UUID)
  link : Link

/-- How far the dispatch is. `row` is what the claim has returned. -/
inductive Stage where
  | idle
  | claimed (row : OutboundOp)
  | posting (row : OutboundOp) (messageId : UUID)
  | completing (row : OutboundOp) (messageId : UUID) (externalId : String)
  deriving DecidableEq

structure Echoing where
  desk : Desk
  stage : Stage
  /-- The issue upstream. -/
  issue : ExternalIssue
  /-- What each worker has fetched and not yet written. -/
  fetched : List (UUID × ExternalIssue)
  /-- The comments that the dispatcher has posted. -/
  posts : List String
  events : List DeskEvent

inductive EchoAction where
  | claim (now : Timestamp)
  | read (now : Timestamp)
  /-- `PostComment`; the comment gets this id. -/
  | post (externalId : String)
  | writeBack (now : Timestamp)
  /-- Somebody else comments upstream. -/
  | comment (new : ExternalComment)
  /-- The fields of the issue change upstream. -/
  | edit (issue : ExternalIssue)
  | fetch (worker : UUID)
  | commit (worker : UUID)

namespace Echoing

variable (lower : String → String) (job : Job)

/-- The external id of an issue's description. -/
def descriptionId (issue : String) : String := issue ++ ":description"

/-- Upstream, a new comment gets an id of its own. -/
def freshUpstream (s : Echoing) (externalId : String) : Bool :=
  externalId != "" && externalId != descriptionId s.issue.externalId &&
    !s.issue.comments.any (·.externalId == externalId) &&
    !s.desk.messages.any (·.link == some ⟨job.link.connectorId, externalId⟩)

def fetched? (s : Echoing) (worker : UUID) : Option ExternalIssue :=
  (s.fetched.find? (·.1 == worker)).map (·.2)

def pending? (s : Echoing) : Option OutboundOp :=
  s.desk.ops.find? fun row => row.id == job.op && row.status == .pending

def next (s : Echoing) : EchoAction → Echoing
  | .claim now =>
    match s.stage, s.pending? job with
    | .idle, some row =>
      { s with desk := s.desk.updateOp row.id (·.claimed now), stage := .claimed (row.claimed now) }
    | _, _ => s
  | .read now =>
    match s.stage with
    | .claimed row =>
      match s.desk.commentStep row with
      | .error => { s with desk := s.desk.recordFailure row now, stage := .idle }
      | .repeated messageId existing => { s with stage := .completing row messageId existing }
      | .post messageId => { s with stage := .posting row messageId }
    | _ => s
  | .post externalId =>
    match s.stage with
    | .posting row messageId =>
      if s.freshUpstream job externalId then
        { s with
          stage := .completing row messageId externalId
          issue := { s.issue with comments := s.issue.comments ++ [⟨externalId, row.body.getD ""⟩] }
          posts := s.posts ++ [externalId] }
      else s
    | _ => s
  | .writeBack now =>
    match s.stage with
    | .completing row messageId externalId =>
      { s with
        desk := s.desk.completeComment row messageId ⟨row.connectorId, externalId⟩ now
        stage := .idle }
    | _ => s
  | .comment new =>
    if s.freshUpstream job new.externalId then
      { s with issue := { s.issue with comments := s.issue.comments ++ [new] } }
    else s
  | .edit issue =>
    { s with issue := { issue with externalId := s.issue.externalId, comments := s.issue.comments } }
  | .fetch worker => { s with fetched := s.fetched.filter (·.1 != worker) ++ [(worker, s.issue)] }
  | .commit worker =>
    match s.fetched? worker with
    | none => s
    | some issue =>
      { s with
        desk := (s.desk.handle lower job.businessId job.link issue).1
        fetched := s.fetched.filter (·.1 != worker)
        events := s.events ++ (s.desk.handle lower job.businessId job.link issue).2 }

/-- The comment is posted at most once, and once when the operation is done; it is no inbound
message and no event announces it. -/
@[mk_iff]
structure Silent (s : Echoing) : Prop where
  once : s.posts.length ≤ 1
  done : ∀ row ∈ s.desk.ops, row.id = job.op → row.status = .done → s.posts.length = 1
  inbound : ∀ m ∈ s.desk.messages, m.direction = .inbound → ∀ externalId ∈ s.posts,
    m.link ≠ some ⟨job.link.connectorId, externalId⟩
  events : ∀ m ∈ s.desk.messages, .messageReceived m.ticketId m.id ∈ s.events →
    ∀ externalId ∈ s.posts, m.link ≠ some ⟨job.link.connectorId, externalId⟩

/-- A worker only commits an issue in which every comment of the dispatcher is written back
already. -/
def WrittenBack (s : Echoing) : EchoAction → Prop
  | .commit worker => ∀ issue ∈ s.fetched? worker, ∀ c ∈ issue.comments, c.externalId ∈ s.posts →
    ∃ m ∈ s.desk.messages, m.link = some ⟨job.link.connectorId, c.externalId⟩
  | _ => True

instance (s : Echoing) : Decidable (s.Silent job) := decidable_of_iff' _ (silent_iff job s)

instance (s : Echoing) (action : EchoAction) : Decidable (WrittenBack job s action) := by
  cases action <;> dsimp only [WrittenBack] <;> infer_instance

/-! ### The invariant -/

variable (s : Echoing)

/-- What the dispatcher reads of the operation. -/
def Ours (row : OutboundOp) : Prop :=
  row.id = job.op ∧ row.messageId = some job.messageId ∧ row.connectorId = job.link.connectorId ∧
    s.desk.ticketExternalId row.ticketId = some job.link.externalId

/-- The operation has this status and its message this link. -/
def Held (status : OpStatus) (link : Option Link) : Prop :=
  (∃ row ∈ s.desk.ops, s.Ours job row ∧ row.status = status) ∧
    ∃ m ∈ s.desk.messages, m.id = job.messageId ∧ m.direction ≠ .inbound ∧ m.link = link

/-- A comment was posted under this id and is not written back. -/
def Unwritten (externalId : String) : Prop :=
  s.posts = [externalId] ∧ externalId ≠ "" ∧
    ∀ m ∈ s.desk.messages, m.link ≠ some ⟨job.link.connectorId, externalId⟩

/-- What holds at each stage of the dispatch. -/
def AtStage : Prop :=
  match s.stage with
  | .idle => s.posts = [] ∧ s.Held job .pending none ∨
      ∃ externalId, s.posts = [externalId] ∧ s.Held job .done (some ⟨job.link.connectorId, externalId⟩)
  | .claimed row => s.posts = [] ∧ s.Held job .inProgress none ∧ s.Ours job row
  | .posting row messageId =>
    s.posts = [] ∧ s.Held job .inProgress none ∧ s.Ours job row ∧ messageId = job.messageId
  | .completing row messageId externalId =>
    s.Unwritten job externalId ∧ s.Held job .inProgress none ∧ s.Ours job row ∧ messageId = job.messageId

structure Inv : Prop where
  keyed : s.desk.Keyed
  stage : s.AtStage job
  named : descriptionId s.issue.externalId ∉ s.posts
  fetched : ∀ pair ∈ s.fetched, pair.2.externalId = s.issue.externalId ∧
    ∀ c ∈ pair.2.comments, c ∈ s.issue.comments
  inbound : ∀ m ∈ s.desk.messages, m.direction = .inbound → ∀ externalId ∈ s.posts,
    m.link ≠ some ⟨job.link.connectorId, externalId⟩
  events : ∀ ticketId messageId, .messageReceived ticketId messageId ∈ s.events →
    ∃ m ∈ s.desk.messages, m.id = messageId ∧ m.direction = .inbound

variable {lower job s}

/-- At each stage, nothing is posted, or the one comment is unwritten, or it is on its message. -/
theorem AtStage.cases (stage : s.AtStage job) :
    s.posts = [] ∨ (∃ externalId, s.Unwritten job externalId) ∨
      ∃ externalId, s.posts = [externalId] ∧
        s.Held job .done (some ⟨job.link.connectorId, externalId⟩) := by
  unfold AtStage at stage
  split at stage
  · exact stage.imp (·.1) .inr
  · exact .inl stage.1
  · exact .inl stage.1
  · exact .inr (.inl ⟨_, stage.1⟩)

theorem AtStage.status (stage : s.AtStage job) : ∃ status link, s.Held job status link ∧
    (status = .done → ∃ externalId, s.posts = [externalId]) := by
  unfold AtStage at stage
  split at stage
  · rcases stage with ⟨-, held⟩ | ⟨externalId, posted, held⟩
    · exact ⟨_, _, held, nofun⟩
    · exact ⟨_, _, held, fun _ => ⟨externalId, posted⟩⟩
  · exact ⟨_, _, stage.2.1, nofun⟩
  · exact ⟨_, _, stage.2.1, nofun⟩
  · exact ⟨_, _, stage.2.1, nofun⟩

theorem AtStage.extended {s' : Echoing} (stage : s.AtStage job) (same : s'.stage = s.stage)
    (posts : s'.posts = s.posts) (ops : s'.desk.ops = s.desk.ops)
    (tickets : ∀ id external, s.desk.ticketExternalId id = some external →
      s'.desk.ticketExternalId id = some external)
    (more : ∀ m ∈ s.desk.messages, m ∈ s'.desk.messages)
    (free : ∀ m ∈ s'.desk.messages, m ∈ s.desk.messages ∨
      ∀ externalId ∈ s.posts, m.link ≠ some ⟨job.link.connectorId, externalId⟩) : s'.AtStage job := by
  have ours {row : OutboundOp} (ours : s.Ours job row) : s'.Ours job row :=
    ⟨ours.1, ours.2.1, ours.2.2.1, tickets _ _ ours.2.2.2⟩
  have held {status : OpStatus} {link : Option Link} :
      s.Held job status link → s'.Held job status link := by
    rintro ⟨⟨row, isRow, isOurs, isStatus⟩, m, isMessage, rest⟩
    exact ⟨⟨row, ops ▸ isRow, ours isOurs, isStatus⟩, m, more m isMessage, rest⟩
  have unwritten {externalId : String} : s.Unwritten job externalId → s'.Unwritten job externalId := by
    rintro ⟨posted, hasName, unlinked⟩
    refine ⟨posts.trans posted, hasName, fun m isMessage => ?_⟩
    exact (free m isMessage).elim (unlinked m) fun apart => apart externalId (by simp [posted])
  unfold AtStage at stage ⊢
  rw [same, posts]
  split at stage
  · exact stage.imp (.imp_right held) fun ⟨externalId, posted, isHeld⟩ =>
      ⟨externalId, posted, held isHeld⟩
  · exact ⟨stage.1, held stage.2.1, ours stage.2.2⟩
  · exact ⟨stage.1, held stage.2.1, ours stage.2.2.1, stage.2.2.2⟩
  · exact ⟨unwritten stage.1, held stage.2.1, ours stage.2.2.1, stage.2.2.2⟩

theorem Inv.silent (inv : s.Inv job) : s.Silent job := by
  refine ⟨?_, fun row isRow own done => ?_, inv.inbound, fun m isMessage raised => ?_⟩
  · rcases inv.stage.cases with none | ⟨_, posted, -⟩ | ⟨_, posted, -⟩
    · simp [none]
    · simp [posted]
    · simp [posted]
  · obtain ⟨status, link, ⟨⟨row', isRow', ours, isStatus⟩, -⟩, posted⟩ := inv.stage.status
    obtain rfl := inv.keyed.opIds.eq_of_key isRow isRow' (own.trans ours.1.symm)
    obtain ⟨externalId, posts⟩ := posted (isStatus.symm.trans done)
    simp [posts]
  · obtain ⟨m', isMessage', same, inbound⟩ := inv.events _ _ raised
    obtain rfl := inv.keyed.messageIds.eq_of_key isMessage' isMessage same
    exact inv.inbound m' isMessage inbound

/-! ### The dispatch -/

theorem freshUpstream_iff {externalId : String} :
    s.freshUpstream job externalId = true ↔
      externalId ≠ "" ∧ externalId ≠ descriptionId s.issue.externalId ∧
      (∀ c ∈ s.issue.comments, c.externalId ≠ externalId) ∧
      ∀ m ∈ s.desk.messages, m.link ≠ some ⟨job.link.connectorId, externalId⟩ := by
  simp [freshUpstream, and_assoc]

theorem pending?_some {row : OutboundOp} (found : s.pending? job = some row) :
    row ∈ s.desk.ops ∧ row.id = job.op ∧ row.status = .pending :=
  of_find?_keys found

theorem Held.updateOp {status : OpStatus} {link : Option Link} (held : s.Held job status link)
    (change : OutboundOp → OutboundOp) (kept : ∀ row, s.Ours job row → s.Ours job (change row))
    {stage : Stage} {status' : OpStatus} (becomes : ∀ row, (change row).status = status') :
    Held job { s with desk := s.desk.updateOp job.op change, stage := stage } status' link := by
  obtain ⟨⟨row, isRow, ours, -⟩, message⟩ := held
  refine ⟨⟨change row, updated_mem isRow (by simp [ours.1]), kept row ours, becomes row⟩, message⟩

section

variable (inv : s.Inv job)

include inv

theorem Inv.claim (now : Timestamp) : (next lower job s (.claim now)).Inv job := by
  simp only [next]
  split
  next row isStage found =>
    obtain ⟨isRow, own, isPending⟩ := pending?_some found
    have stage := inv.stage
    simp only [AtStage, isStage] at stage
    obtain ⟨noPosts, held⟩ : s.posts = [] ∧ s.Held job .pending none := by
      refine stage.resolve_right ?_
      rintro ⟨_, -, ⟨row', isRow', ours, done⟩, -⟩
      obtain rfl := inv.keyed.opIds.eq_of_key isRow isRow' (own.trans ours.1.symm)
      simp [isPending] at done
    obtain ⟨row', isRow', ours, -⟩ := held.1
    obtain rfl := inv.keyed.opIds.eq_of_key isRow isRow' (own.trans ours.1.symm)
    rw [own]
    refine { inv with keyed := inv.keyed.updateOp job.op fun _ => rfl, stage := ⟨noPosts, ?_, ours⟩ }
    exact held.updateOp (·.claimed now) (fun _ ours => ours) fun _ => rfl
  next => exact inv

theorem Inv.read (hasName : job.link.externalId ≠ "") (now : Timestamp) :
    (next lower job s (.read now)).Inv job := by
  simp only [next]
  split
  next row isStage =>
    have stage := inv.stage
    simp only [AtStage, isStage] at stage
    obtain ⟨noPosts, held, ours⟩ := stage
    obtain ⟨m, isMessage, isId, -, unlinked⟩ := held.2
    have step : s.desk.commentStep row = .post job.messageId := by
      have external := Desk.messageExternalId_of_mem inv.keyed.messageIds isMessage
      rw [isId, unlinked, Option.map_none] at external
      simp [Desk.commentStep, ours.2.1, ours.2.2.2, hasName, external]
    rw [step]
    exact { inv with stage := ⟨noPosts, held, ours, rfl⟩ }
  next => exact inv

theorem Inv.post (externalId : String) : (next lower job s (.post externalId)).Inv job := by
  simp only [next]
  split
  next row messageId isStage =>
    split
    next isFresh =>
      obtain ⟨hasName, noDescription, -, free⟩ := freshUpstream_iff.mp isFresh
      have stage := inv.stage
      simp only [AtStage, isStage] at stage
      obtain ⟨noPosts, held, ours, isId⟩ := stage
      refine ⟨inv.keyed, ⟨⟨by rw [noPosts]; rfl, hasName, free⟩, held, ours, isId⟩, ?_,
        fun pair isFetched => ?_, fun m isMessage _ id isPosted => ?_, inv.events⟩
      · simpa [noPosts] using noDescription.symm
      · obtain ⟨same, comments⟩ := inv.fetched pair isFetched
        exact ⟨same, fun c isComment => List.mem_append_left _ (comments c isComment)⟩
      · obtain rfl : id = externalId := by simpa [noPosts] using isPosted
        exact free m isMessage
    next => exact inv
  next => exact inv

theorem Inv.writeBack (now : Timestamp) : (next lower job s (.writeBack now)).Inv job := by
  simp only [next]
  split
  next row messageId externalId isStage =>
    have stage := inv.stage
    simp only [AtStage, isStage] at stage
    obtain ⟨⟨posted, hasName, free⟩, held, ours, rfl⟩ := stage
    rw [ours.2.2.1]
    have kept := inv.keyed.completeComment row job.messageId ⟨job.link.connectorId, externalId⟩ now
    rw [Desk.completeComment_of_free fun _ => free] at kept ⊢
    obtain ⟨⟨row', isRow', ours', -⟩, m, isMessage, isId, direction, unlinked⟩ := held
    refine ⟨kept, .inr ⟨externalId, posted, ⟨_, updated_mem isRow' ?_, ours', rfl⟩, _,
      updated_mem isMessage ?_, isId,
      direction, rfl⟩, inv.named, inv.fetched, fun m' isMessage' inbound =>
        ?_, fun ticketId id raised => ?_⟩
    · simp [ours.1, ours'.1]
    · simp [isId, unlinked]
    · -- The message that is stamped is not an inbound one.
      obtain ⟨old, wasMessage, ⟨chosen, rfl⟩ | ⟨-, rfl⟩⟩ := updated_or_kept isMessage'
      · have isOwn : old.id = job.messageId := (by simpa using chosen : old.id = job.messageId ∧ _).1
        obtain rfl := inv.keyed.messageIds.eq_of_key wasMessage isMessage (isOwn.trans isId.symm)
        exact absurd inbound direction
      · exact inv.inbound old wasMessage inbound
    · obtain ⟨old, wasMessage, same, inbound⟩ := inv.events ticketId id raised
      refine ⟨_, List.mem_map_of_mem wasMessage, ?_⟩
      split <;> exact ⟨same, inbound⟩
  next => exact inv

/-! ### The workers -/

omit inv in
theorem fetched?_some {worker : UUID} {issue : ExternalIssue}
    (found : s.fetched? worker = some issue) : ∃ pair ∈ s.fetched, pair.2 = issue := by
  obtain ⟨pair, isFetched, rfl⟩ := Option.map_eq_some_iff.mp found
  exact ⟨pair, List.mem_of_find?_eq_some isFetched, rfl⟩

/-- A message that a sync adds is not one of the dispatcher's comments, when those are written
back. -/
theorem Inv.imported_ne {worker : UUID} {issue : ExternalIssue}
    (found : s.fetched? worker = some issue) (written : WrittenBack job s (.commit worker))
    {ids : List String} {d d' : Desk} {new : List Message} (same : d.messages = s.desk.messages)
    (imported : Desk.Imported job.link.connectorId (ids ++ issue.comments.map (·.externalId)) d d' new)
    (description : ∀ id ∈ ids, id = descriptionId issue.externalId) {m : Message} (isNew : m ∈ new)
    {externalId : String} (isPosted : externalId ∈ s.posts) :
    m.link ≠ some ⟨job.link.connectorId, externalId⟩ := by
  intro isLink
  obtain ⟨id, isId, link⟩ := imported.named m isNew
  obtain rfl : id = externalId := by
    have := link.symm.trans isLink
    simpa using this
  rcases List.mem_append.mp isId with isDescription | isComment
  · obtain ⟨pair, isFetched, rfl⟩ := fetched?_some found
    refine inv.named ?_
    rwa [← (inv.fetched pair isFetched).1, ← description id isDescription]
  · obtain ⟨c, fromIssue, rfl⟩ := List.mem_map.mp isComment
    obtain ⟨old, isOld, oldLink⟩ := written issue found c fromIssue isPosted
    exact imported.fresh m isNew old (same ▸ isOld) (oldLink.trans link.symm)

theorem Inv.commit {worker : UUID} (written : WrittenBack job s (.commit worker)) :
    (next lower job s (.commit worker)).Inv job := by
  simp only [next]
  split
  next => exact inv
  next issue found =>
  obtain ⟨ids, new, imported, description, raised⟩ :=
    s.desk.handle_imported lower job.businessId job.link issue
  have apart {m : Message} (isNew : m ∈ new) {externalId : String}
      (isPosted : externalId ∈ s.posts) :=
    inv.imported_ne found written
      (Desk.syncInboundExternalIssue_messages ..) imported description isNew isPosted
  have messages : (s.desk.handle lower job.businessId job.link issue).1.messages =
      s.desk.messages ++ new := by
    rw [imported.desk]
    simp
  have free (m : Message)
      (isMessage : m ∈ (s.desk.handle lower job.businessId job.link issue).1.messages) :
      m ∈ s.desk.messages ∨
        ∀ externalId ∈ s.posts, m.link ≠ some ⟨job.link.connectorId, externalId⟩ :=
    (List.mem_append.mp (messages ▸ isMessage)).imp_right fun isNew externalId isPosted =>
      apart isNew isPosted
  refine ⟨inv.keyed.handle .., inv.stage.extended rfl rfl (Desk.handle_ops ..)
    (fun _ _ => Desk.ticketExternalId_handle lower job.businessId job.link issue)
      (fun m isMessage => ?_) free,
    inv.named,
    fun pair isFetched =>
      inv.fetched pair (List.mem_filter.mp isFetched).1, fun m isMessage inbound => ?_,
    fun ticketId messageId isRaised => ?_⟩
  · exact messages ▸ List.mem_append_left _ isMessage
  · exact (free m isMessage).elim (fun isOld => inv.inbound m isOld inbound) id
  · rcases List.mem_append.mp isRaised with before | now
    · obtain ⟨m, isMessage, rest⟩ := inv.events ticketId messageId before
      exact ⟨m, messages ▸ List.mem_append_left _ isMessage, rest⟩
    · obtain ⟨m, isNew, same⟩ := raised ticketId messageId now
      exact ⟨m, messages ▸ List.mem_append_right _ isNew, same, imported.inbound m isNew⟩

/-! ### Steps -/

theorem Inv.next (hasName : job.link.externalId ≠ "") (action : EchoAction)
    (written : WrittenBack job s action) :
    (next lower job s action).Inv job := by
  cases action with
  | claim now => exact inv.claim now
  | read now => exact inv.read hasName now
  | post externalId => exact inv.post externalId
  | writeBack now => exact inv.writeBack now
  | comment new =>
    simp only [Echoing.next]
    split
    · refine { inv with fetched := fun pair isFetched => ?_ }
      obtain ⟨same, comments⟩ := inv.fetched pair isFetched
      exact ⟨same, fun c isComment => List.mem_append_left _ (comments c isComment)⟩
    · exact inv
  | edit issue => exact { inv with }
  | fetch worker =>
    refine { inv with fetched := forall_inserted (fun pair isFetched => ?_) ⟨rfl, fun _ => id⟩ }
    exact inv.fetched pair (List.mem_filter.mp isFetched).1
  | commit worker => exact inv.commit written

/-- There is no echo exactly when comments are written back before a sync. -/
theorem Inv.silent_iff (hasName : job.link.externalId ≠ "") (action : EchoAction) :
    (Echoing.next lower job s action).Silent job ↔ WrittenBack job s action := by
  refine ⟨fun silent => ?_, fun written => (inv.next hasName action written).silent⟩
  cases action with
  | claim | read | post | writeBack | comment | edit | fetch => trivial
  | commit worker =>
    -- A comment that no message has becomes an inbound message.
    intro issue found c isComment isPosted
    by_contra unwritten
    obtain ⟨ids, new, imported, -, -⟩ := s.desk.handle_imported lower job.businessId job.link issue
    have inbound := silent.inbound
    simp only [Echoing.next, Option.mem_def.mp found] at inbound
    obtain ⟨m, isMessage, isLink⟩ := imported.covered c.externalId
      (List.mem_append_right _ (List.mem_map_of_mem isComment))
    have isNew : m ∈ new := by
      rw [imported.desk] at isMessage
      simp only [Desk.syncInboundExternalIssue_messages] at isMessage
      exact (List.mem_append.mp isMessage).resolve_left fun isOld => unwritten ⟨m, isOld, isLink⟩
    exact inbound m isMessage (imported.inbound m isNew) c.externalId isPosted isLink

end

/-! ### Runs -/

def start (d : Desk) (issue : ExternalIssue) : Echoing := ⟨d, .idle, issue, [], [], []⟩

/-- The comment of an operation is posted once and never comes back, at every step of a run, exactly
when no worker of the run commits an issue with the comment before the write-back. -/
theorem echo_iff (lower : String → String) (job : Job) {d : Desk} {issue : ExternalIssue}
    (keyed : d.Keyed)
    (hasName : job.link.externalId ≠ "") (queued : (start d issue).Held job .pending none)
    (actions : List EchoAction) :
    Along (next lower job) (fun s action => (next lower job s action).Silent job)
      (start d issue) actions ↔
      Along (next lower job) (WrittenBack job) (start d issue) actions := by
  have first : (start d issue).Inv job := ⟨keyed, .inl ⟨rfl, queued⟩, nofun, nofun, nofun, nofun⟩
  exact Along.iff_of_cond (fun s action inv => Inv.silent_iff inv hasName action)
    (fun s action inv written => Inv.next inv hasName action written) first

end Echoing

open Echoing

namespace Sample

/-- A reply on ticket 1 whose comment is queued. -/
def replied : Desk :=
  ⟨linkedDesk.tickets, [⟨1, 1, 7, .outbound, "Fixed", none, none⟩],
    [⟨1, 7, 5, 1, some 1, .comment, .pending, 0, some "Fixed", false, 0, 0⟩], []⟩

def replyJob : Job := ⟨1, 1, 7, ⟨5, "P-1"⟩⟩

/-- The comment is posted, and the issue fetched with it. -/
def postedAndFetched : List EchoAction := [.claim 1, .read 2, .post "11", .fetch 1]

/-- The sync commits before the write-back, and the operation is dispatched again. -/
def postedTwice : List EchoAction :=
  postedAndFetched ++ [.commit 1, .writeBack 3, .claim 4, .read 5, .post "12"]

theorem replied_held : (start replied (issueAt "open" 1)).Held replyJob .pending none :=
  ⟨⟨_, List.mem_singleton.mpr rfl, ⟨rfl, rfl, rfl, rfl⟩, rfl⟩, _, List.mem_singleton.mpr rfl, rfl,
    by decide, rfl⟩

theorem written_back_first :
    Desk.Keyed replied ∧ replyJob.link.externalId ≠ "" ∧
      (start replied (issueAt "open" 1)).Held replyJob .pending none ∧
      Along (next id replyJob) (fun s action =>
        (next id replyJob s action).Silent replyJob)
        (start replied (issueAt "open" 1))
          (postedAndFetched ++ [.writeBack 3, .commit 1]) :=
  ⟨by decide +kernel, by decide, replied_held,
    (echo_iff id replyJob (by decide +kernel) (by decide) replied_held _).mpr
      (by decide +kernel)⟩

/-- The sync commits before the write-back: the reply comes back as an inbound message, the
write-back fails and the comment is posted again. -/
theorem echoed_and_repeated :
    Desk.Keyed replied ∧ replyJob.link.externalId ≠ "" ∧
      (start replied (issueAt "open" 1)).Held replyJob .pending none ∧
      ¬ Along (next id replyJob) (fun s action =>
        (next id replyJob s action).Silent replyJob)
        (start replied (issueAt "open" 1)) (postedAndFetched ++ [.commit 1]) ∧
      (postedTwice.foldl (next id replyJob)
        (start replied (issueAt "open" 1))).posts = ["11", "12"] := by
  exact ⟨by decide +kernel, by decide, replied_held, by decide +kernel, by decide +kernel⟩

end Sample

end Manyforge.Connectors
