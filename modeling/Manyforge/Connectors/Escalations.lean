import Manyforge.Connectors.Keys
import Manyforge.Lib.Locks
import Manyforge.Lib.Transition

/-!
# Escalations

To escalate a ticket is to queue an operation that creates an issue for it.
`EnqueueOutboundCreateIssue` only looks at whether the ticket is linked, which it is not until the
first operation is written back; so several operations can be queued for one ticket, and each
creates an issue. And until the write-back nothing tells a sync of the new issue that the issue
belongs to a ticket.

A claim takes one operation at a time here: a batch is several claims at one time.
-/
namespace Manyforge.Connectors

open Table Transition

structure CreateRun where
  id : UUID
  row : OutboundOp
  /-- The issue that `CreateIssue` has returned. -/
  created : Option Link

structure Escalating where
  desk : Desk
  running : List CreateRun
  upstream : List Link
  /-- Each `CreateIssue` that succeeded: the ticket and the issue. -/
  created : List (UUID × Link)

inductive EscalateAction where
  | enqueue (businessId ticketId connectorId : UUID) (now : Timestamp)
  | claim (op : UUID) (lease now : Timestamp)
  /-- `CreateIssue`; the issue gets this id. -/
  | create (run : UUID) (externalId : String)
  | writeBack (run : UUID) (now : Timestamp)
  /-- Somebody else creates an issue upstream. -/
  | open_ (link : Link)
  | sync (link : Link) (issue : ExternalIssue)

namespace Escalating

variable (lower : String → String) (connectors : UUID → Option UUID) (s : Escalating)

def run? (run : UUID) : Option CreateRun := s.running.find? (·.id == run)

def claimable? (op : UUID) (lease now : Timestamp) : Option OutboundOp :=
  s.desk.ops.find? fun row => row.id == op && row.claimable now lease

/-- Upstream, a new issue gets an id of its own. -/
def freshUpstream (link : Link) : Bool :=
  !s.upstream.contains link && s.desk.links.all (·.2 != some link)

def next : EscalateAction → Escalating
  | .enqueue businessId ticketId connectorId now =>
    match s.desk.enqueueOutboundCreateIssue connectors businessId ticketId connectorId now with
    | .error _ => s
    | .ok d => { s with desk := d }
  | .claim op lease now =>
    match s.claimable? op lease now with
    | none => s
    | some row =>
      { s with
        desk := s.desk.updateOp op (·.claimed now)
        running := s.running ++ [⟨freshKey (s.running.map (·.id)), row.claimed now, none⟩] }
  | .create run externalId =>
    match s.run? run with
    | none => s
    | some r =>
      if r.created.isNone && s.freshUpstream ⟨r.row.connectorId, externalId⟩ then
        { s with
          running := updateWhere (·.id == run)
            (fun other => { other with created := some ⟨r.row.connectorId, externalId⟩ }) s.running
          upstream := s.upstream ++ [⟨r.row.connectorId, externalId⟩]
          created := s.created ++ [(r.row.ticketId, ⟨r.row.connectorId, externalId⟩)] }
      else s
  | .writeBack run now =>
    match s.run? run with
    | none => s
    | some r =>
      match r.created with
      | none => s
      | some link =>
        { s with
          desk := (s.desk.completeOutboundCreate r.row.id r.row.ticketId link now).getD
            (s.desk.recordFailure r.row now)
          running := s.running.filter (·.id != run) }
  | .open_ link => { s with upstream := s.upstream ++ [link] }
  | .sync link issue =>
    match connectors link.connectorId with
    | none => s
    | some businessId =>
      if s.upstream.contains link then
        { s with desk := (s.desk.handle lower businessId link issue).1 } else s

/-- One issue for each ticket, which the ticket is linked to once its dispatch is through, and no
other ticket. -/
@[mk_iff]
structure Escalated (s : Escalating) : Prop where
  once : UniqueOn Prod.fst s.created
  linked : ∀ pair ∈ s.created,
    (∃ r ∈ s.running, r.row.ticketId = pair.1 ∧ r.created = some pair.2) ∨
    (pair.1, some pair.2) ∈ s.desk.links
  single : ∀ pair ∈ s.created, ∀ other ∈ s.desk.links, other.2 = some pair.2 → other.1 = pair.1

end Escalating

/-- Pending or in progress. -/
def OutboundOp.live (op : OutboundOp) : Bool := op.status == .pending || op.status == .inProgress

namespace Escalating

/-- A ticket is escalated when none of its operations is pending or in progress, no operation is
taken whose dispatch is open, and a created issue is synced after its write-back. -/
def Paced (s : Escalating) : EscalateAction → Prop
  | .enqueue _ ticketId _ _ => ∀ op ∈ s.desk.ops, op.live = true → op.ticketId ≠ ticketId
  | .claim op lease now => (s.claimable? op lease now).isSome → ∀ r ∈ s.running, r.row.id ≠ op
  | .sync link _ => link ∈ s.upstream → ∀ pair ∈ s.created, pair.2 = link →
      ∃ other ∈ s.desk.links, other.2 = some link
  | _ => True

instance (s : Escalating) : Decidable (Escalated s) := decidable_of_iff' _ (escalated_iff s)

instance (s : Escalating) (action : EscalateAction) : Decidable (Paced s action) := by
  cases action <;> dsimp only [Paced] <;> infer_instance

/-! ### The invariant -/

variable {lower : String → String} {connectors : UUID → Option UUID} {s : Escalating}

/-- An operation that is pending or in progress is the only one of its ticket, which has no link;
and each dispatch has an operation of its own that is in progress. -/
structure Inv (s : Escalating) : Prop extends Escalated s where
  keyed : s.desk.Keyed
  runIds : UniqueOn CreateRun.id s.running
  runs : UniqueSome CreateRun.created s.running
  runOps : UniqueOn (fun r : CreateRun => r.row.id) s.running
  issues : UniqueOn Prod.snd s.created
  alone : ∀ a ∈ s.desk.ops, ∀ b ∈ s.desk.ops, a.live = true → b.live = true →
    a.ticketId = b.ticketId → a.id = b.id
  queued : ∀ op ∈ s.desk.ops, op.live = true → (op.ticketId, none) ∈ s.desk.links
  running : ∀ r ∈ s.running, ∃ op ∈ s.desk.ops,
    op.live = true ∧ op.id = r.row.id ∧ op.ticketId = r.row.ticketId
  /-- An issue that is not written back has no ticket yet. -/
  unwritten : ∀ r ∈ s.running, ∀ link, r.created = some link →
    (r.row.ticketId, link) ∈ s.created ∧ ∀ id, (id, some link) ∉ s.desk.links
  known : ∀ pair ∈ s.created, pair.2 ∈ s.upstream

theorem freshUpstream_iff {link : Link} :
    s.freshUpstream link = true ↔ link ∉ s.upstream ∧ ∀ id, (id, some link) ∉ s.desk.links := by
  have unlinked : s.desk.links.all (·.2 != some link) = true ↔
      ∀ id, (id, some link) ∉ s.desk.links := by
    simp only [List.all_eq_true, bne_iff_ne]
    constructor
    · intro free id member
      exact free (id, some link) member rfl
    · rintro free ⟨id, other⟩ member rfl
      exact free id member
  simp only [freshUpstream, Bool.and_eq_true, unlinked, Bool.not_eq_true', List.contains_eq_mem,
    decide_eq_false_iff_not]

theorem run?_some {run : UUID} {r : CreateRun} (found : s.run? run = some r) :
    r ∈ s.running ∧ r.id = run :=
  of_find? found

section

variable (inv : s.Inv)

include inv

/-- The ticket of an open dispatch has no link. -/
theorem Inv.unlinked {r : CreateRun} (isRun : r ∈ s.running) :
    (r.row.ticketId, none) ∈ s.desk.links := by
  obtain ⟨op, isOp, isLive, -, ticket⟩ := inv.running r isRun
  exact ticket ▸ inv.queued op isOp isLive

/-- Two open dispatches are for two tickets. -/
theorem Inv.run_eq {r other : CreateRun} (isRun : r ∈ s.running) (isOther : other ∈ s.running)
    (ticket : other.row.ticketId = r.row.ticketId) : other = r := by
  obtain ⟨op, isOp, isLive, opId, opTicket⟩ := inv.running r isRun
  obtain ⟨op', isOp', isLive', opId', opTicket'⟩ := inv.running other isOther
  refine inv.runOps.eq_of_key isOther isRun ?_
  rw [← opId, ← opId']
  exact inv.alone op' isOp' op isOp isLive' isLive (opTicket'.trans (ticket.trans opTicket.symm))

/-- While a dispatch has created no issue, its ticket has none. -/
theorem Inv.unissued {r : CreateRun} (isRun : r ∈ s.running) (uncreated : r.created = none) :
    ∀ pair ∈ s.created, pair.1 ≠ r.row.ticketId := by
  intro pair isPair ticket
  rcases inv.linked pair isPair with ⟨other, isOther, same, isCreated⟩ | isLink
  · rw [inv.run_eq isRun isOther (same.trans ticket), uncreated] at isCreated
    cases isCreated
  · obtain ⟨t, isTicket, isId, isLinked⟩ := Desk.mem_links.mp isLink
    obtain ⟨t', isTicket', isId', unlinked⟩ := Desk.mem_links.mp (inv.unlinked isRun)
    have sameId : t.id = t'.id := isId.trans (ticket.trans isId'.symm)
    rw [inv.keyed.ticketIds.eq_of_key isTicket isTicket' sameId, unlinked] at isLinked
    cases isLinked

/-! ### The queue -/

theorem Inv.enqueue {businessId ticketId connectorId : UUID} {now : Timestamp}
    (paced : s.Paced (.enqueue businessId ticketId connectorId now)) :
    (next lower connectors s (.enqueue businessId ticketId connectorId now)).Inv := by
  simp only [next]
  split
  next => exact inv
  next d ok =>
  obtain ⟨t, isTicket, isId, unlinked, rfl⟩ := Desk.enqueueOutboundCreateIssue_ok ok
  refine { inv with
    keyed := inv.keyed.addOp rfl
    alone := fun a isA b isB aLive bLive same => ?_
    queued := forall_inserted inv.queued fun _ =>
      Desk.mem_links.mpr ⟨t, isTicket, isId, unlinked⟩
    running := fun r isRun => ?_ }
  · rcases mem_inserted.mp isA with isA | rfl <;> rcases mem_inserted.mp isB with isB | rfl
    · exact inv.alone a isA b isB aLive bLive same
    · exact absurd same (paced a isA aLive)
    · exact absurd same.symm (paced b isB bLive)
    · rfl
  · obtain ⟨op, isOp, rest⟩ := inv.running r isRun
    exact ⟨op, List.mem_append_left _ isOp, rest⟩

theorem Inv.claim {op : UUID} {lease now : Timestamp} (paced : s.Paced (.claim op lease now)) :
    (next lower connectors s (.claim op lease now)).Inv := by
  simp only [next]
  split
  next => exact inv
  next row found =>
  have isRow := List.mem_of_find?_eq_some found
  obtain ⟨rfl, claimable⟩ : row.id = op ∧ row.claimable now lease = true := by
    simpa using List.find?_some found
  have rowLive : row.live = true := by
    simp only [OutboundOp.claimable, OutboundOp.live, Bool.or_eq_true, Bool.and_eq_true] at *
    exact claimable.imp_right And.left
  -- The operation that is taken was live before, as it is now.
  have comes {op' : OutboundOp} (isOp : op' ∈ (s.desk.updateOp row.id (·.claimed now)).ops) :
      ∃ old ∈ s.desk.ops, old.id = op'.id ∧ old.ticketId = op'.ticketId ∧
        (op'.live = true → old.live = true) := by
    obtain ⟨old, isOld, ⟨own, rfl⟩ | ⟨-, rfl⟩⟩ := updated_or_kept isOp
    · obtain rfl := inv.keyed.opIds.eq_of_key isOld isRow (beq_iff_eq.mp own)
      exact ⟨old, isOld, rfl, rfl, fun _ => rowLive⟩
    · exact ⟨old, isOld, rfl, rfl, id⟩
  have goes {old : OutboundOp} (isOld : old ∈ s.desk.ops) (isLive : old.live = true) :
      ∃ op' ∈ (s.desk.updateOp row.id (·.claimed now)).ops,
        op'.live = true ∧ op'.id = old.id ∧ op'.ticketId = old.ticketId := by
    by_cases own : (old.id == row.id) = true
    · exact ⟨_, updated_mem isOld own, rfl, rfl, rfl⟩
    · exact ⟨old, kept_mem isOld own, isLive, rfl, rfl⟩
  have itself := goes isRow rowLive
  refine { inv with
    keyed := inv.keyed.updateOp row.id fun _ => rfl
    runIds := inv.runIds.append_freshKey rfl
    runs := inv.runs.append nofun
    runOps := inv.runOps.append_fresh (paced (by simp [found]))
    linked := fun pair isPair => ?_
    alone := fun a isA b isB aLive bLive same => ?_
    queued := fun op' isOp isLive => ?_
    running := forall_inserted (fun r isRun => ?_) itself
    unwritten := forall_inserted inv.unwritten nofun }
  · refine (inv.linked pair isPair).imp_left ?_
    rintro ⟨r, isRun, rest⟩
    exact ⟨r, List.mem_append_left _ isRun, rest⟩
  · obtain ⟨a', isA', aId, aTicket, aOld⟩ := comes isA
    obtain ⟨b', isB', bId, bTicket, bOld⟩ := comes isB
    rw [← aId, ← bId]
    exact inv.alone a' isA' b' isB' (aOld aLive) (bOld bLive)
      (aTicket.trans (same.trans bTicket.symm))
  · obtain ⟨old, isOld, -, ticket, wasLive⟩ := comes isOp
    exact ticket ▸ inv.queued old isOld (wasLive isLive)
  · obtain ⟨old, isOld, isLive, isId, ticket⟩ := inv.running r isRun
    obtain ⟨op', isOp, isLive', isId', ticket'⟩ := goes isOld isLive
    exact ⟨op', isOp, isLive', isId'.trans isId, ticket'.trans ticket⟩

/-! ### Creating and writing back -/

theorem Inv.create (run : UUID) (externalId : String) :
    (next lower connectors s (.create run externalId)).Inv := by
  simp only [next]
  split
  next => exact inv
  next r found =>
  split
  next allowed =>
    obtain ⟨isRun, isId⟩ := run?_some found
    have allowed : r.created = none ∧ s.freshUpstream ⟨r.row.connectorId, externalId⟩ = true := by
      simpa using allowed
    obtain ⟨uncreated, isFresh⟩ := allowed
    obtain ⟨notUpstream, free⟩ := freshUpstream_iff.mp isFresh
    have own {other : CreateRun} (isOther : other ∈ s.running) (sameId : (other.id == run) = true) :
        other = r :=
      inv.runIds.eq_of_key isOther isRun ((beq_iff_eq.mp sameId).trans isId.symm)
    have more (pair : UUID × Link) (isPair : pair ∈ s.created) :
        pair ∈ s.created ++ [(r.row.ticketId, ⟨r.row.connectorId, externalId⟩)] :=
      List.mem_append_left _ isPair
    refine { inv with
      once := inv.once.append_fresh (inv.unissued isRun uncreated)
      linked := forall_inserted (fun pair isPair => ?_) (.inl ?_)
      single := forall_inserted inv.single fun other isOther same => ?_
      runIds := inv.runIds.updateWhere fun _ _ => rfl
      runs := ?_
      runOps := inv.runOps.updateWhere fun _ _ => rfl
      issues := inv.issues.append_fresh fun pair isPair same => ?_
      running := fun other isOther => ?_
      unwritten := fun other isOther link isLink => ?_
      known := forall_inserted (fun pair isPair => ?_) (by simp) }
    · refine (inv.linked pair isPair).imp_left ?_
      rintro ⟨other, isOther, ticket, isCreated⟩
      refine ⟨other, kept_mem isOther fun sameId => ?_, ticket, isCreated⟩
      rw [own isOther sameId, uncreated] at isCreated
      cases isCreated
    · exact ⟨_, updated_mem isRun (by simp [isId]), rfl, rfl⟩
    · exact absurd (same ▸ isOther) (free other.1)
    · refine inv.runs.stamp inv.runIds run (fun _ sameId => beq_iff_eq.mp sameId) (fun _ _ => rfl) ?_
      exact fun _ other isOther isCreated =>
        notUpstream (inv.known _ (inv.unwritten other isOther _ isCreated).1)
    · have same : pair.2 = ⟨r.row.connectorId, externalId⟩ := same
      exact notUpstream (same ▸ inv.known pair isPair)
    · obtain ⟨old, isOld, ⟨-, rfl⟩ | ⟨-, rfl⟩⟩ := updated_or_kept isOther
      · exact inv.running old isOld
      · exact inv.running old isOld
    · obtain ⟨old, isOld, ⟨sameId, rfl⟩ | ⟨-, rfl⟩⟩ := updated_or_kept isOther
      · rw [own isOld sameId]
        obtain rfl := Option.some.inj isLink
        exact ⟨List.mem_concat_self, free⟩
      · obtain ⟨isPair, rest⟩ := inv.unwritten old isOld link isLink
        exact ⟨more _ isPair, rest⟩
    · exact List.mem_append_left _ (inv.known pair isPair)
  next => exact inv

theorem Inv.writeBack (run : UUID) (now : Timestamp) :
    (next lower connectors s (.writeBack run now)).Inv := by
  simp only [next]
  split
  next => exact inv
  next r found =>
  split
  next => exact inv
  next link isCreated =>
  obtain ⟨isRun, rfl⟩ := run?_some found
  obtain ⟨isPair, free⟩ := inv.unwritten r isRun link isCreated
  obtain ⟨op, isOp, opLive, opId, opTicket⟩ := inv.running r isRun
  obtain ⟨d, completed, ops, links⟩ :=
    s.desk.completeOutboundCreate_of_free free r.row.id r.row.ticketId now
  have keyed := inv.keyed.completeOutboundCreate completed
  rw [completed, Option.getD_some]
  -- Only the link of the run's ticket changes, and only from none.
  have stays {id : UUID} {other : Option Link} (member : (id, other) ∈ s.desk.links)
      (spared : id ≠ r.row.ticketId ∨ other.isSome) : (id, other) ∈ d.links := by
    rw [links]
    refine kept_mem member ?_
    cases spared with
    | inl differs => simp [differs]
    | inr isSome => simp [Option.ne_none_iff_isSome.mpr isSome]
  have comes {id : UUID} {other : Option Link} (member : (id, other) ∈ d.links) :
      (id, other) ∈ s.desk.links ∨ id = r.row.ticketId ∧ other = some link := by
    rw [links] at member
    obtain ⟨old, wasMember, ⟨chosen, ⟨⟩⟩ | ⟨-, rfl⟩⟩ := updated_or_kept member
    · have chosen : old.1 = r.row.ticketId ∧ old.2 = none := by simpa using chosen
      exact .inr ⟨chosen.1, rfl⟩
    · exact .inl wasMember
  have isLinked : (r.row.ticketId, some link) ∈ d.links := by
    rw [links]
    exact updated_mem (inv.unlinked isRun) (by simp)
  -- The operation is done, so what is live now is another one, of another ticket.
  have live {op' : OutboundOp} (isOp' : op' ∈ d.ops) (isLive : op'.live = true) :
      op' ∈ s.desk.ops ∧ op'.id ≠ r.row.id := by
    rw [ops] at isOp'
    obtain ⟨old, isOld, ⟨-, rfl⟩ | ⟨other, rfl⟩⟩ := updated_or_kept isOp'
    · cases isLive
    · exact ⟨isOld, by simpa using other⟩
  refine { inv with
    keyed := keyed
    runIds := inv.runIds.filter _
    runs := inv.runs.sublist List.filter_sublist
    runOps := inv.runOps.filter _
    linked := fun pair isPair' => ?_
    single := fun pair isPair' other isOther same => ?_
    alone := fun a isA b isB aLive bLive same =>
      inv.alone a (live isA aLive).1 b (live isB bLive).1 aLive bLive same
    queued := fun op' isOp' isLive => ?_
    running := fun other isOther => ?_
    unwritten := fun other isOther link' isLink => ?_ }
  · rcases inv.linked pair isPair' with ⟨other, isOther, ticket, isCreated'⟩ | isLink
    · by_cases own : other.id = r.id
      · obtain rfl := inv.runIds.eq_of_key isOther isRun own
        obtain rfl := Option.some.inj (isCreated.symm.trans isCreated')
        exact .inr (ticket ▸ isLinked)
      · exact .inl ⟨other, List.mem_filter.mpr ⟨isOther, by simpa using own⟩, ticket, isCreated'⟩
    · exact .inr (stays isLink (.inr rfl))
  · rcases comes isOther with wasMember | ⟨own, isLink⟩
    · exact inv.single pair isPair' other wasMember same
    · have sameIssue : link = pair.2 := Option.some.inj (isLink.symm.trans same)
      rw [own, ← inv.issues.eq_of_key isPair isPair' sameIssue]
  · obtain ⟨wasOp, other⟩ := live isOp' isLive
    refine stays (inv.queued op' wasOp isLive) (.inl fun ticket => other ?_)
    rw [← opId]
    exact inv.alone op' wasOp op isOp isLive opLive (ticket.trans opTicket.symm)
  · obtain ⟨isRun', differs⟩ : other ∈ s.running ∧ other.id ≠ r.id := by simpa using isOther
    obtain ⟨op', isOp', isLive, isId, ticket⟩ := inv.running other isRun'
    refine ⟨op', ?_, isLive, isId, ticket⟩
    rw [ops]
    refine kept_mem isOp' fun own => differs ?_
    rw [inv.runOps.eq_of_key isRun' isRun (isId.symm.trans (beq_iff_eq.mp own))]
  · obtain ⟨isRun', differs⟩ : other ∈ s.running ∧ other.id ≠ r.id := by simpa using isOther
    obtain ⟨isPair', free'⟩ := inv.unwritten other isRun' link' isLink
    refine ⟨isPair', fun id member => (comes member).elim (free' id) fun new => differs ?_⟩
    obtain rfl := Option.some.inj new.2
    rw [inv.runs.eq_of_key isRun' isRun isLink isCreated]

/-! ### Syncs -/

theorem Inv.sync {link : Link} {issue : ExternalIssue} (paced : s.Paced (.sync link issue)) :
    (next lower connectors s (.sync link issue)).Inv := by
  simp only [next]
  split
  next => exact inv
  next businessId found =>
  split
  next isUpstream =>
    have written := paced (by simpa using isUpstream)
    have ops := s.desk.handle_ops lower businessId link issue
    -- A ticket for the issue is new only if the issue is not one of those created here.
    obtain ⟨more, comes⟩ :
        (∀ pair ∈ s.desk.links, pair ∈ (s.desk.handle lower businessId link issue).1.links) ∧
        ∀ pair ∈ (s.desk.handle lower businessId link issue).1.links,
          pair ∈ s.desk.links ∨ pair.2 = some link ∧ ∀ made ∈ s.created, made.2 ≠ link := by
      by_cases isLinked : ∃ id, (id, some link) ∈ s.desk.links
      · obtain ⟨id, isLinked⟩ := isLinked
        rw [Desk.links_handle_of_mem lower businessId issue isLinked]
        exact ⟨fun _ member => member, fun _ => .inl⟩
      · rw [Desk.links_handle_of_new lower businessId issue (not_exists.mp isLinked)]
        refine ⟨fun _ => List.mem_append_left _, fun pair member =>
          (List.mem_append.mp member).imp_right fun new => ?_⟩
        refine ⟨by rw [List.mem_singleton.mp new], fun made isMade same => isLinked ?_⟩
        obtain ⟨other, isOther, isLink⟩ := written made isMade same
        exact ⟨other.1, isLink ▸ isOther⟩
    refine { inv with
      keyed := inv.keyed.handle lower businessId link issue
      linked := fun pair isPair => (inv.linked pair isPair).imp_right (more _)
      single := fun pair isPair other isOther same => ?_
      alone := by rw [ops]; exact inv.alone
      queued := by rw [ops]; exact fun op isOp isLive => more _ (inv.queued op isOp isLive)
      running := by rw [ops]; exact inv.running
      unwritten := fun r isRun link' isLink => ?_ }
    · rcases comes other isOther with wasMember | ⟨new, apart⟩
      · exact inv.single pair isPair other wasMember same
      · exact absurd (Option.some.inj (same.symm.trans new)) (apart pair isPair)
    · obtain ⟨isPair, free⟩ := inv.unwritten r isRun link' isLink
      refine ⟨isPair, fun id member => ?_⟩
      rcases comes _ member with wasMember | ⟨new, apart⟩
      · exact free id wasMember
      · exact apart _ isPair (Option.some.inj new)
  next => exact inv

/-- One action keeps the invariant, when it comes at the right time. -/
theorem Inv.next {action : EscalateAction} (paced : s.Paced action) :
    (next lower connectors s action).Inv := by
  cases action with
  | enqueue businessId ticketId connectorId now => exact inv.enqueue paced
  | claim op lease now => exact inv.claim paced
  | create run externalId => exact inv.create run externalId
  | writeBack run now => exact inv.writeBack run now
  | open_ link =>
    exact { inv with known := fun pair isPair => List.mem_append_left _ (inv.known pair isPair) }
  | sync link issue => exact inv.sync paced

end

/-! ### Runs -/

/-- Nothing is queued, and these issues are upstream. -/
def start (d : Desk) (upstream : List Link) : Escalating := ⟨{ d with ops := [] }, [], upstream, []⟩

/-- Each escalated ticket gets one issue, is linked to it when its dispatch is through, and stays
the only ticket of the issue, after every step of a run in which a ticket is escalated only while no
operation of it is pending or in progress, no operation is taken twice at a time, and the issues
that were created are synced after their write-back. -/
theorem escalations_once (lower : String → String) (connectors : UUID → Option UUID) {d : Desk}
    (keyed : d.Keyed) (upstream : List Link) {actions : List EscalateAction}
    (paced : Along (next lower connectors) Paced (start d upstream) actions) :
    Along (next lower connectors) (fun s action => Escalated (next lower connectors s action))
      (start d upstream) actions := by
  have none {α : Type} {motive : α → Prop} : ∀ a ∈ ([] : List α), motive a := List.forall_mem_nil _
  have first : (start d upstream).Inv :=
    ⟨⟨List.nodup_nil, none, none⟩, { keyed with opIds := List.nodup_nil }, List.nodup_nil, .nil _,
      List.nodup_nil, List.nodup_nil, none, none, none, none, none⟩
  exact Along.of_invariant (fun s action inv paced => Inv.next inv paced)
    (fun s action inv paced => (Inv.next inv paced).toEscalated) first paced

end Escalating

open Escalating

namespace Sample

/-- Ticket 1 of business 7, not linked. -/
def nativeDesk : Desk := ⟨[⟨1, 7, "Printer", .open_, .normal, false, none⟩], [], [], []⟩

/-- All connectors are of business 7. -/
def ownConnectors (_ : UUID) : Option UUID := some 7

/-- Ticket 1 is escalated and the issue created. -/
def createdIssue : List EscalateAction := [.enqueue 7 1 5 1, .claim 1 300 2, .create 1 "P-1"]

theorem escalated_once :
    Desk.Keyed nativeDesk ∧
      Along (next id ownConnectors)
        (fun s action => Escalated (next id ownConnectors s action))
        (start nativeDesk [])
          (createdIssue ++ [.writeBack 1 3, .sync ⟨5, "P-1"⟩ (issueAt "open" 1)]) :=
  ⟨by decide +kernel,
    escalations_once id ownConnectors (by decide +kernel) [] (by decide +kernel)⟩

/-- The new issue is synced before the write-back and gets a ticket of its own; and an escalation
that is queued twice creates two issues. -/
theorem escalated_twice :
    Desk.Keyed nativeDesk ∧
      ¬ Along (next id ownConnectors)
        (fun s action => Escalated (next id ownConnectors s action))
        (start nativeDesk []) (createdIssue ++ [.sync ⟨5, "P-1"⟩ (issueAt "open" 1)]) ∧
      ¬ Along (next id ownConnectors)
        (fun s action => Escalated (next id ownConnectors s action))
        (start nativeDesk [])
        [.enqueue 7 1 5 1, .enqueue 7 1 5 1, .claim 1 300 2, .claim 2 300 2, .create 1 "P-1",
          .writeBack 1 3, .create 2 "P-2"] := by
  decide +kernel

end Sample

end Manyforge.Connectors
