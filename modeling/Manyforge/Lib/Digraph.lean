import Mathlib.Data.Fintype.EquivFin
import Mathlib.Tactic.Linarith

/-!
# Work-list algorithms on finite directed graphs

A graph is the list of its edges. `drain` is the loop both algorithms share: take
the first vertex of the queue, visit it, append what the visit found. Topological
sorting (`kahnOrder`) and breadth-first search (`reachableFrom`) are instances.
The loop runs on fuel; `drain_empties` says when the fuel is enough.
-/
namespace Digraph

variable {V : Type*} {Aux : Type*}

/-- The auxiliary state, the queue, and the vertices taken from it so far. -/
structure Work (V Aux : Type*) where
  aux : Aux
  queue : List V
  done : List V

def drain (visit : Aux → V → Aux × List V) : Nat → Work V Aux → Work V Aux
  | 0, work => work
  | fuel + 1, work =>
    match work.queue with
    | [] => work
    | id :: queue =>
      let visited := visit work.aux id
      drain visit fuel ⟨visited.1, queue ++ visited.2, work.done ++ [id]⟩

/-- What visiting the first queued vertex preserves holds at the end of the loop. -/
theorem drain_invariant {visit : Aux → V → Aux × List V} {inv : Work V Aux → Prop}
    (kept : ∀ aux id queue done, inv ⟨aux, id :: queue, done⟩ →
      inv ⟨(visit aux id).1, queue ++ (visit aux id).2, done ++ [id]⟩)
    (fuel : Nat) (work : Work V Aux) (start : inv work) : inv (drain visit fuel work) := by
  induction fuel generalizing work with
  | zero => exact start
  | succ fuel ih =>
    obtain ⟨aux, queue, done⟩ := work
    cases queue with
    | nil => exact start
    | cons id queue => exact ih _ (kept aux id queue done start)

private theorem drain_empties_or_counts (visit : Aux → V → Aux × List V) (fuel : Nat)
    (work : Work V Aux) :
    (drain visit fuel work).queue = [] ∨
      (drain visit fuel work).done.length = work.done.length + fuel := by
  induction fuel generalizing work with
  | zero => right; rfl
  | succ fuel ih =>
    obtain ⟨aux, queue, done⟩ := work
    cases queue with
    | nil => left; rfl
    | cons id queue =>
      rcases ih ⟨(visit aux id).1, queue ++ (visit aux id).2, done ++ [id]⟩ with empty | counted
      · left; exact empty
      · right
        simp only [drain, List.length_append, List.length_singleton] at counted ⊢
        omega

/-- When no vertex is queued twice and all come from `vertices`, one unit of fuel for each of its
vertices empties the queue. -/
theorem drain_empties (vertices : List V) {visit : Aux → V → Aux × List V} {inv : Work V Aux → Prop}
    (kept : ∀ aux id queue done, inv ⟨aux, id :: queue, done⟩ →
      inv ⟨(visit aux id).1, queue ++ (visit aux id).2, done ++ [id]⟩) (bounded : ∀ work, inv work →
      (work.done ++ work.queue).Nodup ∧ work.done ++ work.queue ⊆ vertices) (fuel : Nat)
    (enough : vertices.length ≤ fuel) (work : Work V Aux) (start : inv work) :
    (drain visit fuel work).queue = [] := by
  rcases drain_empties_or_counts visit fuel work with empty | counted
  · exact empty
  · obtain ⟨nodup, subset⟩ := bounded _ (drain_invariant kept fuel work start)
    have length := (List.subperm_of_subset nodup subset).length_le
    rw [List.length_append] at length
    exact List.length_eq_zero_iff.mp (by omega)

variable [DecidableEq V]

/-- The targets of the edges that leave `id`, in the order of the edges. -/
def succs (edges : List (V × V)) (id : V) : List V :=
  (edges.filter fun edge => edge.1 = id).map (·.2)

variable {edges : List (V × V)}

theorem mem_succs {u v : V} : v ∈ succs edges u ↔ (u, v) ∈ edges := by
  simp [succs]

theorem succs_cons (a b : V) (edges : List (V × V)) (id : V) :
    succs ((a, b) :: edges) id = if a = id then b :: succs edges id else succs edges id := by
  by_cases same : a = id <;> simp [succs, same]

/-! ### Topological sorting -/

/-- Take one incoming edge from `target`, and queue it when none is left. -/
def relax (state : (V → Int) × List V) (target : V) : (V → Int) × List V :=
  let degree := Function.update state.1 target (state.1 target - 1)
  if degree target = 0 then (degree, state.2 ++ [target]) else (degree, state.2)

def kahnVisit (edges : List (V × V)) (degree : V → Int) (id : V) : (V → Int) × List V :=
  (succs edges id).foldl relax (degree, [])

def indegree (edges : List (V × V)) (id : V) : Int := edges.countP fun edge => edge.2 = id

/-- The vertices in the order in which the loop takes them from its queue. -/
def kahnOrder (nodes : List V) (edges : List (V × V)) : List V :=
  (drain (kahnVisit edges) nodes.length
    ⟨indegree edges, nodes.filter fun id => indegree edges id = 0, []⟩).done

/-- Relaxing all of `targets`, each at most as often as its degree allows, lowers the degrees and
queues exactly the targets that reach zero, once. -/
theorem foldl_relax (targets : List V) (degree : V → Int) (queued : List V)
    (enough : ∀ v, (targets.count v : Int) ≤ degree v) :
    (∀ v, (targets.foldl relax (degree, queued)).1 v = degree v - targets.count v) ∧
    ∃ new, (targets.foldl relax (degree, queued)).2 = queued ++ new ∧ new.Nodup ∧
      ∀ v, v ∈ new ↔ v ∈ targets ∧ degree v = targets.count v := by
  induction targets generalizing degree queued with
  | nil => exact ⟨by simp, [], by simp, List.nodup_nil, by simp⟩
  | cons target rest ih =>
    let lowered := Function.update degree target (degree target - 1)
    have at_target : lowered target = degree target - 1 := Function.update_self ..
    have elsewhere : ∀ v, v ≠ target → lowered v = degree v := fun v other =>
      Function.update_of_ne other ..
    have count_target : (target :: rest).count target = rest.count target + 1 :=
      List.count_cons_self
    have count_other : ∀ v, v ≠ target → (target :: rest).count v = rest.count v := fun v other =>
      List.count_cons_of_ne (Ne.symm other)
    have enough' : ∀ v, (rest.count v : Int) ≤ lowered v := by
      intro v
      have bound := enough v
      by_cases same : v = target
      · subst same; rw [at_target]; rw [count_target] at bound; push_cast at bound; omega
      · rw [elsewhere v same]; rw [count_other v same] at bound; exact bound
    have degrees : ∀ v, lowered v - rest.count v = degree v - (target :: rest).count v := by
      intro v
      by_cases same : v = target
      · subst same; rw [at_target, count_target]; push_cast; omega
      · rw [elsewhere v same, count_other v same]
    rw [List.foldl_cons]
    by_cases zero : lowered target = 0
    · -- The last incoming edge of `target`: it is queued now and not again.
      have step : relax (degree, queued) target = (lowered, queued ++ [target]) := by
        simp only [relax]; exact if_pos zero
      have none_left : rest.count target = 0 := by
        have := enough' target; omega
      obtain ⟨lower, new, appended, nodup, members⟩ := ih lowered (queued ++ [target]) enough'
      rw [step]
      refine ⟨fun v => (lower v).trans (degrees v), target :: new, by simp [appended], ?_, ?_⟩
      · refine List.nodup_cons.mpr ⟨fun member => ?_, nodup⟩
        exact List.count_eq_zero.mp none_left ((members target).mp member).1
      · intro v
        by_cases same : v = target
        · subst same
          have : degree v = ((v :: rest).count v : Int) := by rw [count_target]; push_cast; omega
          simp [this]
        · simp only [List.mem_cons, same, false_or]
          rw [members v, elsewhere v same, count_other v same]
    · have step : relax (degree, queued) target = (lowered, queued) := by
        simp only [relax]; exact if_neg zero
      obtain ⟨lower, new, appended, nodup, members⟩ := ih lowered queued enough'
      rw [step]
      refine ⟨fun v => (lower v).trans (degrees v), new, appended, nodup, ?_⟩
      intro v
      rw [members v]
      by_cases same : v = target
      · subst same
        have positive : v ∈ rest ↔ 0 < rest.count v := List.count_pos_iff.symm
        rw [at_target, count_target, positive]
        simp only [List.mem_cons, true_or, true_and]
        have bound := enough' v
        rw [at_target] at bound zero
        push_cast
        omega
      · rw [elsewhere v same, count_other v same]
        simp [same]

private theorem countP_remaining (edges : List (V × V)) (done : List V) (id v : V)
    (fresh : id ∉ done) :
    edges.countP (fun edge => edge.2 = v ∧ edge.1 ∉ done) =
      (succs edges id).count v + edges.countP (fun edge => edge.2 = v ∧ edge.1 ∉ done ++ [id]) := by
  induction edges with
  | nil => simp [succs]
  | cons edge rest ih =>
    obtain ⟨a, b⟩ := edge
    rw [List.countP_cons, List.countP_cons, ih, succs_cons]
    generalize rest.countP _ = remaining
    by_cases from_id : a = id
    · subst from_id
      by_cases into_v : b = v
      · subst into_v; simp [fresh]; omega
      · simp [into_v]
    · by_cases into_v : b = v
      · subst into_v
        by_cases finished : a ∈ done
        · simp [from_id, finished]
        · simp [from_id, finished]; omega
      · simp [from_id, into_v]

/-- The loop invariant of topological sorting: the degrees count the edges whose source is still
to be taken, the vertices taken or queued are those of degree zero, and each comes after its
predecessors. -/
structure KahnInvariant (nodes : List V) (edges : List (V × V)) (work : Work V (V → Int)) :
    Prop where
  nodup : (work.done ++ work.queue).Nodup
  degree : ∀ v, work.aux v = edges.countP fun edge => edge.2 = v ∧ edge.1 ∉ work.done
  zero : ∀ v, v ∈ work.done ++ work.queue ↔ v ∈ nodes ∧ work.aux v = 0
  ordered : ∀ u v, (u, v) ∈ edges → v ∈ work.done ++ work.queue →
    u ∈ work.done ++ work.queue ∧
      (work.done ++ work.queue).idxOf u < (work.done ++ work.queue).idxOf v

variable {nodes : List V}

theorem KahnInvariant.visit (targets : ∀ edge ∈ edges, edge.2 ∈ nodes) (degree : V → Int) (id : V)
    (queue done : List V) (inv : KahnInvariant nodes edges ⟨degree, id :: queue, done⟩) :
    KahnInvariant nodes edges
      ⟨(kahnVisit edges degree id).1, queue ++ (kahnVisit edges degree id).2, done ++ [id]⟩ := by
  obtain ⟨nodup, counted, zero, ordered⟩ := inv
  simp only [] at nodup counted zero ordered
  have fresh : id ∉ done := by
    intro member
    exact List.disjoint_of_nodup_append nodup member (by simp)
  have split : ∀ v, degree v = (succs edges id).count v +
      (edges.countP (fun edge => edge.2 = v ∧ edge.1 ∉ done ++ [id]) : Int) := by
    intro v
    rw [counted v, countP_remaining edges done id v fresh]
    push_cast
    rfl
  obtain ⟨lowered, new, appended, new_nodup, members⟩ :=
    foldl_relax (succs edges id) degree [] (fun v => by rw [split v]; omega)
  rw [List.nil_append] at appended
  have reassociate : (done ++ [id]) ++ (queue ++ new) = (done ++ id :: queue) ++ new := by simp
  have visited : kahnVisit edges degree id = ((kahnVisit edges degree id).1, new) :=
    Prod.ext rfl appended
  -- A target that is queued now had a positive degree before, so it is not queued already.
  have unseen : ∀ v ∈ new, v ∉ done ++ id :: queue := by
    intro v member already
    have positive := List.count_pos_iff.mpr ((members v).mp member).1
    have nothing := ((zero v).mp already).2
    have := ((members v).mp member).2
    omega
  have finished : ∀ u v, (u, v) ∈ edges → degree v = (succs edges id).count v → u ∈ done ++ [id] := by
    intro u v edge exhausted
    have none : edges.countP (fun edge => edge.2 = v ∧ edge.1 ∉ done ++ [id]) = 0 := by
      have := split v; omega
    by_contra missing
    exact List.countP_eq_zero.mp none (u, v) edge (by simpa using missing)
  rw [visited]
  refine ⟨?_, ?_, ?_, ?_⟩
  · simp only [reassociate]
    exact List.Nodup.append nodup new_nodup fun v old member => unseen v member old
  · intro v
    have := split v
    simp only [kahnVisit, lowered v]
    omega
  · intro v
    have bound := split v
    simp only [reassociate, kahnVisit, lowered v]
    rw [List.mem_append, zero v, members v]
    constructor
    · rintro (⟨node, nothing⟩ | ⟨target, exhausted⟩)
      · exact ⟨node, by omega⟩
      · exact ⟨targets _ (mem_succs.mp target), by omega⟩
    · rintro ⟨node, exhausted⟩
      by_cases target : v ∈ succs edges id
      · exact .inr ⟨target, by omega⟩
      · have := List.count_eq_zero.mpr target
        exact .inl ⟨node, by omega⟩
  · intro u v edge member
    simp only [reassociate] at member ⊢
    by_cases old : v ∈ done ++ id :: queue
    · obtain ⟨u_old, before⟩ := ordered u v edge old
      refine ⟨List.mem_append_left _ u_old, ?_⟩
      rw [List.idxOf_append_of_mem u_old, List.idxOf_append_of_mem old]
      exact before
    · have added : v ∈ new := (List.mem_append.mp member).resolve_left old
      have source := finished u v edge ((members v).mp added).2
      have u_old : u ∈ done ++ id :: queue := by
        simp only [List.mem_append, List.mem_cons] at source ⊢
        tauto
      refine ⟨List.mem_append_left _ u_old, ?_⟩
      rw [List.idxOf_append_of_mem u_old, List.idxOf_append_of_notMem old]
      have := List.idxOf_lt_length_iff.mpr u_old
      omega

theorem KahnInvariant.start (nodup : nodes.Nodup) :
    KahnInvariant nodes edges
      ⟨indegree edges, nodes.filter fun id => indegree edges id = 0, []⟩ where
  nodup := nodup.filter _
  degree v := by simp [indegree]
  zero v := by simp
  ordered u v edge member := by
    have isolated : indegree edges v = 0 := by simpa using (List.mem_filter.mp member).2
    have none := List.countP_eq_zero.mp (Int.natCast_eq_zero.mp isolated) (u, v) edge
    simp at none

/-- When the loop takes as many vertices as there are, the graph has no cycle: the position in the
order grows along every edge. -/
theorem kahnOrder_rank (nodup : nodes.Nodup) (targets : ∀ edge ∈ edges, edge.2 ∈ nodes)
    (complete : (kahnOrder nodes edges).length = nodes.length) {u v : V} (edge : (u, v) ∈ edges) :
    (kahnOrder nodes edges).idxOf u < (kahnOrder nodes edges).idxOf v ∧
      (kahnOrder nodes edges).idxOf v < nodes.length := by
  have start : KahnInvariant nodes edges _ := KahnInvariant.start nodup
  have inv := drain_invariant (KahnInvariant.visit targets) nodes.length _ start
  obtain ⟨all_nodup, -, zero, ordered⟩ := inv
  rw [kahnOrder] at complete ⊢
  generalize drain (kahnVisit edges) nodes.length _ = work at *
  have subset : work.done ++ work.queue ⊆ nodes := fun w member => ((zero w).mp member).1
  have perm := List.subperm_of_subset all_nodup subset
  have empty : work.queue = [] := by
    have := perm.length_le
    rw [List.length_append] at this
    exact List.length_eq_zero_iff.mp (by omega)
  rw [empty, List.append_nil] at perm ordered
  have all : v ∈ work.done :=
    (perm.perm_of_length_le (by omega)).mem_iff.mpr (targets _ edge)
  exact ⟨(ordered u v edge all).2, by rw [← complete]; exact List.idxOf_lt_length_iff.mpr all⟩

/-! ### Breadth-first search -/

/-- Mark and queue a target that has not been seen. -/
def discover (state : List V × List V) (target : V) : List V × List V :=
  if target ∈ state.1 then state else (state.1 ++ [target], state.2 ++ [target])

def bfsVisit (edges : List (V × V)) (seen : List V) (id : V) : List V × List V :=
  (succs edges id).foldl discover (seen, [])

/-- The vertices a breadth-first search from `root` sees. -/
def reachableFrom (edges : List (V × V)) (root : V) : List V :=
  (drain (bfsVisit edges) (edges.length + 1) ⟨[root], [root], []⟩).aux

theorem foldl_discover (targets seen queued : List V) (nodup : seen.Nodup) :
    ∃ new, targets.foldl discover (seen, queued) = (seen ++ new, queued ++ new) ∧
      (seen ++ new).Nodup ∧ (∀ v ∈ new, v ∈ targets) ∧ ∀ v ∈ targets, v ∈ seen ++ new := by
  induction targets generalizing seen queued with
  | nil => exact ⟨[], by simp, by simpa using nodup, by simp, by simp⟩
  | cons target rest ih =>
    rw [List.foldl_cons]
    by_cases known : target ∈ seen
    · obtain ⟨new, folded, nodup', found, all⟩ := ih seen queued nodup
      refine ⟨new, by simpa [discover, known] using folded, nodup', ?_, ?_⟩
      · exact fun v member => List.mem_cons_of_mem _ (found v member)
      · intro v member
        rcases List.mem_cons.mp member with rfl | member
        · exact List.mem_append_left _ known
        · exact all v member
    · have nodup₁ : (seen ++ [target]).Nodup :=
        List.Nodup.append nodup (List.nodup_singleton _) (by simpa using known)
      obtain ⟨new, folded, nodup', found, all⟩ := ih (seen ++ [target]) (queued ++ [target]) nodup₁
      refine ⟨target :: new, by simpa [discover, known] using folded, by simpa using nodup', ?_, ?_⟩
      · intro v member
        rcases List.mem_cons.mp member with rfl | member
        · simp
        · exact List.mem_cons_of_mem _ (found v member)
      · intro v member
        rcases List.mem_cons.mp member with rfl | member
        · simp
        · simpa using all v member

def Adjacent (edges : List (V × V)) (u v : V) : Prop := (u, v) ∈ edges

structure BfsInvariant (edges : List (V × V)) (root : V) (work : Work V (List V)) : Prop where
  seen : work.aux = work.done ++ work.queue
  nodup : work.aux.Nodup
  root_seen : root ∈ work.aux
  reached : ∀ v ∈ work.aux, Relation.ReflTransGen (Adjacent edges) root v
  closed : ∀ u ∈ work.done, ∀ v, Adjacent edges u v → v ∈ work.aux

theorem BfsInvariant.visit {root : V} (seen : List V) (id : V) (queue done : List V)
    (inv : BfsInvariant edges root ⟨seen, id :: queue, done⟩) :
    BfsInvariant edges root
      ⟨(bfsVisit edges seen id).1, queue ++ (bfsVisit edges seen id).2, done ++ [id]⟩ := by
  obtain ⟨listed, nodup, root_seen, reached, closed⟩ := inv
  simp only [] at listed nodup root_seen reached closed
  obtain ⟨new, folded, nodup', found, all⟩ := foldl_discover (succs edges id) seen [] nodup
  have visited : bfsVisit edges seen id = (seen ++ new, new) := by simpa [bfsVisit] using folded
  have id_reached := reached id (by rw [listed]; simp)
  rw [visited]
  refine ⟨by simp [listed], nodup', List.mem_append_left _ root_seen, ?_, ?_⟩
  · intro v member
    rcases List.mem_append.mp member with old | added
    · exact reached v old
    · exact id_reached.tail (mem_succs.mp (found v added))
  · intro u finished v edge
    rcases List.mem_append.mp finished with old | current
    · exact List.mem_append_left _ (closed u old v edge)
    · simp only [List.mem_singleton] at current
      subst current
      exact all v (mem_succs.mpr edge)

/-- Breadth-first search sees exactly the vertices that can be reached. -/
theorem mem_reachableFrom {root v : V} :
    v ∈ reachableFrom edges root ↔ Relation.ReflTransGen (Adjacent edges) root v := by
  have start : BfsInvariant edges root ⟨[root], [root], []⟩ :=
    ⟨rfl, by simp, by simp, by simp [Relation.ReflTransGen.refl], by simp⟩
  have inv := drain_invariant BfsInvariant.visit (edges.length + 1) _ start
  have empty := drain_empties (root :: edges.map (·.2)) BfsInvariant.visit
    (fun work inv => ?_) (edges.length + 1) (by simp) _ start
  · unfold reachableFrom
    generalize drain (bfsVisit edges) (edges.length + 1) _ = work at *
    constructor
    · exact inv.reached v
    · intro path
      induction path with
      | refl => exact inv.root_seen
      | tail _ edge ih =>
        refine inv.closed _ ?_ _ edge
        have listed := inv.seen
        rw [empty, List.append_nil] at listed
        exact listed ▸ ih
  · rw [← inv.seen]
    refine ⟨inv.nodup, fun w member => ?_⟩
    rcases (inv.reached w member).cases_tail with rfl | ⟨u, -, edge⟩
    · simp
    · exact List.mem_cons_of_mem _ (List.mem_map.mpr ⟨(u, w), edge, rfl⟩)

/-! ### Cycles -/

/-- The loop takes as many vertices as there are exactly when no vertex can be reached from itself;
the order in which the vertices are listed does not matter. -/
theorem kahnOrder_length_iff (nodup : nodes.Nodup)
    (ends : ∀ edge ∈ edges, edge.1 ∈ nodes ∧ edge.2 ∈ nodes) :
    (kahnOrder nodes edges).length = nodes.length ↔ ∀ v, ¬ Relation.TransGen (Adjacent edges) v v := by
  have targets : ∀ edge ∈ edges, edge.2 ∈ nodes := fun edge member => (ends edge member).2
  constructor
  · intro complete v cycle
    have grows : ∀ {u w}, Relation.TransGen (Adjacent edges) u w →
        (kahnOrder nodes edges).idxOf u < (kahnOrder nodes edges).idxOf w := by
      intro u w path
      induction path with
      | single edge => exact (kahnOrder_rank nodup targets complete edge).1
      | tail _ edge ih => exact ih.trans (kahnOrder_rank nodup targets complete edge).1
    exact Nat.lt_irrefl _ (grows cycle)
  · intro acyclic
    have start : KahnInvariant nodes edges _ := KahnInvariant.start nodup
    have inv := drain_invariant (KahnInvariant.visit targets) nodes.length _ start
    have empty := drain_empties nodes (KahnInvariant.visit targets)
      (fun work inv =>
        ⟨inv.nodup, fun v member => ((inv.zero v).mp member).1⟩) nodes.length le_rfl _ start
    rw [kahnOrder]
    generalize drain (kahnVisit edges) nodes.length _ = work at *
    obtain ⟨distinct, degree, zero, -⟩ := inv
    rw [empty, List.append_nil] at distinct zero
    -- A vertex that is left over has a predecessor that is left over, so the least one has none.
    have preceded : ∀ v ∈ nodes, v ∉ work.done → ∃ u, (u, v) ∈ edges ∧ u ∉ work.done := by
      intro v node isLeft
      by_contra none
      refine isLeft ((zero v).mpr ⟨node, ?_⟩)
      rw [degree v, Int.natCast_eq_zero, List.countP_eq_zero]
      rintro ⟨u, w⟩ edge counted
      obtain ⟨rfl, outside⟩ : w = v ∧ u ∉ work.done := by simpa using counted
      exact none ⟨u, edge, outside⟩
    have all : ∀ v ∈ nodes, v ∈ work.done := by
      intro v node
      by_contra isLeft
      have irrefl : Std.Irrefl fun a b : {v // v ∈ nodes} => Relation.TransGen (Adjacent edges) a.1 b.1 :=
        ⟨fun a => acyclic a.1⟩
      have trans : IsTrans {v // v ∈ nodes} fun a b => Relation.TransGen (Adjacent edges) a.1 b.1 :=
        ⟨fun _ _ _ => Relation.TransGen.trans⟩
      have wf := Finite.wellFounded_of_trans_of_irrefl fun a b : {v // v ∈ nodes} =>
        Relation.TransGen (Adjacent edges) a.1 b.1
      obtain ⟨⟨m, isNode⟩, outside, least⟩ := wf.has_min {a | a.1 ∉ work.done} ⟨⟨v, node⟩, isLeft⟩
      obtain ⟨u, edge, before⟩ := preceded m isNode outside
      exact least ⟨u, (ends _ edge).1⟩ before (.single edge)
    refine ((List.perm_ext_iff_of_nodup distinct nodup).mpr fun v => ?_).length_eq
    exact ⟨fun member => ((zero v).mp member).1, all v⟩

end Digraph
