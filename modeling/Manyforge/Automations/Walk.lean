import Manyforge.Automations.ValidGraph
import Mathlib.Data.List.Chain

/-!
# Walks on a graph

What an enrollment is for: a token that walks along the edges of the graph, may
rest once at each node, and ends. On a graph without issues the walk cannot come
back to a node, so it ends after at most one visit to each.
-/
namespace Manyforge

open Validate

/-- Where an enrollment stands: the nodes it has completed, in order, the node whose wait has
begun, and the node it is at, until it has ended. -/
structure Walk where
  done : List String
  (waiting current : Option String)

namespace Walk

variable {graph : Graph}

def path (w : Walk) : List String := w.done ++ w.current.toList

inductive Progresses (graph : Graph) : Walk → Walk → Prop
  | park (done : List String) (node : String) :
      Progresses graph ⟨done, none, some node⟩ ⟨done, some node, some node⟩
  | go (done : List String) (waiting : Option String) (node next : String)
      (edge : graph.Adjacent node next) :
      Progresses graph ⟨done, waiting, some node⟩ ⟨done ++ [node], none, some next⟩
  | finish (done : List String) (waiting : Option String) (node : String) :
      Progresses graph ⟨done, waiting, some node⟩ ⟨done ++ [node], none, none⟩

/-- A walk progresses, or ends where it is: it failed for good or was taken out. -/
inductive Moves (graph : Graph) : Walk → Walk → Prop
  | progress {w w' : Walk} (progress : Progresses graph w w') : Moves graph w w'
  | leave (w : Walk) : Moves graph w { w with current := none }

structure OnPath (graph : Graph) (start : String) (w : Walk) : Prop where
  starts : ∀ first ∈ w.path.head?, first = start
  known : ∀ id ∈ w.path, hasNode graph id = true
  chain : w.path.IsChain graph.Adjacent
  waiting : ∀ node ∈ w.waiting, w.current = none ∨ w.current = some node

theorem OnPath.begin {start : String} (known : hasNode graph start = true) :
    OnPath graph start ⟨[], none, some start⟩ where
  starts := by simp [path]
  known := by simpa [path] using known
  chain := by simp [path]
  waiting := by simp

theorem OnPath.moves {rt : Runtime} {refs : References} (valid : ValidGraph rt refs graph)
    {start : String} {w w' : Walk} (on : OnPath graph start w) (move : Moves graph w w') :
    OnPath graph start w' := by
  obtain ⟨starts, known, chain, waiting⟩ := on
  cases move with
  | progress progress =>
    cases progress with
    | park done node => exact ⟨starts, known, chain, by simp⟩
    | go done _ node next edge =>
      simp only [path, Option.toList_some] at starts known chain
      refine ⟨?_, ?_, ?_, by simp⟩
      · cases done <;> simpa [path] using starts
      · intro id member
        simp only [path, Option.toList_some, List.mem_append, List.mem_singleton] at member
        rcases member with (member | rfl) | rfl
        · exact known id (by simp [member])
        · exact known id (by simp)
        · exact (valid.adjacent_known edge).2
      · simp only [path, Option.toList_some]
        refine List.isChain_append.mpr ⟨chain, by simp, ?_⟩
        simpa using edge
    | finish done _ node => exact ⟨by simpa [path] using starts, by simpa [path] using known,
        by simpa [path] using chain, by simp⟩
  | leave =>
    refine ⟨fun first member => starts first ?_, fun id member => known id ?_, ?_, by simp⟩
    · simp only [path, Option.toList_none, List.append_nil] at member
      simp [path, List.head?_append, Option.mem_def.mp member]
    · simp only [path, Option.toList_none, List.append_nil] at member
      exact List.mem_append_left _ member
    · simpa [path] using (List.isChain_append.mp chain).1

theorem Moves.done_subset {w w' : Walk} (move : Moves graph w w') : w.done ⊆ w'.done := by
  cases move with
  | progress progress => cases progress <;> simp
  | leave => simp

theorem done_subset_of_moves {w w' : Walk} (moves : Relation.ReflTransGen (Moves graph) w w') :
    w.done ⊆ w'.done := by
  induction moves with
  | refl => exact List.Subset.refl _
  | tail _ move ih => exact List.Subset.trans ih move.done_subset

section Bounded

variable {rt : Runtime} {refs : References} (valid : ValidGraph rt refs graph) {start : String}
  {w : Walk}
  (on : OnPath graph start w)

include valid on

/-- The rank grows along the walk, so it visits no node twice. -/
theorem OnPath.nodup : w.path.Nodup := by
  have ranked : (w.path.map graph.rank).IsChain (· < ·) :=
    List.isChain_map_of_isChain graph.rank (fun _ _ edge => valid.rank_lt edge) on.chain
  have increasing : (w.path.map graph.rank).Pairwise (· < ·) := List.isChain_iff_pairwise.mp ranked
  have distinct : (w.path.map graph.rank).Nodup := increasing.imp Nat.ne_of_lt
  exact distinct.of_map _

theorem OnPath.length_le : w.path.length ≤ graph.nodes.length := by
  have subset : w.path ⊆ graph.nodes.map (·.id) := by
    intro id member
    obtain ⟨node, node_mem, same⟩ := hasNode_iff.mp (on.known id member)
    exact List.mem_map.mpr ⟨node, node_mem, same⟩
  have bound := (List.subperm_of_subset (on.nodup valid) subset).length_le
  simpa using bound

theorem OnPath.current_fresh {node : String} (current : w.current = some node) : node ∉ w.done := by
  have nodup := on.nodup valid
  simp only [path, current, Option.toList_some, List.nodup_append, List.mem_singleton] at nodup
  exact fun member => nodup.2.2 node member node rfl rfl

/-- The moves a walk can still make: to begin and to end each visit. -/
def remaining (graph : Graph) (w : Walk) : Nat :=
  2 * (graph.nodes.length - w.done.length) - w.waiting.toList.length

omit valid on in
theorem remaining_le : w.remaining graph ≤ 2 * graph.nodes.length := by
  unfold remaining
  omega

theorem Progresses.remaining_lt {w' : Walk} (progress : Progresses graph w w') :
    w'.remaining graph < w.remaining graph := by
  have bound := on.length_le valid
  cases progress with
  | park done node =>
    simp only [path, List.length_append, Option.toList_some, List.length_singleton] at bound
    simp only [remaining, Option.toList_some, Option.toList_none, List.length_singleton,
      List.length_nil]
    omega
  | go done waiting | finish done waiting =>
    simp only [path, List.length_append, Option.toList_some, List.length_singleton] at bound
    have one : waiting.toList.length ≤ 1 := by cases waiting <;> simp
    simp only [remaining, Option.toList_none, List.length_append, List.length_singleton,
      List.length_nil]
    omega

theorem OnPath.progress {w' : Walk} (progress : Relation.TransGen (Progresses graph) w w') :
    OnPath graph start w' ∧ w'.remaining graph < w.remaining graph := by
  induction progress with
  | single step => exact ⟨on.moves valid (.progress step), step.remaining_lt valid on⟩
  | tail _ step ih =>
    exact ⟨ih.1.moves valid (.progress step), (step.remaining_lt valid ih.1).trans ih.2⟩

theorem OnPath.ended (nothing : w.remaining graph = 0) : w.current = none := by
  cases current : w.current with
  | none => rfl
  | some node =>
    have bound := on.length_le valid
    have one : w.waiting.toList.length ≤ 1 := by cases w.waiting <;> simp
    simp only [path, current, List.length_append, Option.toList_some, List.length_singleton] at bound
    simp only [remaining] at nothing
    omega

end Bounded

end Walk

end Manyforge
