import Mathlib.Data.List.Chain

/-!
# Transition systems

A system is a step relation on states. Reachability is the reflexive and
transitive closure, taken from Mathlib; a run is the list of states it visits.
The rules here turn what one step does into what every run does.
-/
namespace Transition

variable {State : Type*} {step : State → State → Prop} {inv : State → Prop}

/-- `t` is reached from `s` by finitely many steps. -/
def Reaches (step : State → State → Prop) : State → State → Prop := Relation.ReflTransGen step

/-- The states visited after `start`, in order. -/
def Run (step : State → State → Prop) (start : State) (visited : List State) : Prop :=
  List.IsChain step (start :: visited)

/-- One step keeps `inv`. -/
def Preserved (step : State → State → Prop) (inv : State → Prop) : Prop :=
  ∀ s t, step s t → inv s → inv t

variable (kept : Preserved step inv)

include kept

/-- A preserved invariant holds in every state that is reached. -/
theorem Preserved.reaches {s t : State} (run : Reaches step s t) (start : inv s) : inv t := by
  induction run with
  | refl => exact start
  | tail _ last ih => exact kept _ _ last ih

/-- What relates the two ends of each step relates the two ends of a run, when the relation
is reflexive and transitive and the steps start in invariant states. -/
theorem Preserved.related {rel : State → State → Prop} (refl : ∀ s, rel s s)
    (trans : ∀ s t u, rel s t → rel t u → rel s u) (related : ∀ s t, step s t → inv s → rel s t)
    {s t : State} (run : Reaches step s t) (start : inv s) : rel s t := by
  induction run with
  | refl => exact refl s
  | tail before last ih =>
    exact trans _ _ _ ih (related _ _ last (kept.reaches before start))

variable {start : State} {visited : List State}

omit kept in
theorem Run.reaches (run : Run step start visited) :
    ∀ s ∈ start :: visited, Reaches step start s := by
  induction visited generalizing start with
  | nil => intro s member; simp at member; subst member; exact .refl
  | cons next rest ih =>
    obtain ⟨first, tail⟩ := List.isChain_cons_cons.mp run
    intro s member
    rcases List.mem_cons.mp member with rfl | member
    · exact .refl
    · exact .head first (ih tail s member)

theorem Run.isChain {rel : State → State → Prop} (related : ∀ s t, step s t → inv s → rel s t)
    (run : Run step start visited) (invariant : inv start) : List.IsChain rel (start :: visited) := by
  induction visited generalizing start with
  | nil => exact List.isChain_singleton _
  | cons next rest ih =>
    obtain ⟨first, tail⟩ := List.isChain_cons_cons.mp run
    exact List.isChain_cons_cons.mpr
      ⟨related _ _ first invariant, ih tail (kept _ _ first invariant)⟩

/-- Any two states of a run, in order, are related by what relates the ends of each step. -/
theorem Run.pairwise {rel : State → State → Prop} (refl : ∀ s, rel s s)
    (trans : ∀ s t u, rel s t → rel t u → rel s u) (related : ∀ s t, step s t → inv s → rel s t)
    (run : Run step start visited) (invariant : inv start) : (start :: visited).Pairwise rel := by
  induction visited generalizing start with
  | nil => simp
  | cons next rest ih =>
    obtain ⟨first, tail⟩ := List.isChain_cons_cons.mp run
    refine List.pairwise_cons.mpr ⟨?_, ih tail (kept _ _ first invariant)⟩
    intro s member
    exact kept.related refl trans related (run.reaches s (List.mem_cons_of_mem _ member)) invariant

omit kept

theorem Run.restrict {p : State → Prop} (run : Run step start visited)
    (holds : ∀ s ∈ start :: visited, p s) : Run (fun s t => step s t ∧ p s) start visited := by
  induction visited generalizing start with
  | nil => exact List.isChain_singleton _
  | cons next rest ih =>
    obtain ⟨first, tail⟩ := List.isChain_cons_cons.mp run
    have later := ih tail fun s member => holds s (List.mem_cons_of_mem _ member)
    exact List.isChain_cons_cons.mpr ⟨⟨first, holds start List.mem_cons_self⟩, later⟩

/-- How often `p` turns from false to true along a list of states. -/
def switches (p : State → Bool) : List State → Nat
  | [] => 0
  | [_] => 0
  | s :: t :: rest => (if !p s && p t then 1 else 0) + switches p (t :: rest)

private theorem switches_of_true (p : State → Bool) (kept : Preserved step inv)
    (stable : ∀ s t, step s t → inv s → p s = true → p t = true) (run : Run step start visited)
    (invariant : inv start) (holds : p start = true) : switches p (start :: visited) = 0 := by
  induction visited generalizing start with
  | nil => rfl
  | cons next rest ih =>
    obtain ⟨first, tail⟩ := List.isChain_cons_cons.mp run
    have still := stable _ _ first invariant holds
    simp [switches, holds, ih tail (kept _ _ first invariant) still]

theorem switches_le_one (p : State → Bool) (kept : Preserved step inv)
    (stable : ∀ s t, step s t → inv s → p s = true → p t = true) (run : Run step start visited)
    (invariant : inv start) : switches p (start :: visited) ≤ 1 := by
  induction visited generalizing start with
  | nil => simp [switches]
  | cons next rest ih =>
    obtain ⟨first, tail⟩ := List.isChain_cons_cons.mp run
    have invariant' := kept _ _ first invariant
    cases holds : p next with
    | true =>
      have rest_zero := switches_of_true p kept stable tail invariant' holds
      simp only [switches, rest_zero]
      split <;> omega
    | false =>
      have bound := ih tail invariant'
      simp only [switches, holds, Bool.and_false]
      simpa using bound

/-! ### Labelled steps -/

section Labelled

variable {Action : Type*} {next : State → Action → State} {holds cond : State → Action → Prop}

/-- `holds` at every action of the run, of the state it is taken in. -/
def Along (next : State → Action → State) (holds : State → Action → Prop) :
    State → List Action → Prop
  | _, [] => True
  | s, action :: rest => holds s action ∧ Along next holds (next s action) rest

instance Along.instDecidable [decidable : ∀ s action, Decidable (holds s action)] :
    (s : State) → (actions : List Action) → Decidable (Along next holds s actions)
  | _, [] => inferInstanceAs (Decidable True)
  | s, action :: rest =>
    have := Along.instDecidable (next s action) rest
    inferInstanceAs (Decidable (holds s action ∧ Along next holds (next s action) rest))

variable {actions : List Action} {s : State}

/-- What the invariant gives for one step holds along the run. -/
theorem Along.of_invariant (kept : ∀ s action, inv s → cond s action → inv (next s action))
    (meets : ∀ s action, inv s → cond s action → holds s action) (start : inv s)
    (allowed : Along next cond s actions) : Along next holds s actions := by
  induction actions generalizing s with
  | nil => trivial
  | cons action rest ih =>
    obtain ⟨now, later⟩ := allowed
    exact ⟨meets s action start now, ih (kept s action start now) later⟩

theorem Along.of_kept (kept : ∀ s action, inv s → inv (next s action))
    (meets : ∀ s action, inv s → holds s action)
    (start : inv s) (actions : List Action) : Along next holds s actions := by
  induction actions generalizing s with
  | nil => trivial
  | cons action rest ih => exact ⟨meets s action start, ih (kept s action start)⟩

/-- Where an action has the property exactly under a condition, and actions that meet the condition
keep the invariant, a run has the property throughout exactly when it meets the condition
throughout. -/
theorem Along.iff_of_cond (decided : ∀ s action, inv s → (holds s action ↔ cond s action))
    (kept : ∀ s action, inv s → cond s action → inv (next s action)) (start : inv s) :
    Along next holds s actions ↔ Along next cond s actions := by
  induction actions generalizing s with
  | nil => exact Iff.rfl
  | cons action rest ih =>
    constructor
    · rintro ⟨now, later⟩
      have allowed := (decided s action start).mp now
      exact ⟨allowed, (ih (kept s action start allowed)).mp later⟩
    · rintro ⟨allowed, later⟩
      exact ⟨(decided s action start).mpr allowed, (ih (kept s action start allowed)).mpr later⟩

theorem Along.congr (kept : ∀ s action, inv s → inv (next s action))
    (agree : ∀ s action, inv s → (holds s action ↔ cond s action)) (start : inv s) :
    Along next holds s actions ↔ Along next cond s actions :=
  iff_of_cond agree (fun s action invariant _ => kept s action invariant) start

/-- Where an action leads to a good state exactly under a condition on the state before it, a run
stays in good states exactly when every action meets the condition. -/
theorem Along.iff_of_step (good : State → Prop)
    (decided : ∀ s action, inv s → good s → (good (next s action) ↔ cond s action))
    (kept : ∀ s action, inv s → inv (next s action)) (start : inv s) (first : good s) :
    Along next (fun s action => good (next s action)) s actions ↔ Along next cond s actions :=
  have both (s : State) (action : Action) (here : inv s ∧ good s) :
      good (next s action) ↔ cond s action :=
    decided s action here.1 here.2
  iff_of_cond both (fun s action here met => ⟨kept s action here.1, (both s action here).mpr met⟩)
    ⟨start, first⟩

theorem Along.and (first : Along next holds s actions) (second : Along next cond s actions) :
    Along next (fun s action => holds s action ∧ cond s action) s actions := by
  induction actions generalizing s with
  | nil => trivial
  | cons action rest ih => exact ⟨⟨first.1, second.1⟩, ih first.2 second.2⟩

theorem Along.proj {Shadow : Type*} {proj : State → Shadow} {next' : Shadow → Action → Shadow}
    {holds' : Shadow → Action → Prop}
    (commutes : ∀ s action, proj (next s action) = next' (proj s) action) :
    Along next (fun s action => holds' (proj s) action) s actions ↔
      Along next' holds' (proj s) actions := by
  induction actions generalizing s with
  | nil => exact Iff.rfl
  | cons action rest ih =>
    refine and_congr Iff.rfl ?_
    rw [← commutes]
    exact ih

theorem Along.iff_forall :
    Along next holds s actions ↔
      ∀ before action after, actions = before ++ action :: after →
        holds (before.foldl next s) action := by
  induction actions generalizing s with
  | nil => simp [Along]
  | cons first rest ih =>
    constructor
    · rintro ⟨now, later⟩ before action after same
      cases before with
      | nil =>
        obtain ⟨rfl, rfl⟩ := List.cons.inj same
        exact now
      | cons _ before =>
        obtain ⟨rfl, tail⟩ := List.cons.inj same
        exact ih.mp later before action after tail
    · intro each
      refine ⟨each [] first rest rfl, ih.mpr fun before action after same => ?_⟩
      exact each (first :: before) action after (by rw [same]; rfl)

end Labelled

end Transition
