import Mathlib.Logic.Basic

/-!
# Calls that may fail

A call is a sequence of steps in `Except`, each of which may refuse. What the steps have returned
when the call returns, and what then holds of the state and of the answer.
-/
namespace Manyforge.Calls

universe u

variable {ε : Type u} {α β : Type u} {r : β}

theorem bind_ok {x : Except ε α} {f : α → Except ε β} :
    x >>= f = .ok r ↔ ∃ a, x = .ok a ∧ f a = .ok r := by
  cases x with
  | error e | ok a => simp [bind, Except.bind]

theorem isOk_iff {x : Except ε α} : x.isOk = true ↔ ∃ a, x = .ok a := by
  cases x <;> simp [Except.isOk, Except.toBool]

theorem pure_ok {a : β} : (pure a : Except ε β) = .ok r ↔ a = r := by
  simp [pure, Except.pure]

variable {c : Prop} [Decidable c] {e : ε} {x : Except ε β}

theorem refuse_ok : (if c then .error e else x) = .ok r ↔ ¬ c ∧ x = .ok r := by
  by_cases holds : c
  · simp [holds]
  · simp [holds]

theorem permit_ok : (if c then x else .error e) = .ok r ↔ c ∧ x = .ok r := by
  by_cases holds : c
  · simp [holds]
  · simp [holds]

theorem guard_ok {f : α → Except ε β} :
    (if c then throw e >>= f else x) = .ok r ↔ ¬ c ∧ x = .ok r :=
  refuse_ok

section Returns

variable {State Answer : Type u} {post : State → Answer → Prop} {s : State} {answer : Answer}

/-- What holds of the state and the answer of a call, if it returns them. -/
def Returns (post : State → Answer → Prop) (call : Except ε (State × Answer)) : Prop :=
  ∀ ⦃s answer⦄, call = .ok (s, answer) → post s answer

theorem Returns.error : Returns post (.error e) := nofun

theorem Returns.ok (holds : post s answer) :
    Returns post (.ok (s, answer) : Except ε (State × Answer)) := by
  rintro _ _ ⟨⟩
  exact holds

end Returns

end Manyforge.Calls
