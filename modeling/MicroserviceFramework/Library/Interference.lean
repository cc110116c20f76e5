import MicroserviceFramework.Library.Machine
import Mathlib.Logic.Function.Basic

/-!
# Parties that interfere through a shared state

Each party has a state of its own and acts on what all of them share. An assertion about every
party is an invariant when each party's own actions keep it and the actions of the others do not
disturb it.
-/

namespace MicroserviceFramework.Library

variable {θ σ π α : Type*}

structure Parties (θ σ π : Type*) where
  shared : σ
  party : θ → π

namespace Parties

variable [DecidableEq θ] (act : α → σ → π → σ × π)

/-- Party `l.1` acts; `l.2` is what the environment adds. -/
def step (s : Parties θ σ π) (l : θ × α) : Parties θ σ π where
  shared := (act l.2 s.shared (s.party l.1)).1
  party := Function.update s.party l.1 (act l.2 s.shared (s.party l.1)).2

def machine : Machine (Parties θ σ π) (θ × α) := ⟨fun s l => some (s.step act l)⟩

variable {act} {A : θ → σ → π → Prop} {C : Parties θ σ π → θ × α → Prop}

/-- Assertions without interference hold of all parties at the end of a run. -/
theorem interference_free
    (own : ∀ s t a, C s (t, a) → A t s.shared (s.party t) →
      A t (act a s.shared (s.party t)).1 (act a s.shared (s.party t)).2)
    (others : ∀ s t u a, u ≠ t → C s (t, a) → A u s.shared (s.party u) →
      A u (act a s.shared (s.party t)).1 (s.party u))
    {s₀ s : Parties θ σ π} {ls : List (θ × α)} (start : ∀ t, A t s₀.shared (s₀.party t))
    (along : (machine act).Along C s₀ ls) (run : (machine act).run s₀ ls = some s) (t : θ) :
    A t s.shared (s.party t) := by
  refine (machine act).run_invariant (I := fun s => ∀ t, A t s.shared (s.party t)) ?_ start along
    run t
  rintro s ⟨t, a⟩ s' holds allowed step u
  obtain rfl := Option.some.inj step
  by_cases same : u = t
  · subst same
    simpa [Parties.step] using own s u a allowed (holds u)
  · simpa [Parties.step, same] using others s t u a same allowed (holds u)

end Parties

end MicroserviceFramework.Library
