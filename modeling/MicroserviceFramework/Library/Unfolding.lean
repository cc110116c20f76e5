import Mathlib.Data.List.Basic

/-!
# Unfolding named definitions

An environment gives names to definitions, and a definition uses names. What a name stands for is
the tree of everything it leads to; definitions may be recursive, so the tree is looked at to a
depth.
-/

namespace MicroserviceFramework.Library.Unfolding

variable {ν σ : Type*} (uses : σ → List ν)

/-- A name's definition, if it has one, over the trees of the names used there. -/
inductive Tree (σ : Type*) where
  | cut
  | node (said : Option σ) (below : List (Tree σ))

def unfold (env : ν → Option σ) : Nat → ν → Tree σ
  | 0, _ => .cut
  | n + 1, r => .node (env r) (((env r).elim [] uses).map (unfold env n))

/-- The names that `start` leads to. -/
inductive Reached (env : ν → Option σ) (start : List ν) : ν → Prop where
  | start {r : ν} (named : r ∈ start) : Reached env start r
  | step {r r' : ν} {s : σ} (reached : Reached env start r) (defined : env r = some s)
      (used : r' ∈ uses s) : Reached env start r'

variable {uses} {env env' : ν → Option σ} {start : List ν}

theorem Reached.unfold_eq
    (same : ∀ n, start.map (unfold uses env n) = start.map (unfold uses env' n)) {r : ν}
    (reached : Reached uses env start r) (n : Nat) : unfold uses env n r = unfold uses env' n r := by
  induction reached generalizing n with
  | start named => exact List.map_inj_left.mp (same n) _ named
  | step _ defined used ih =>
    have whole := ih (n + 1)
    rw [unfold, unfold, Tree.node.injEq] at whole
    obtain ⟨said, below⟩ := whole
    rw [← said, defined] at below
    exact List.map_inj_left.mp below _ used

theorem unfold_eq_of_reached (same : ∀ r, Reached uses env start r → env' r = env r) (n : Nat)
    {r : ν} (reached : Reached uses env start r) : unfold uses env n r = unfold uses env' n r := by
  induction n generalizing r with
  | zero => rfl
  | succ n ih =>
    rw [unfold, unfold, same r reached]
    congr 1
    cases defined : env r with
    | none => rfl
    | some s => exact List.map_congr_left fun r' used => ih (.step reached defined used)

/-- Two environments unfold the names alike, to every depth, exactly if they define alike every
name that is reached. -/
theorem unfold_eq_iff :
    (∀ n, start.map (unfold uses env n) = start.map (unfold uses env' n)) ↔
      ∀ r, Reached uses env start r → env' r = env r := by
  constructor
  · intro same r reached
    have whole := reached.unfold_eq same 1
    rw [unfold, unfold, Tree.node.injEq] at whole
    exact whole.1.symm
  · exact fun same n => List.map_congr_left fun r named =>
      unfold_eq_of_reached same n (.start named)

end MicroserviceFramework.Library.Unfolding
