import Mathlib.Algebra.Group.Nat.Defs
import Mathlib.Data.Nat.Find
import Mathlib.Logic.Function.Iterate
import Mathlib.Tactic.Common

/-!
# How long an iteration goes on

A loop applies a function until a condition holds. If it holds at last, the number of rounds that
are left goes down by one in each of them. A counter of 32 bits that goes up by a constant may wrap.
-/

namespace MicroserviceFramework.Library.Countdown

variable {α : Type*} {f : α → α} {p : α → Prop} [DecidablePred p]

/-- How often `f` is applied before `p` holds. -/
def rounds (ends : ∀ a, ∃ k, p (f^[k] a)) (a : α) : Nat := Nat.find (ends a)

theorem rounds_le (ends : ∀ a, ∃ k, p (f^[k] a)) {a : α} {k : Nat} (holds : p (f^[k] a)) :
    rounds ends a ≤ k :=
  Nat.find_min' (ends a) holds

theorem rounds_succ (ends : ∀ a, ∃ k, p (f^[k] a)) {a : α} (goes_on : ¬p a) :
    rounds ends a = rounds ends (f a) + 1 :=
  Nat.find_comp_succ (ends a) (ends (f a)) goes_on

theorem toInt_iterate_add (c : Int32) (k : Nat) (n : Int32) :
    ((· + c)^[k] n).toInt = (n.toInt + k * c.toInt).bmod (2 ^ 32) := by
  induction k generalizing n with
  | zero =>
    have lower := n.le_toInt
    have upper := n.toInt_lt
    simp only [Function.iterate_zero_apply, Int.bmod]
    omega
  | succ k ih =>
    rw [Function.iterate_succ_apply, ih, Int32.toInt_add, Int.bmod_add_bmod]
    congr 1
    rw [Int.natCast_succ, Int.add_mul, Int.one_mul]
    omega

end MicroserviceFramework.Library.Countdown
