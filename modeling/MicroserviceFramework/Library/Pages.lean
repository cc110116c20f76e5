import Mathlib.Data.List.Basic
import Mathlib.Tactic.Common

/-!
# Lists in pages

The entries of a list at the positions of an interval, and a list as the row of its pages.
-/

namespace MicroserviceFramework.Library

variable {α : Type*}

/-- The entries at the positions from `a` up to `b`. -/
def window (l : List α) (a b : Nat) : List α :=
  (l.zipIdx.filter fun entry => a ≤ entry.2 ∧ entry.2 < b).map (·.1)

theorem filter_zipIdx (l : List α) (a b k : Nat) :
    ((l.zipIdx k).filter fun entry => a ≤ entry.2 ∧ entry.2 < b).map (·.1) =
      (l.drop (a - k)).take (b - max a k) := by
  induction l generalizing k with
  | nil => simp
  | cons x l ih =>
    rw [List.zipIdx_cons, List.filter_cons]
    by_cases before : k < a
    · have skip : a - k = a - (k + 1) + 1 := by omega
      have same : max a k = max a (k + 1) := by omega
      rw [if_neg (by simp; omega), ih, skip, List.drop_succ_cons, same]
    · have none_skipped : a - k = 0 ∧ a - (k + 1) = 0 := by omega
      rw [none_skipped.1, List.drop_zero]
      by_cases after : b ≤ k
      · have empty : b - max a k = 0 ∧ b - max a (k + 1) = 0 := by omega
        rw [if_neg (by simp; omega), ih, empty.1, empty.2, List.take_zero, List.take_zero]
      · have one : b - max a k = b - max a (k + 1) + 1 := by omega
        rw [if_pos (by simp; omega), List.map_cons, ih, none_skipped.2, List.drop_zero, one,
          List.take_succ_cons]

/-- An interval of positions is a page. -/
theorem window_eq (l : List α) (a n : Nat) : window l a (a + n) = (l.drop a).take n := by
  have page := filter_zipIdx l a (a + n) 0
  rwa [Nat.sub_zero, Nat.max_zero, Nat.add_sub_cancel_left] at page

/-- The first pages are the front of the list. -/
theorem flatMap_window (l : List α) (n m : Nat) :
    (List.range m).flatMap (fun k => window l (k * n) (k * n + n)) = l.take (m * n) := by
  induction m with
  | zero => simp
  | succ m ih =>
    rw [List.range_succ, List.flatMap_append, ih, List.flatMap_singleton, window_eq,
      Nat.succ_mul, List.take_add]

/-- Enough pages are the list. -/
theorem flatMap_window_eq (l : List α) {n m : Nat} (enough : l.length ≤ m * n) :
    (List.range m).flatMap (fun k => window l (k * n) (k * n + n)) = l := by
  rw [flatMap_window, List.take_of_length_le enough]

end MicroserviceFramework.Library
