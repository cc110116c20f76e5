import Mathlib.Data.List.DropRight
import Mathlib.Tactic.Common

/-!
# A queue that forgets its oldest entries

An entry is added at the end, and before that one is taken from the front of a queue that has more
entries than a limit. So the queue has the newest entries, one more than the limit at most.
-/

namespace MicroserviceFramework.Library.BoundedQueue

variable {α β : Type*}

def push (limit : Nat) (q : List α) (a : α) : List α :=
  (if limit < q.length then q.tail else q) ++ [a]

theorem push_of_le {limit : Nat} {q : List α} (room : q.length ≤ limit) (a : α) :
    push limit q a = q ++ [a] := by
  rw [push, if_neg (Nat.not_lt.mpr room)]

/-- What the entries are does not matter. -/
theorem map_push (f : α → β) (limit : Nat) (q : List α) (a : α) :
    (push limit q a).map f = push limit (q.map f) (f a) := by
  simp only [push, List.map_append, List.map_cons, List.map_nil, List.length_map]
  split <;> simp

@[grind =] theorem length_rtake (n : Nat) (l : List α) : (l.rtake n).length = min n l.length := by
  grind [List.rtake]

theorem rtake_of_length_le {n : Nat} {l : List α} (short : l.length ≤ n) : l.rtake n = l := by
  rw [List.rtake, Nat.sub_eq_zero_of_le short, List.drop_zero]

/-- The newest entries so far, and after one more. -/
theorem push_rtake (limit : Nat) (l : List α) (a : α) :
    push limit (l.rtake (limit + 1)) a = (l ++ [a]).rtake (limit + 1) := by
  rw [List.rtake_concat_succ, push]
  congr 1
  simp only [List.rtake, List.length_drop, List.tail_drop]
  split <;> congr 1 <;> omega

/-- With one entry less, only as long as there is room. -/
theorem push_rtake_iff (limit : Nat) (l : List α) (a : α) :
    push limit (l.rtake limit) a = (l ++ [a]).rtake limit ↔ l.length < limit := by
  have pushed : push limit (l.rtake limit) a = l.rtake limit ++ [a] := push_of_le (by grind) a
  rw [pushed]
  constructor
  · intro same
    have length := congrArg List.length same
    grind
  · intro room
    rw [rtake_of_length_le (Nat.le_of_lt room), rtake_of_length_le]
    grind

end MicroserviceFramework.Library.BoundedQueue
