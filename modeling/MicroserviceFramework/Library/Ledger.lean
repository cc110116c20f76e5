import MicroserviceFramework.Library.BoundedQueue
import Mathlib.Data.List.Nodup
import Mathlib.Data.List.Range

/-!
# Accounting for the entries of a queue

Entries arrive in a queue and leave it from the front, each into one of a few places: it is dropped,
or taken into the hand and then settled, which succeeds or fails. Entries are known by their number
in the order of arrival, so those that have left are the numbers below a bound, and each of them is
in one place.
-/

namespace MicroserviceFramework.Library

structure Ledger (α : Type*) where
  entries : List α := []
  /-- How many entries have left the queue. -/
  left : Nat := 0
  hand : Option Nat := none
  done : List Nat := []
  failed : List Nat := []
  dropped : List Nat := []

namespace Ledger

variable {α : Type*} (l : Ledger α)

def queue : List α := l.entries.drop l.left

def arrive (a : α) : Ledger α := { l with entries := l.entries ++ [a] }

/-- The oldest entry is given up. -/
def drop : Ledger α := { l with left := l.left + 1, dropped := l.dropped ++ [l.left] }

/-- The oldest entry is taken. -/
def take : Ledger α := { l with left := l.left + 1, hand := some l.left }

/-- Arrival at a queue that forgets its oldest entries. -/
def push (limit : Nat) (a : α) : Ledger α :=
  (if limit < l.queue.length then l.drop else l).arrive a

def settle (ok : Bool) : Ledger α :=
  if ok then { l with hand := none, done := l.done ++ l.hand.toList }
  else { l with hand := none, failed := l.failed ++ l.hand.toList }

/-- An entry that has left is in one place, and there once. -/
structure Balanced : Prop where
  left_le : l.left ≤ l.entries.length
  gone : (l.done ++ l.failed ++ l.dropped ++ l.hand.toList).Perm (List.range l.left)

/-- Entries leave by success or by being dropped, and none succeeds twice. -/
structure Accounted : Prop where
  left : ∀ i < l.left, i ∈ l.done ∨ i ∈ l.dropped ∨ l.hand = some i
  failed : ∀ i ∈ l.failed, l.left ≤ i
  once : l.done.Nodup

variable {l}

/-! ## The queue -/

theorem queue_arrive (within : l.left ≤ l.entries.length) (a : α) :
    (l.arrive a).queue = l.queue ++ [a] :=
  List.drop_append_of_le_length within

theorem queue_drop : l.drop.queue = l.queue.tail := List.tail_drop.symm

theorem queue_push (within : l.left ≤ l.entries.length) (limit : Nat) (a : α) :
    (l.push limit a).queue = BoundedQueue.push limit l.queue a := by
  unfold push BoundedQueue.push
  split
  next over_full =>
    have some_queued : l.left < l.entries.length := by
      rw [queue, List.length_drop] at over_full
      omega
    have within : l.drop.left ≤ l.drop.entries.length := some_queued
    rw [queue_arrive within, queue_drop]
  next => rw [queue_arrive within]

theorem queue_take : l.take.queue = l.queue.tail := List.tail_drop.symm

@[simp] theorem queue_settle (ok : Bool) : (l.settle ok).queue = l.queue := by
  cases ok <;> rfl

theorem left_lt (some_queued : l.queue ≠ []) : l.left < l.entries.length := by
  by_contra all
  exact some_queued (List.drop_eq_nil_of_le (Nat.le_of_not_lt all))

/-- The oldest entry in the queue is the one whose number is `left`. -/
theorem entries_left {a : α} {rest : List α} (queue : l.queue = a :: rest) :
    l.entries[l.left]? = some a := by
  rw [← Nat.add_zero l.left, ← List.getElem?_drop]
  exact congrArg (·[0]?) queue

theorem entries_push (limit : Nat) (a : α) : (l.push limit a).entries = l.entries ++ [a] := by
  unfold push
  split <;> rfl

@[simp] theorem entries_settle (ok : Bool) : (l.settle ok).entries = l.entries := by
  cases ok <;> rfl

theorem getElem?_entries_push {i : Nat} {a b : α} (entry : l.entries[i]? = some a) (limit : Nat) :
    (l.push limit b).entries[i]? = some a := by
  obtain ⟨within, -⟩ := List.getElem?_eq_some_iff.mp entry
  rw [entries_push, List.getElem?_append_left within]
  exact entry

/-! ## One place for each -/

theorem Balanced.arrive (balanced : l.Balanced) (a : α) : (l.arrive a).Balanced := by
  refine ⟨?_, balanced.gone⟩
  have within := balanced.left_le
  simp only [Ledger.arrive, List.length_append]
  omega

theorem Balanced.drop (balanced : l.Balanced) (some_queued : l.queue ≠ []) : l.drop.Balanced := by
  refine ⟨left_lt some_queued, ?_⟩
  have gone := balanced.gone.append_right [l.left]
  rw [← List.range_succ] at gone
  refine List.Perm.trans ?_ gone
  simp only [Ledger.drop, List.append_assoc]
  exact ((List.perm_append_comm.append_left _).append_left _).append_left _

theorem Balanced.push (balanced : l.Balanced) (limit : Nat) (a : α) : (l.push limit a).Balanced := by
  unfold Ledger.push
  split
  next over_full =>
    have some_queued : l.queue ≠ [] := List.ne_nil_of_length_pos (by omega)
    exact (balanced.drop some_queued).arrive a
  next => exact balanced.arrive a

theorem Balanced.take (balanced : l.Balanced) (empty : l.hand = none) (some_queued : l.queue ≠ []) :
    l.take.Balanced := by
  refine ⟨left_lt some_queued, ?_⟩
  have gone := balanced.gone.append_right [l.left]
  rw [← List.range_succ] at gone
  simpa [Ledger.take, empty] using gone

theorem Balanced.settle (balanced : l.Balanced) (ok : Bool) : (l.settle ok).Balanced := by
  refine ⟨by cases ok <;> exact balanced.left_le, ?_⟩
  have left : (l.settle ok).left = l.left := by cases ok <;> rfl
  rw [left]
  refine List.Perm.trans ?_ balanced.gone
  cases ok <;> simp only [Ledger.settle] <;> grind

/-! ## What stays and what is added -/

@[simp] theorem hand_push (limit : Nat) (a : α) : (l.push limit a).hand = l.hand := by
  unfold push
  split <;> rfl

@[simp] theorem failed_push (limit : Nat) (a : α) : (l.push limit a).failed = l.failed := by
  unfold push
  split <;> rfl

theorem hand_settle (ok : Bool) : (l.settle ok).hand = none := by
  cases ok <;> rfl

theorem failed_settle (ok : Bool) : (l.settle ok).failed =
    if ok then l.failed else l.failed ++ l.hand.toList := by
  cases ok <;> rfl

/-- What goes wrong is a failure. -/
theorem Balanced.accounted_iff (balanced : l.Balanced) : l.Accounted ↔ l.failed = [] := by
  have once := balanced.gone.nodup_iff.mpr List.nodup_range
  have places (i : Nat) := balanced.gone.mem_iff (a := i)
  constructor
  · intro accounted
    by_contra some_failed
    obtain ⟨i, failed⟩ := List.exists_mem_of_ne_nil _ some_failed
    have gone : i ∈ List.range l.left := (places i).mp (by simp [failed])
    exact absurd (accounted.failed i failed) (Nat.not_le.mpr (List.mem_range.mp gone))
  · intro none_failed
    refine ⟨fun i gone => ?_, fun i failed => ?_, ?_⟩
    · have place := (places i).mpr (List.mem_range.mpr gone)
      simpa [none_failed, or_assoc] using place
    · rw [none_failed] at failed
      cases failed
    · rw [List.append_assoc, List.append_assoc] at once
      exact once.of_append_left

end Ledger

end MicroserviceFramework.Library
