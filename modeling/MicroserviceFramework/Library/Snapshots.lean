import Mathlib.Data.List.Basic
import Mathlib.Order.Defs.Unbundled

/-!
# Snapshots on their way to a copy

A value that only grows, a channel that carries snapshots of it in order, and a copy that takes
each of them over when it arrives. As long as the channel keeps the order, the copy never goes
back and never gets ahead of the value; losing what is on its way does no harm.

`Seen` is for someone who looks at the value itself, again and again.
-/

namespace MicroserviceFramework.Library

variable {α : Type*} (r : α → α → Prop)

/-- The copy and the snapshots that will arrive, first to last, are each at most the next, and
none is ahead of the value. -/
structure Behind (copy : α) (inFlight : List α) (value : α) : Prop where
  inOrder : (copy :: inFlight).Pairwise r
  notAhead : ∀ x ∈ copy :: inFlight, r x value

namespace Behind

variable {r} {copy value value' snapshot : α} {inFlight : List α}

theorem start (le : r copy value) : Behind r copy [] value := by
  refine ⟨List.pairwise_singleton _ _, fun x mem => ?_⟩
  obtain rfl := List.mem_singleton.mp mem
  exact le

theorem copy_le (behind : Behind r copy inFlight value) : r copy value :=
  behind.notAhead copy List.mem_cons_self

theorem lose (behind : Behind r copy inFlight value) : Behind r copy [] value :=
  start behind.copy_le

theorem grow [IsTrans α r] (behind : Behind r copy inFlight value) (le : r value value') :
    Behind r copy inFlight value' :=
  ⟨behind.inOrder, fun x mem => trans_of r (behind.notAhead x mem) le⟩

/-- A snapshot of the value as it is goes last. -/
theorem send [Std.Refl r] (behind : Behind r copy inFlight value) :
    Behind r copy (inFlight ++ [value]) value := by
  obtain ⟨inOrder, notAhead⟩ := behind
  refine ⟨?_, fun x mem => ?_⟩
  · rw [← List.cons_append, List.pairwise_append]
    refine ⟨inOrder, List.pairwise_singleton _ _, fun x mem y last => ?_⟩
    obtain rfl := List.mem_singleton.mp last
    exact notAhead x mem
  · rw [← List.cons_append] at mem
    rcases List.mem_append.mp mem with early | last
    · exact notAhead x early
    · obtain rfl := List.mem_singleton.mp last
      exact refl_of r x

/-- The copy becomes the first snapshot, which is not older than it was. -/
theorem deliver (behind : Behind r copy (snapshot :: inFlight) value) :
    r copy snapshot ∧ Behind r snapshot inFlight value :=
  ⟨List.rel_of_pairwise_cons behind.inOrder List.mem_cons_self, behind.inOrder.tail,
    fun x mem => behind.notAhead x (List.mem_cons_of_mem _ mem)⟩

/-- The first snapshot is not taken over. -/
theorem skip (behind : Behind r copy (snapshot :: inFlight) value) : Behind r copy inFlight value := by
  obtain ⟨inOrder, notAhead⟩ := behind
  refine ⟨inOrder.sublist (.cons_cons copy (List.sublist_cons_self ..)), fun x mem => ?_⟩
  rcases List.mem_cons.mp mem with rfl | later
  · exact notAhead x List.mem_cons_self
  · exact notAhead x (List.mem_cons_of_mem _ (List.mem_cons_of_mem _ later))

/-- The copy goes back. -/
theorem back [IsTrans α r] {older : α} (behind : Behind r copy inFlight value)
    (le : r older copy) : Behind r older inFlight value := by
  obtain ⟨inOrder, notAhead⟩ := behind
  obtain ⟨first, rest⟩ := List.pairwise_cons.mp inOrder
  refine ⟨List.pairwise_cons.mpr ⟨fun x mem => trans_of r le (first x mem), rest⟩, fun x mem => ?_⟩
  rcases List.mem_cons.mp mem with rfl | later
  · exact trans_of r le (notAhead copy List.mem_cons_self)
  · exact notAhead x (List.mem_cons_of_mem _ later)

end Behind

/-! ## Looking at a value that changes -/

/-- What was seen of a value, one look after the other, is in its history in that order. -/
def Seen (history seen : List α) : Prop :=
  ∃ times : List Nat, times.Pairwise (· ≤ ·) ∧ times.map (history[·]?) = seen.map some

namespace Seen

variable {history seen : List α} {value : α}

theorem nil (history : List α) : Seen history [] := ⟨[], .nil, rfl⟩

theorem time_lt {times : List Nat} (looks : times.map (history[·]?) = seen.map some) {i : Nat}
    (mem : i ∈ times) : i < history.length := by
  have there : history[i]? ∈ seen.map some := looks ▸ List.mem_map_of_mem mem
  obtain ⟨v, -, found⟩ := List.mem_map.mp there
  exact (List.getElem?_eq_some_iff.mp found.symm).1

theorem grow (before : Seen history seen) (more : List α) : Seen (history ++ more) seen := by
  obtain ⟨times, inOrder, looks⟩ := before
  refine ⟨times, inOrder, looks ▸ List.map_congr_left fun i mem => ?_⟩
  exact List.getElem?_append_left (time_lt looks mem)

/-- One look more, at what the value is now. -/
theorem look (before : Seen history seen) (newest : history.getLast? = some value) :
    Seen history (seen ++ [value]) := by
  obtain ⟨times, inOrder, looks⟩ := before
  refine ⟨times ++ [history.length - 1], ?_, ?_⟩
  · refine List.pairwise_append.mpr ⟨inOrder, List.pairwise_singleton _ _, fun i mem j last => ?_⟩
    obtain rfl := List.mem_singleton.mp last
    exact Nat.le_sub_one_of_lt (time_lt looks mem)
  · rw [List.map_append, List.map_append, looks, List.map_singleton, List.map_singleton,
      ← List.getLast?_eq_getElem?, newest]

end Seen

end MicroserviceFramework.Library
