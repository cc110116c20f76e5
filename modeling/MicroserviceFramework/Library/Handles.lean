import Mathlib.Data.List.Basic
import Mathlib.Tactic.Common

/-!
# Handles that a program opens and has to close

A library hands out handles, each of which may belong to another one: a result to its connection, a
statement to the connection that it is prepared on. A handle must be open when it is used, and a
handle is closed once, after all that belong to it. `misused` remembers whether a call broke this.

Handles are numbered in the order in which they are opened, so that one that is closed never comes
back.
-/

namespace MicroserviceFramework.Library

structure Handles where
  /-- The handles that are open, the latest first, each with the one that it belongs to. -/
  live : List (Nat × Option Nat) := []
  next : Nat := 0
  misused : Bool := false
  deriving DecidableEq, Repr

namespace Handles

def isLive (h : Nat) (t : Handles) : Bool := t.live.any (·.1 = h)

/-- A call with a handle; `none` is a null pointer. -/
@[grind] def use (h : Option Nat) (t : Handles) : Handles :=
  if h.any t.isLive then t else { t with misused := true }

/-- Opens the handle `next`. -/
@[grind] def acquire (owner : Option Nat) (t : Handles) : Handles :=
  { t with live := (t.next, owner) :: t.live, next := t.next + 1 }

@[grind] def release (h : Nat) (t : Handles) : Handles where
  live := t.live.filter (·.1 ≠ h)
  next := t.next
  misused := t.misused || !t.isLive h || t.live.any (·.2 = some h)

/-- Handles have been opened and closed since; what was closed stays closed. -/
structure Later (t t' : Handles) : Prop where
  next_le : t.next ≤ t'.next
  live : ∀ e ∈ t'.live, e ∈ t.live ∨ t.next ≤ e.1

variable {t t' t'' : Handles} {h : Nat} {owner : Option Nat}

@[grind =] theorem isLive_iff : t.isLive h ↔ ∃ e ∈ t.live, e.1 = h := by
  simp [isLive]

theorem use_live (live : t.isLive h) : t.use (some h) = t := by
  simp [use, live]

/-- The latest handle is closed, and nothing belongs to it. -/
theorem release_latest {rest : List (Nat × Option Nat)} (latest : t.live = (h, owner) :: rest)
    (free : ∀ e ∈ (h, owner) :: rest, e.2 ≠ some h) (once : ∀ e ∈ rest, e.1 ≠ h) :
    t.release h = { t with live := rest } := by
  have kept : t.live.filter (·.1 ≠ h) = rest := by
    rw [latest, List.filter_cons_of_neg (by simp), List.filter_eq_self]
    simpa using once
  have owned : t.live.any (·.2 = some h) = false := by
    rw [latest, List.any_eq_false]
    simpa using free
  have live : t.isLive h = true := isLive_iff.mpr ⟨_, latest ▸ List.mem_cons_self, rfl⟩
  rw [release, kept, owned, live, Bool.not_true, Bool.or_false, Bool.or_false]

namespace Later

@[simp] theorem refl (t : Handles) : Later t t := ⟨Nat.le_refl _, fun _ mem => .inl mem⟩

theorem trans (first : Later t t') (second : Later t' t'') : Later t t'' := by
  refine ⟨Nat.le_trans first.next_le second.next_le, fun e mem => ?_⟩
  rcases second.live e mem with old | new
  · exact first.live e old
  · exact .inr (Nat.le_trans first.next_le new)

theorem use (t : Handles) (h : Option Nat) : Later t (t.use h) := by
  unfold Handles.use
  split
  · exact refl t
  · exact ⟨Nat.le_refl _, fun _ mem => .inl mem⟩

theorem acquire (t : Handles) (owner : Option Nat) : Later t (t.acquire owner) := by
  refine ⟨Nat.le_succ _, fun e mem => ?_⟩
  rcases List.mem_cons.mp mem with rfl | old
  · exact .inr (Nat.le_refl _)
  · exact .inl old

theorem release (t : Handles) (h : Nat) : Later t (t.release h) :=
  ⟨Nat.le_refl _, fun _ mem => .inl (List.mem_of_mem_filter mem)⟩

theorem not_isLive (later : Later t t') (opened : h < t.next) (closed : ¬t.isLive h) :
    ¬t'.isLive h := by
  rw [isLive_iff] at closed ⊢
  rintro ⟨e, mem, rfl⟩
  rcases later.live e mem with old | new
  · exact closed ⟨e, old, rfl⟩
  · omega

end Later

end Handles

end MicroserviceFramework.Library
