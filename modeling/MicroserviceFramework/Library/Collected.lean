import Mathlib.Data.Finset.Card
import Mathlib.Tactic.Common

/-!
# Collecting what is not there yet

A list to which entries come one by one, each of them added at the end unless it is there. What has
been collected stays where it is, has no entry twice, and has the entries that have come.
-/

namespace MicroserviceFramework.Library

variable {α : Type*} [DecidableEq α]

/-- The list with the entry in it. -/
@[grind] def addNew (l : List α) (a : α) : List α := if a ∈ l then l else l ++ [a]

/-- Entries come one after the other. -/
@[grind] def addAll : List α → List α → List α
  | l, [] => l
  | l, a :: as => addAll (addNew l a) as

@[simp, grind =] theorem mem_addNew {l : List α} {a b : α} : b ∈ addNew l a ↔ b ∈ l ∨ b = a := by
  unfold addNew
  split <;> grind

theorem nodup_addNew {l : List α} (nodup : l.Nodup) (a : α) : (addNew l a).Nodup := by
  unfold addNew
  split
  · exact nodup
  next fresh =>
    apply List.nodup_append.mpr
    refine ⟨nodup, List.nodup_singleton a, ?_⟩
    intro b old c new same
    obtain rfl := List.mem_singleton.mp new
    exact fresh (same ▸ old)

theorem prefix_addNew (l : List α) (a : α) : l <+: addNew l a := by
  unfold addNew
  split
  · exact List.prefix_rfl
  · exact List.prefix_append l [a]

@[simp, grind =] theorem mem_addAll {l as : List α} {b : α} : b ∈ addAll l as ↔ b ∈ l ∨ b ∈ as := by
  fun_induction addAll l as <;> grind

theorem nodup_addAll {l : List α} (nodup : l.Nodup) (as : List α) : (addAll l as).Nodup := by
  fun_induction addAll l as with
  | case1 l => exact nodup
  | case2 l a as ih => exact ih (nodup_addNew nodup a)

theorem prefix_addAll (l as : List α) : l <+: addAll l as := by
  fun_induction addAll l as with
  | case1 l => exact List.prefix_rfl
  | case2 l a as ih => exact (prefix_addNew l a).trans ih

/-- What is there already adds nothing. -/
theorem addAll_of_subset {l as : List α} (there : ∀ a ∈ as, a ∈ l) : addAll l as = l := by
  fun_induction addAll l as <;> grind

/-- A list without repetitions is as long as the set of its entries is large. -/
theorem length_eq_card {l as : List α} (nodup : l.Nodup) (same : ∀ a, a ∈ l ↔ a ∈ as) :
    l.length = as.toFinset.card := by
  rw [← List.toFinset_card_of_nodup nodup]
  congr 1
  ext a
  simp [same a]

end MicroserviceFramework.Library
