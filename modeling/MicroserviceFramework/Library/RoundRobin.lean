import Mathlib.Data.Int.CardIntervalMod

/-!
# Taking turns

Some of `n` positions in a circle are ready. A turn goes to the first of them after the position
that had the last turn. In any row of turns all that are ready get the same number, or one of
them one more than another: the positions that are ready have ranks, and the rank of each turn is
one more than that of the last.
-/

namespace MicroserviceFramework.Library.RoundRobin

variable (p : Nat → Prop) [DecidablePred p] (n : Nat)

/-- The positions in the order in which they come after `last`, which is itself the last. -/
def after (last : Nat) : List Nat := (List.range n).map fun d => (last + 1 + d) % n

/-- Who has the next turn. -/
def next (last : Nat) : Option Nat := (after n last).find? (p ·)

/-- Who has the next `k` turns. -/
def turns : Nat → Nat → List Nat
  | 0, _ => []
  | k + 1, last =>
    match next p n last with
    | none => []
    | some i => i :: turns k i

variable {p n} {last i : Nat}

theorem next_eq_some (found : next p n last = some i) :
    p i ∧ ∃ d < n, i = (last + 1 + d) % n ∧ ∀ e < d, ¬p ((last + 1 + e) % n) := by
  obtain ⟨ready, d, lt, here, before⟩ := List.find?_eq_some_iff_getElem.mp found
  simp only [after, List.length_map, List.length_range, List.getElem_map, List.getElem_range,
    decide_eq_true_eq, Bool.not_eq_eq_eq_not, Bool.not_true, decide_eq_false_iff_not] at ready lt here before
  exact ⟨ready, d, lt, here.symm, before⟩

theorem next_lt (found : next p n last = some i) : i < n := by
  obtain ⟨-, d, lt, rfl, -⟩ := next_eq_some found
  exact Nat.mod_lt _ (Nat.zero_lt_of_lt lt)

/-- Somebody who is ready is found. -/
theorem next_isSome (lt : last < n) (i_lt : i < n) (ready : p i) : (next p n last).isSome := by
  rw [next, List.find?_isSome]
  refine ⟨i, ?_, by simpa using ready⟩
  rw [after, List.mem_map]
  by_cases later : last < i
  · refine ⟨i - (last + 1), List.mem_range.mpr (by omega), ?_⟩
    rw [show last + 1 + (i - (last + 1)) = i by omega, Nat.mod_eq_of_lt i_lt]
  · refine ⟨n + i - (last + 1), List.mem_range.mpr (by omega), ?_⟩
    rw [show last + 1 + (n + i - (last + 1)) = i + n by omega, Nat.add_mod_right,
      Nat.mod_eq_of_lt i_lt]

/-- Nobody between the last turn and the next is ready, so the next in rank has the next turn. -/
theorem count_next (lt : last < n) (found : next p n last = some i) :
    Nat.count p i ≡ Nat.count p (last + 1) [MOD Nat.count p n] := by
  obtain ⟨-, d, d_lt, rfl, before⟩ := next_eq_some found
  by_cases wraps : last + 1 + d < n
  · have none_between : Nat.count (fun e => p (last + 1 + e)) d = 0 := by
      refine Nat.count_of_forall_not fun e e_lt => ?_
      have here := before e e_lt
      rwa [Nat.mod_eq_of_lt (by omega)] at here
    rw [Nat.mod_eq_of_lt wraps, Nat.count_add, none_between, Nat.add_zero]
  · have place : (last + 1 + d) % n = last + 1 + d - n := by
      rw [Nat.mod_eq_sub_mod (Nat.le_of_not_lt wraps), Nat.mod_eq_of_lt (by omega)]
    have none_before : Nat.count p (last + 1 + d - n) = 0 := by
      refine Nat.count_of_forall_not fun j j_lt => ?_
      have here := before (n + j - (last + 1)) (by omega)
      rwa [show last + 1 + (n + j - (last + 1)) = j + n by omega, Nat.add_mod_right,
        Nat.mod_eq_of_lt (by omega)] at here
    have none_after : Nat.count (fun e => p (last + 1 + e)) (n - (last + 1)) = 0 := by
      refine Nat.count_of_forall_not fun e e_lt => ?_
      have here := before e (by omega)
      rwa [Nat.mod_eq_of_lt (by omega)] at here
    have all := Nat.count_add p (last + 1) (n - (last + 1))
    rw [show last + 1 + (n - (last + 1)) = n by omega, none_after, Nat.add_zero] at all
    rw [place, none_before, ← all]
    exact (Nat.modEq_zero_iff_dvd.mpr dvd_rfl).symm

/-- The ranks of the turns go up by one, round and round. -/
theorem count_turns (lt : last < n) (i_lt : i < n) (ready : p i) (k : Nat) :
    (turns p n k last).count i =
      Nat.count (fun t => Nat.count p (last + 1) + t ≡ Nat.count p i [MOD Nat.count p n]) k := by
  induction k generalizing last with
  | zero => rfl
  | succ k ih =>
    obtain ⟨j, found⟩ := Option.isSome_iff_exists.mp (next_isSome lt i_lt ready)
    have ready_j := (next_eq_some found).1
    have rank := count_next lt found
    have own : j = i ↔ Nat.count p (last + 1) + 0 ≡ Nat.count p i [MOD Nat.count p n] := by
      constructor
      · rintro rfl
        exact rank.symm
      · intro same
        have ranks := rank.trans same
        rw [Nat.ModEq, Nat.mod_eq_of_lt (Nat.count_strict_mono ready_j (next_lt found)),
          Nat.mod_eq_of_lt (Nat.count_strict_mono ready i_lt)] at ranks
        exact Nat.count_injective ready_j ready ranks
    have later (t : Nat) : Nat.count p (j + 1) + t ≡ Nat.count p i [MOD Nat.count p n] ↔
        Nat.count p (last + 1) + (t + 1) ≡ Nat.count p i [MOD Nat.count p n] := by
      have shift : Nat.count p (j + 1) + t ≡ Nat.count p (last + 1) + (t + 1)
          [MOD Nat.count p n] := by
        rw [Nat.count_succ, if_pos ready_j, Nat.add_assoc, Nat.add_comm 1 t]
        exact rank.add_right _
      exact ⟨fun h => shift.symm.trans h, fun h => shift.trans h⟩
    rw [turns, found, List.count_cons, ih (next_lt found), Nat.count_succ' _ k]
    simp only [later, beq_iff_eq, own]

/-- Of any `k` turns, each that is ready has its share, rounded down or up. -/
theorem count_turns_fair (lt : last < n) (i_lt : i < n) (ready : p i) (k : Nat) :
    (turns p n k last).count i = k / Nat.count p n ∨
      (turns p n k last).count i = (k + Nat.count p n - 1) / Nat.count p n := by
  have pos : 0 < Nat.count p n := Nat.zero_lt_of_lt (Nat.count_strict_mono ready i_lt)
  rw [count_turns lt i_lt ready]
  generalize Nat.count p n = m at pos
  generalize Nat.count p (last + 1) = a
  generalize Nat.count p i = r
  -- the turns of `i` are those that are congruent to one number
  have shift (t : Nat) : a + t ≡ r [MOD m] ↔ t ≡ r + (m - a % m) [MOD m] := by
    have round : a + (r + (m - a % m)) ≡ r [MOD m] := by
      have le : a % m ≤ m := (Nat.mod_lt a pos).le
      have whole := Nat.div_add_mod a m
      rw [show a + (r + (m - a % m)) = r + m * (a / m + 1) by rw [Nat.mul_add]; omega]
      exact Nat.add_modulus_mul_modEq_iff.mpr rfl
    exact ⟨fun h => Nat.ModEq.add_left_cancel' a (h.trans round.symm),
      fun h => (h.add_left a).trans round⟩
  simp only [shift]
  rw [Nat.count_modEq_card _ pos]
  split
  next more =>
    right
    have split_k := Nat.div_add_mod k m
    have lt := Nat.mod_lt k pos
    symm
    apply Nat.div_eq_of_lt_le
    · rw [Nat.add_mul, Nat.one_mul, Nat.mul_comm]
      omega
    · rw [Nat.add_mul, Nat.add_mul, Nat.one_mul, Nat.mul_comm]
      omega
  next => exact .inl rfl

end MicroserviceFramework.Library.RoundRobin
