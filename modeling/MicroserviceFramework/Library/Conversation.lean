import Mathlib.Data.List.Basic
import Mathlib.Logic.Function.Basic

/-!
# Requests and responses on one connection

A client makes requests, the server takes them in the order in which they were sent and answers
some of them, and the responses come back in that order. Any message can be lost. A request is
known by its number, its position among all that were made, and a response by that of its request.

So the numbers of what arrives only go up, and once a request has been taken by the server no
earlier one is. A table that the responses are entered in by some key has the newest for each.
-/

namespace MicroserviceFramework.Library

variable {α β : Type*}

structure Conversation (α β : Type*) where
  /-- All requests that were made. -/
  made : List α := []
  /-- The numbers of those on their way to the server. -/
  requests : List Nat := []
  /-- The server has taken no request with this number or a later one. -/
  handled : Nat := 0
  /-- The responses on their way back. -/
  responses : List (Nat × β) := []
  arrived : List (Nat × β) := []

namespace Conversation

/-- A request is made, and sent or not. -/
def send (a : α) (sent : Bool) (x : Conversation α β) : Conversation α β :=
  { x with
    made := x.made ++ [a]
    requests := x.requests ++ if sent then [x.made.length] else [] }

@[simp] theorem length_made_send (a : α) (sent : Bool) (x : Conversation α β) :
    (x.send a sent).made.length = x.made.length + 1 := by
  simp [send]

/-- The server takes a request; without a response to that, none is sent. -/
def serve (handle : α → Option β) (x : Conversation α β) : Option (Conversation α β) :=
  match x.requests with
  | [] => none
  | k :: ks => (x.made[k]?).map fun a =>
    { x with
      requests := ks
      handled := k + 1
      responses := x.responses ++ ((handle a).map (k, ·)).toList }

/-- The next response arrives. -/
def receive (x : Conversation α β) : Option ((Nat × β) × Conversation α β) :=
  match x.responses with
  | [] => none
  | r :: rs => some (r, { x with responses := rs, arrived := x.arrived ++ [r] })

/-- The next response gets lost. -/
def lose (x : Conversation α β) : Conversation α β := { x with responses := x.responses.tail }

/-- The responses that there are, those that have arrived first. -/
def answers (x : Conversation α β) : List (Nat × β) := x.arrived ++ x.responses

structure InOrder (x : Conversation α β) : Prop where
  requests_lt : x.requests.Pairwise (· < ·)
  answers_lt : (x.answers.map (·.1)).Pairwise (· < ·)
  waiting : ∀ k ∈ x.requests, x.handled ≤ k ∧ k < x.made.length
  answered : ∀ r ∈ x.answers, r.1 < x.handled
  handled_le : x.handled ≤ x.made.length

variable {x x' : Conversation α β}

theorem InOrder.init : ({} : Conversation α β).InOrder := by
  constructor <;> simp [answers]

theorem InOrder.send (inOrder : x.InOrder) (a : α) (sent : Bool) : (x.send a sent).InOrder := by
  have handled_le := inOrder.handled_le
  refine ⟨?_, inOrder.answers_lt, fun k mem => ?_, inOrder.answered, ?_⟩
  · refine List.pairwise_append.mpr ⟨inOrder.requests_lt, ?_, fun k mem l new => ?_⟩
    · split <;> simp
    · have lt := (inOrder.waiting k mem).2
      split at new
      · rwa [List.mem_singleton.mp new]
      · cases new
  · rw [Conversation.send, List.length_append, List.length_singleton]
    rcases List.mem_append.mp mem with old | new
    · have bounds := inOrder.waiting k old
      exact ⟨bounds.1, Nat.lt_succ_of_lt bounds.2⟩
    · split at new
      · rw [List.mem_singleton.mp new]
        exact ⟨handled_le, Nat.lt_succ_self _⟩
      · cases new
  · rw [Conversation.send, List.length_append]
    exact Nat.le_add_right_of_le handled_le

theorem serve_eq_some {handle : α → Option β} : x.serve handle = some x' ↔
    ∃ k ks a, x.requests = k :: ks ∧ x.made[k]? = some a ∧
      x' = { x with
        requests := ks
        handled := k + 1
        responses := x.responses ++ ((handle a).map (k, ·)).toList } := by
  unfold serve
  cases x.requests with
  | nil => simp
  | cons k ks =>
    simp only [Option.map_eq_some_iff, List.cons.injEq]
    constructor
    · rintro ⟨a, there, rfl⟩
      exact ⟨k, ks, a, ⟨rfl, rfl⟩, there, rfl⟩
    · rintro ⟨_, _, a, ⟨rfl, rfl⟩, there, rfl⟩
      exact ⟨a, there, rfl⟩

/-- The answers with that of a request that is taken. -/
theorem answers_append (x : Conversation α β) (rs : List (Nat × β)) (ks : List Nat) (n : Nat) :
    ({ x with requests := ks, handled := n, responses := x.responses ++ rs } :
      Conversation α β).answers = x.answers ++ rs :=
  (List.append_assoc ..).symm

theorem InOrder.serve (inOrder : x.InOrder) {handle : α → Option β}
    (step : x.serve handle = some x') : x'.InOrder := by
  obtain ⟨k, ks, a, requests, there, rfl⟩ := serve_eq_some.mp step
  have bounds := inOrder.waiting k (requests ▸ List.mem_cons_self)
  have increasing := requests ▸ inOrder.requests_lt
  obtain ⟨later, rest⟩ := List.pairwise_cons.mp increasing
  have own : ∀ r ∈ ((handle a).map (k, ·)).toList, r.1 = k := by
    intro r mem
    obtain ⟨b, -, rfl⟩ := Option.map_eq_some_iff.mp (Option.mem_toList.mp mem)
    rfl
  refine ⟨rest, ?_, fun l mem => ⟨later l mem, ?_⟩, fun r mem => ?_, bounds.2⟩
  · rw [answers_append, List.map_append]
    refine List.pairwise_append.mpr ⟨inOrder.answers_lt, ?_, fun i old j new => ?_⟩
    · cases handle a <;> simp
    · obtain ⟨r, mem, rfl⟩ := List.mem_map.mp old
      obtain ⟨q, mem', rfl⟩ := List.mem_map.mp new
      rw [own q mem']
      exact Nat.lt_of_lt_of_le (inOrder.answered r mem) bounds.1
  · exact (inOrder.waiting l (requests ▸ List.mem_cons_of_mem _ mem)).2
  · rw [answers_append] at mem
    rcases List.mem_append.mp mem with old | new
    · exact Nat.lt_succ_of_lt (Nat.lt_of_lt_of_le (inOrder.answered r old) bounds.1)
    · rw [own r new]
      exact Nat.lt_succ_self k

theorem receive_eq_some {r : Nat × β} : x.receive = some (r, x') ↔
    ∃ rs, x.responses = r :: rs ∧
      x' = { x with responses := rs, arrived := x.arrived ++ [r] } := by
  unfold receive
  cases x.responses with
  | nil => simp
  | cons q rs =>
    simp only [Option.some.injEq, Prod.mk.injEq, List.cons.injEq]
    constructor
    · rintro ⟨rfl, rfl⟩
      exact ⟨rs, ⟨rfl, rfl⟩, rfl⟩
    · rintro ⟨rs', ⟨rfl, rfl⟩, rfl⟩
      exact ⟨rfl, rfl⟩

/-- A response that arrives is not a new one. -/
theorem answers_receive {r : Nat × β} (step : x.receive = some (r, x')) :
    x'.answers = x.answers := by
  obtain ⟨rs, responses, rfl⟩ := receive_eq_some.mp step
  simp [answers, responses]

theorem InOrder.receive (inOrder : x.InOrder) {r : Nat × β} (step : x.receive = some (r, x')) :
    x'.InOrder := by
  have same := answers_receive step
  obtain ⟨rs, responses, rfl⟩ := receive_eq_some.mp step
  exact ⟨inOrder.requests_lt, same ▸ inOrder.answers_lt, inOrder.waiting,
    same ▸ inOrder.answered, inOrder.handled_le⟩

theorem answers_lose (x : Conversation α β) : x.lose.answers.Sublist x.answers :=
  (List.Sublist.refl _).append (List.tail_sublist _)

theorem InOrder.lose (inOrder : x.InOrder) : x.lose.InOrder where
  requests_lt := inOrder.requests_lt
  answers_lt := inOrder.answers_lt.sublist (x.answers_lose.map _)
  waiting := inOrder.waiting
  answered r mem := inOrder.answered r (x.answers_lose.subset mem)
  handled_le := inOrder.handled_le

/-- Every response is one that its request can have. -/
def Genuine (R : α → β → Prop) (x : Conversation α β) : Prop :=
  ∀ r ∈ x.answers, ∃ a, x.made[r.1]? = some a ∧ R a r.2

section Genuine

variable {R : α → β → Prop}

theorem Genuine.init : ({} : Conversation α β).Genuine R := by
  intro r mem
  cases mem

theorem Genuine.send (genuine : x.Genuine R) (a : α) (sent : Bool) : (x.send a sent).Genuine R := by
  intro r mem
  obtain ⟨b, there, allowed⟩ := genuine r mem
  have lt := (List.getElem?_eq_some_iff.mp there).1
  exact ⟨b, (List.getElem?_append_left lt).trans there, allowed⟩

theorem Genuine.serve (genuine : x.Genuine R) {handle : α → Option β}
    (allowed : ∀ a b, handle a = some b → R a b) (step : x.serve handle = some x') :
    x'.Genuine R := by
  obtain ⟨k, ks, a, requests, there, rfl⟩ := serve_eq_some.mp step
  intro r mem
  rw [answers_append] at mem
  rcases List.mem_append.mp mem with old | new
  · exact genuine r old
  · obtain ⟨b, given, rfl⟩ := Option.map_eq_some_iff.mp (Option.mem_toList.mp new)
    exact ⟨a, there, allowed a b given⟩

theorem Genuine.receive (genuine : x.Genuine R) {r : Nat × β} (step : x.receive = some (r, x')) :
    x'.Genuine R := by
  have same := answers_receive step
  obtain ⟨rs, responses, rfl⟩ := receive_eq_some.mp step
  exact fun q mem => genuine q (same ▸ mem)

theorem Genuine.lose (genuine : x.Genuine R) : x.lose.Genuine R :=
  fun r mem => genuine r (x.answers_lose.subset mem)

end Genuine

/-- What arrives answers a later request than all that has arrived before. -/
theorem InOrder.newest (inOrder : x.InOrder) {r : Nat × β} (step : x.receive = some (r, x')) :
    ∀ q ∈ x.arrived, q.1 < r.1 := by
  obtain ⟨rs, responses, -⟩ := receive_eq_some.mp step
  have increasing := inOrder.answers_lt
  rw [answers, responses, List.map_append] at increasing
  intro q mem
  exact (List.pairwise_append.mp increasing).2.2 q.1 (List.mem_map_of_mem mem) r.1
    (List.mem_map_of_mem List.mem_cons_self)

/-- Once the last request is answered nothing else arrives. -/
theorem InOrder.silent (inOrder : x.InOrder) {k : Nat} {b : β} (last : k + 1 = x.made.length)
    (answered : (k, b) ∈ x.arrived) : x.receive = none := by
  rcases step : x.receive with _ | ⟨r, x'⟩
  · rfl
  · have newer : k < r.1 := inOrder.newest step (k, b) answered
    obtain ⟨rs, responses, -⟩ := receive_eq_some.mp step
    have mem : r ∈ x.answers := List.mem_append_right _ (responses ▸ List.mem_cons_self)
    have bound := Nat.lt_of_lt_of_le (inOrder.answered r mem) inOrder.handled_le
    omega

/-! ## A table of responses -/

section Table

variable {κ : Type*} {key : β → Option κ} {table : κ → Option β}

/-- The entry of a key is the last response with that key. -/
def Tabled (key : β → Option κ) (table : κ → Option β) (x : Conversation α β) : Prop :=
  ∀ a b, table a = some b → key b = some a ∧ ∃ k, (k, b) ∈ x.arrived ∧
    ∀ r ∈ x.arrived, key r.2 = some a → r.1 ≤ k

theorem Tabled.of_arrived (tabled : x.Tabled key table) (same : x'.arrived = x.arrived) :
    x'.Tabled key table := by
  intro a b entry
  rw [same]
  exact tabled a b entry

theorem Tabled.erase [DecidableEq κ] (tabled : x.Tabled key table) (a : κ) :
    x.Tabled key (Function.update table a none) := by
  intro c b entry
  by_cases own : c = a
  · rw [own, Function.update_self] at entry
    cases entry
  · rw [Function.update_of_ne own] at entry
    exact tabled c b entry

/-- The responses that the entry of another key is the last of stay the same. -/
theorem Tabled.receive_other (tabled : x.Tabled key table) {r : Nat × β}
    (step : x.receive = some (r, x')) {a : κ} {b : β} (entry : table a = some b)
    (other : key r.2 ≠ some a) : key b = some a ∧ ∃ k, (k, b) ∈ x'.arrived ∧
      ∀ q ∈ x'.arrived, key q.2 = some a → q.1 ≤ k := by
  obtain ⟨rs, -, rfl⟩ := receive_eq_some.mp step
  obtain ⟨own, k, mem, last⟩ := tabled a b entry
  refine ⟨own, k, List.mem_append_left _ mem, fun q there same => ?_⟩
  rcases List.mem_append.mp there with old | new
  · exact last q old same
  · rw [List.mem_singleton.mp new] at same
    exact absurd same other

/-- A response without a key is not entered. -/
theorem Tabled.receive_skip (tabled : x.Tabled key table) {r : Nat × β}
    (step : x.receive = some (r, x')) (none : key r.2 = none) : x'.Tabled key table :=
  fun _ _ entry => tabled.receive_other step entry (by simp [none])

theorem Tabled.receive [DecidableEq κ] (tabled : x.Tabled key table) (inOrder : x.InOrder)
    {r : Nat × β} (step : x.receive = some (r, x')) {a : κ} (own : key r.2 = some a) :
    x'.Tabled key (Function.update table a (some r.2)) := by
  intro c b entry
  by_cases here : c = a
  · rw [here, Function.update_self] at entry
    obtain rfl := Option.some.inj entry
    have newest := inOrder.newest step
    obtain ⟨rs, -, rfl⟩ := receive_eq_some.mp step
    refine ⟨here ▸ own, r.1, List.mem_append_right _ (List.mem_singleton_self _), fun q there _ => ?_⟩
    rcases List.mem_append.mp there with old | new
    · exact Nat.le_of_lt (newest q old)
    · exact Nat.le_of_eq (congrArg Prod.fst (List.mem_singleton.mp new))
  · rw [Function.update_of_ne here] at entry
    refine tabled.receive_other step entry ?_
    rw [own, ne_eq, Option.some.injEq]
    exact Ne.symm here

end Table

end Conversation

end MicroserviceFramework.Library
