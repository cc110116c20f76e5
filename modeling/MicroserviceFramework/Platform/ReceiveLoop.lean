import Mathlib.Order.WellFounded
import MicroserviceFramework.Platform.Receiver

/-!
# The receive loop terminates

`readCb()` is `while(1)`, so what it returns is stated as a relation, `Returns`, which only a loop
that ends can derive, and the handlers that it calls are a parameter. A round takes bytes from the
input, or it discards a frame whose length has been read; after that no length is left, so the
next round has to take bytes.
-/

namespace MicroserviceFramework.Platform.Receiver

/-- What the handlers leave in the input is no more than what they found there. -/
def AddNothing (handler : Dispatch → Receiver → Receiver) : Prop :=
  ∀ d r, (handler d r).input.length ≤ r.input.length

variable (codec : HeadCodec) (handler : Dispatch → Receiver → Receiver)

/-- The loop goes round again: the handler is called, then `clear`. -/
def Round (r s : Receiver) : Prop :=
  ∃ r' d, r.turn codec = .dispatch r' d ∧ s = (handler d r').clear

/-- The loop returns, having called the handlers with `ds`, and leaves `s`. -/
inductive Returns : Receiver → List Dispatch → Receiver → Prop
  | fail {r r' : Receiver} : r.turn codec = .fail r' → Returns r [] r'.clear
  | wait {r r' : Receiver} : r.turn codec = .wait r' → Returns r [] r'
  | again {r r' s : Receiver} {d : Dispatch} {ds : List Dispatch} :
      r.turn codec = .dispatch r' d → Returns (handler d r').clear ds s → Returns r (d :: ds) s

variable {codec handler} {r r' s t : Receiver} {d : Dispatch} {ds ds' : List Dispatch}

theorem clear_pending (r : Receiver) : r.clear.pending = r.input.length := by
  simp [pending, clear, CMsg.clear]

theorem pending_le (r : Receiver) : r.pending ≤ r.input.length + 1 := by
  unfold pending
  split <;> omega

theorem Round.fresh (round : Round codec handler r s) : s.head.size = 0 := by
  obtain ⟨r', d, -, rfl⟩ := round
  rfl

theorem Round.pending_lt (quiet : AddNothing handler) (round : Round codec handler r s) :
    s.pending < r.pending := by
  obtain ⟨r', d, step, rfl⟩ := round
  calc (handler d r').clear.pending
      = (handler d r').input.length := clear_pending _
    _ ≤ r'.input.length := quiet d r'
    _ = r'.clear.pending := (clear_pending r').symm
    _ < r.pending := pending_clear_lt step

/-- Where no length has been read, `pending` counts bytes only. -/
theorem dispatch_consumes (fresh : r.head.size = 0) (step : r.turn codec = .dispatch r' d) :
    r'.input.length < r.input.length := by
  have less := pending_clear_lt step
  rw [clear_pending] at less
  simpa [pending, fresh] using less

theorem dispatch_progress (step : r.turn codec = .dispatch r' d) :
    r'.input.length < r.input.length ∨ r.head.size ≠ 0 ∧ r'.input.length = r.input.length := by
  by_cases fresh : r.head.size = 0
  · exact .inl (dispatch_consumes fresh step)
  · have less := pending_clear_lt step
    rw [clear_pending, pending, if_neg fresh] at less
    omega

theorem Round.wellFounded (codec : HeadCodec) (quiet : AddNothing handler) :
    WellFounded fun s r => Round codec handler r s :=
  Subrelation.wf (fun round => Round.pending_lt quiet round) (measure pending).wf

/-- By induction on what is pending, which bounds the messages as well. -/
theorem exists_returns (codec : HeadCodec) (quiet : AddNothing handler) (r : Receiver) :
    ∃ ds s, Returns codec handler r ds s ∧ ds.length ≤ r.pending := by
  induction r using (Round.wellFounded codec quiet).induction with
  | h r ih =>
    cases step : r.turn codec with
    | fail r' => exact ⟨[], r'.clear, .fail step, Nat.zero_le _⟩
    | wait r' => exact ⟨[], r', .wait step, Nat.zero_le _⟩
    | dispatch r' d =>
      have round : Round codec handler r (handler d r').clear := ⟨r', d, step, rfl⟩
      obtain ⟨ds, s, returns, bound⟩ := ih _ round
      have less := round.pending_lt quiet
      refine ⟨d :: ds, s, .again step returns, ?_⟩
      rw [List.length_cons]
      omega

theorem Returns.unique (left : Returns codec handler r ds s) (right : Returns codec handler r ds' t) :
    ds = ds' ∧ s = t := by
  induction left generalizing ds' with
  | fail step =>
    cases right with
    | fail step' => grind
    | wait step' => grind
    | again step' _ => grind
  | wait step =>
    cases right with
    | fail step' => grind
    | wait step' => grind
    | again step' _ => grind
  | again step _ ih =>
    cases right with
    | fail step' => grind
    | wait step' => grind
    | again step' rest =>
      obtain ⟨rfl, rfl⟩ := Turn.dispatch.inj (step.symm.trans step')
      obtain ⟨rfl, rfl⟩ := ih rest
      exact ⟨rfl, rfl⟩

/-- `readCb` is the loop whose handlers leave the receive state alone. -/
theorem readCb_returns (codec : HeadCodec) (r : Receiver) :
    Returns codec (fun _ r => r) r (readCb codec r).1 (readCb codec r).2 := by
  have quiet : AddNothing fun _ r => r := fun _ _ => le_rfl
  induction r using (Round.wellFounded codec quiet).induction with
  | h r ih =>
    rw [readCb_eq]
    cases step : r.turn codec with
    | fail r' => exact .fail step
    | wait r' => exact .wait step
    | dispatch r' d => exact .again step (ih _ ⟨r', d, step, rfl⟩)

/-- Every call of `readCb()` returns, from every receive state. A turn that goes round again has
taken at least one byte or discards a frame whose length had been read; then no length is left, so
the next such turn takes a byte. No more messages are dispatched than bytes are buffered, plus
one. -/
theorem readCb_terminates (codec : HeadCodec) {handler : Dispatch → Receiver → Receiver}
    (quiet : AddNothing handler) :
    (∀ (r r' : Receiver) (d : Dispatch), r.turn codec = .dispatch r' d →
      r'.input.length < r.input.length ∨ r.head.size ≠ 0 ∧ r'.input.length = r.input.length) ∧
    (∀ r s, Round codec handler r s → s.head.size = 0 ∧
      ∀ r' d, s.turn codec = .dispatch r' d → r'.input.length < s.input.length) ∧
    (WellFounded fun s r => Round codec handler r s) ∧
    (∀ r, ∃ ds s, Returns codec handler r ds s ∧ ds.length ≤ r.input.length + 1 ∧
      ∀ ds' s', Returns codec handler r ds' s' → ds' = ds ∧ s' = s) ∧
    ∀ r, Returns codec (fun _ r => r) r (readCb codec r).1 (readCb codec r).2 := by
  refine ⟨fun _ _ _ step => dispatch_progress step,
    fun _ _ round => ⟨round.fresh, fun _ _ step => dispatch_consumes round.fresh step⟩,
    Round.wellFounded codec quiet, fun r => ?_, readCb_returns codec⟩
  obtain ⟨ds, s, returns, bound⟩ := exists_returns codec quiet r
  exact ⟨ds, s, returns, bound.trans (pending_le r), fun _ _ other => other.unique returns⟩

open Library.Wire.Reader

/-- One byte of a length, with a header parsed before: the discarded frame is dispatched as an
empty message, and the loop returns. -/
theorem readCb_terminates_partial_head :
    ∃ ds s, Returns CMsgHead.codec (fun _ r => r)
        { head := .filled 4 [8], pbHead := some {} } ds s ∧ ds.length ≤ 1 :=
  have ⟨ds, s, returns, bound, _⟩ :=
    (readCb_terminates CMsgHead.codec (fun _ _ => le_rfl)).2.2.2.1
      { head := .filled 4 [8], pbHead := some {} }
  ⟨ds, s, returns, bound⟩

end MicroserviceFramework.Platform.Receiver
