import MicroserviceFramework.Library.Ledger
import MicroserviceFramework.Log.CLogClient
import MicroserviceFramework.Platform.FailedSends

/-!
# What becomes of the logs

A call of `timerCb` takes a log from the queue under the lock and sends it after that, so other
threads can add logs in between. Here the two are steps of their own, and a ledger says where each
accepted log is. Whatever `sendMsg` returns, the log that it was given is gone.
-/

namespace MicroserviceFramework.Log

open Library Library.Wire Platform

namespace CLogClient

/-- The log server can be written to, three times, and there is something to write. -/
def CanSend (c : CLogClient) (log : CAddLogReq) (written : List Bool) : Prop :=
  c.task.bev.isSome ∧ log ≠ {} ∧ ∀ ok ∈ written.take 3, ok = true

instance (c : CLogClient) (log : CAddLogReq) (written : List Bool) :
    Decidable (c.CanSend log written) :=
  inferInstanceAs (Decidable (_ ∧ _))

theorem sendMsg_eq_true (codec : HeadCodec) (log : CAddLogReq) (written : List Bool)
    (c : CLogClient) : (c.sendMsg codec log written).1 = true ↔ c.CanSend log written := by
  rcases bev : c.task.bev with _ | b
  · simp [sendMsg, CComeTask.sendMsg, CComeTask.parts, CComeTask.writeAll,
      CComeTask.writeMsg_down bev, CanSend, bev]
  · have up : c.task.bev.isSome := by rw [bev, Option.isSome_some]
    let body := Message.serialize log
    let head : CMsgHead := { msgType := .MSG_ADD_LOG_REQ, msgSize := .ofInt body.length }
    have writes := CComeTask.writeAll_eq_true up
      [le32 (codec.serialize head).length, codec.serialize head, body] written
    refine writes.trans ⟨?_, ?_⟩
    · rintro ⟨parts, succeed⟩
      refine ⟨up, ?_, succeed⟩
      rintro rfl
      exact parts body (by simp) rfl
    · rintro ⟨-, something, succeed⟩
      have head_bytes : codec.serialize head ≠ [] := fun empty => by
        have typed : CMsgType.MSG_ADD_LOG_REQ = 0 :=
          congrArg CMsgHead.msgType (codec.eq_default empty)
        exact absurd typed (by decide)
      have body_bytes : body ≠ [] := fun empty => something (Message.eq_of_serialize_nil empty rfl)
      exact ⟨by simp [le32, head_bytes, body_bytes], succeed⟩

end CLogClient

/-- A log that was accepted, with what `addLog` found then. -/
structure Logged where
  req : CAddLogReq
  time : Int32
  servicePort : Int32
  serviceName : String

structure LogDelivery where
  client : CLogClient := {}
  ledger : Ledger Logged := {}
  /-- `log` of `timerCb`, from when it is taken until it has been sent. -/
  log : Option CAddLogReq := none

namespace LogDelivery

inductive Event where
  /-- Anything but `timerCb`. -/
  | call (e : CLogClient.Event)
  | pop
  | sendMsg (written : List Bool)

def step (codec : HeadCodec) (s : LogDelivery) : Event → Option LogDelivery
  | .call e =>
    if e.isTimerCb then none
    else (s.client.step codec e).map fun client =>
      { s with
        client := client
        ledger := match s.client.accepted e with
          | none => s.ledger
          | some (req, time) =>
            s.ledger.push LOG_LIST_MAX ⟨req, time, s.client.servicePort, s.client.serviceName⟩ }
  | .pop =>
    match s.log, s.client.logs with
    | none, log :: logs =>
      some { client := { s.client with logs := logs }, ledger := s.ledger.take, log := some log }
    | _, _ => none
  | .sendMsg written =>
    s.log.map fun log =>
      let (ok, client) := s.client.sendMsg codec log written
      { client := client, ledger := s.ledger.settle ok, log := none }

def machine (codec : HeadCodec) : Machine LogDelivery Event := ⟨step codec⟩

/-- The client with an empty queue. -/
def start (client : CLogClient) : LogDelivery := { client := { client with logs := [] } }

variable {codec : HeadCodec} {s t : LogDelivery}

/-! ## A call of `timerCb` -/

/-- The steps of a call that finds this many logs and that nothing comes between. -/
def timerCb : Nat → List (List Bool) → List Event
  | 0, _ => []
  | n + 1, written => .pop :: .sendMsg (written.headD []) :: timerCb n written.tail

theorem run_drain (codec : HeadCodec) (logs : List CAddLogReq) (written : List (List Bool))
    (c : CLogClient) (ledger : Ledger Logged) : ∃ ledger',
    (machine codec).run { client := { c with logs := logs }, ledger := ledger }
        (timerCb logs.length written) =
      some { client := (c.drain codec logs written).2, ledger := ledger' } := by
  induction logs generalizing written c ledger with
  | nil => exact ⟨ledger, rfl⟩
  | cons log logs ih => exact ih written.tail (c.sendMsg codec log (written.headD [])).2 _

/-- It comes to the same as the call from beginning to end. -/
theorem run_timerCb (written : List (List Bool)) (between : s.log = none) : ∃ ledger,
    (machine codec).run s (timerCb s.client.logs.length written) =
      some { client := (s.client.timerCb codec written).2, ledger := ledger } := by
  obtain ⟨client, ledger, log⟩ := s
  obtain rfl := between
  exact run_drain codec client.logs written client ledger

/-! ## What a step does -/

theorem step_call {e : CLogClient.Event} (step : s.step codec (.call e) = some t) :
    ∃ client, e.isTimerCb = false ∧ s.client.step codec e = some client ∧
      t = { s with client := client, ledger := (s.client.accepted e).elim s.ledger fun (req, time) =>
        s.ledger.push LOG_LIST_MAX ⟨req, time, s.client.servicePort, s.client.serviceName⟩ } := by
  simp only [LogDelivery.step] at step
  split at step
  · cases step
  next other =>
    obtain ⟨client, moved, rfl⟩ := Option.map_eq_some_iff.mp step
    refine ⟨client, by simpa using other, moved, ?_⟩
    cases s.client.accepted e <;> rfl

theorem step_pop (step : s.step codec .pop = some t) :
    ∃ log logs, s.log = none ∧ s.client.logs = log :: logs ∧
      t = { client := { s.client with logs := logs }, ledger := s.ledger.take,
            log := some log } := by
  simp only [LogDelivery.step] at step
  split at step
  next log logs idle queue => exact ⟨log, logs, idle, queue, (Option.some.inj step).symm⟩
  · cases step

theorem step_sendMsg {written : List Bool} (step : s.step codec (.sendMsg written) = some t) :
    ∃ log, s.log = some log ∧ t =
      { client := (s.client.sendMsg codec log written).2
        ledger := s.ledger.settle (s.client.sendMsg codec log written).1 } := by
  obtain ⟨log, held, rfl⟩ := Option.map_eq_some_iff.mp step
  exact ⟨log, held, rfl⟩

/-! ## The ledger -/

/-- What the ledger says of the client. -/
structure Tallies (s : LogDelivery) : Prop where
  balanced : s.ledger.Balanced
  queue : s.client.logs = s.ledger.queue.map (·.req)
  idle : s.log = none → s.ledger.hand = none
  hand : ∀ log, s.log = some log →
    ∃ i logged, s.ledger.hand = some i ∧ s.ledger.entries[i]? = some logged ∧ logged.req = log

theorem Tallies.start (client : CLogClient) : (start client).Tallies :=
  ⟨⟨Nat.le_refl 0, .refl []⟩, rfl, fun _ => rfl, by rintro log ⟨⟩⟩

theorem Tallies.call (tallies : s.Tallies) {e : CLogClient.Event}
    (step : s.step codec (.call e) = some t) : t.Tallies := by
  obtain ⟨client, other, moved, rfl⟩ := step_call step
  have logs := CLogClient.step_logs moved
  rw [other, if_neg Bool.false_ne_true] at logs
  rcases new : s.client.accepted e with _ | ⟨req, time⟩
  · rw [new] at logs
    exact ⟨tallies.balanced, logs.trans tallies.queue, tallies.idle, tallies.hand⟩
  · rw [new] at logs
    refine ⟨tallies.balanced.push _ _, ?_, ?_, ?_⟩
    · simp only [logs, tallies.queue, Option.elim_some,
        Ledger.queue_push tallies.balanced.left_le, BoundedQueue.map_push]
    · intro idle
      rw [Option.elim_some, Ledger.hand_push]
      exact tallies.idle idle
    · intro log held
      obtain ⟨i, logged, hand, entry, req⟩ := tallies.hand log held
      exact ⟨i, logged, by rw [Option.elim_some, Ledger.hand_push, hand],
        Ledger.getElem?_entries_push entry _, req⟩

theorem Tallies.pop (tallies : s.Tallies) (step : s.step codec .pop = some t) : t.Tallies := by
  obtain ⟨log, logs, idle, queue, rfl⟩ := step_pop step
  rw [tallies.queue] at queue
  obtain ⟨logged, rest, entries, rfl, rfl⟩ := List.map_eq_cons_iff.mp queue
  have some_queued : s.ledger.queue ≠ [] := by simp [entries]
  refine ⟨tallies.balanced.take (tallies.idle idle) some_queued, ?_, ?_, ?_⟩
  · rw [Ledger.queue_take, entries, List.tail_cons]
  · rintro ⟨⟩
  · rintro _ ⟨⟩
    exact ⟨s.ledger.left, logged, rfl, Ledger.entries_left entries, rfl⟩

theorem Tallies.sendMsg (tallies : s.Tallies) {written : List Bool}
    (step : s.step codec (.sendMsg written) = some t) : t.Tallies := by
  obtain ⟨log, held, rfl⟩ := step_sendMsg step
  refine ⟨tallies.balanced.settle _, ?_, ?_, ?_⟩
  · rw [Ledger.queue_settle]
    exact tallies.queue
  · intro _
    exact Ledger.hand_settle _
  · rintro _ ⟨⟩

theorem machine_preserves_tallies : (machine codec).Preserves (fun _ _ => True) Tallies := by
  intro s e t tallies _ step
  replace step : s.step codec e = some t := step
  cases e with
  | call e => exact tallies.call step
  | pop => exact tallies.pop step
  | sendMsg written => exact tallies.sendMsg step

/-- In any run a log that has left the queue is in one place: it was sent, once, it was lost in
`sendMsg`, `addLog` discarded it, or `timerCb` holds it. -/
theorem tallies_of_run {client : CLogClient} {events : List Event}
    (run : (machine codec).run (start client) events = some s) : s.Tallies :=
  (machine codec).run_invariant_always machine_preserves_tallies (.start client) run

/-! ## What should be so -/

/-- After the step a log that has left the queue was sent, discarded by `addLog` or is held by
`timerCb`, one that could not be sent has not left, and none was sent twice. -/
def LosesNone (codec : HeadCodec) (s : LogDelivery) (e : Event) : Prop :=
  ∀ t, s.step codec e = some t → t.ledger.Accounted

/-- A log that `timerCb` has taken can be sent. -/
def Sendable (s : LogDelivery) : Event → Prop
  | .sendMsg written => ∀ log ∈ s.log, s.client.CanSend log written
  | _ => True

instance (s : LogDelivery) : (e : Event) → Decidable (s.Sendable e)
  | .sendMsg _ => inferInstanceAs (Decidable (∀ log ∈ s.log, _))
  | .call _ | .pop => .isTrue trivial

/-- No send has failed so far. -/
structure NoFailure (s : LogDelivery) : Prop where
  tallies : s.Tallies
  failed : s.ledger.failed = []

theorem losesNone_iff {e : Event} (before : s.NoFailure) : s.LosesNone codec e ↔ s.Sendable e := by
  have accounted (t : LogDelivery) (step : s.step codec e = some t) :
      t.ledger.Accounted ↔ t.ledger.failed = [] :=
    (machine_preserves_tallies s e t before.tallies trivial step).balanced.accounted_iff
  cases e with
  | call e =>
    refine ⟨fun _ => trivial, fun _ t step => (accounted t step).mpr ?_⟩
    obtain ⟨client, -, -, rfl⟩ := step_call step
    rcases new : s.client.accepted e with _ | ⟨req, time⟩
    · exact before.failed
    · exact (Ledger.failed_push _ _).trans before.failed
  | pop =>
    refine ⟨fun _ => trivial, fun _ t step => (accounted t step).mpr ?_⟩
    obtain ⟨log, logs, -, -, rfl⟩ := step_pop step
    exact before.failed
  | sendMsg written =>
    constructor
    · rintro loses log held
      have step : s.step codec (.sendMsg written) = some _ := congrArg (Option.map _) held
      have failed := (accounted _ step).mp (loses _ step)
      obtain ⟨i, logged, hand, -, -⟩ := before.tallies.hand log held
      rw [Ledger.failed_settle, before.failed, hand] at failed
      rw [← CLogClient.sendMsg_eq_true codec]
      simpa using failed
    · intro sendable t step
      refine (accounted t step).mpr ?_
      obtain ⟨log, held, rfl⟩ := step_sendMsg step
      have sent := (CLogClient.sendMsg_eq_true codec log written s.client).mpr (sendable log held)
      simp only [Ledger.failed_settle, sent, before.failed]
      rfl

theorem machine_preserves_noFailure : (machine codec).Preserves (LosesNone codec) NoFailure := by
  intro s e t before loses step
  have tallies := machine_preserves_tallies s e t before.tallies trivial step
  exact ⟨tallies, tallies.balanced.accounted_iff.mp (loses t step)⟩

/-- Logs are lost by overflow only, in every run in which the logs that `timerCb` takes can be sent,
and in no other: there is a connection to write to, the writes succeed, and the log is not empty. -/
theorem lost_by_overflow_only (codec : HeadCodec) (client : CLogClient) (events : List Event) :
    (machine codec).Along (LosesNone codec) (start client) events ↔
      (machine codec).Along Sendable (start client) events :=
  (machine codec).along_congr_while machine_preserves_noFailure (fun _ _ => losesNone_iff)
    ⟨.start client, rfl⟩ events

open Library.Wire.Reader

/-- The log server has not been reached yet when the timer comes. -/
theorem lost_without_connection :
    ¬(machine CMsgHead.codec).Along (LosesNone CMsgHead.codec) (start {})
      [.call (.addLog (some { log_level := .CLOG_ERROR, filename := "main.cpp" }) 1700000000), .pop,
        .sendMsg []] := by
  rintro ⟨-, rest⟩
  have loses := ((rest _ rfl).2 _ rfl).1
  have accounted := loses _ rfl
  exact absurd (accounted.left 0 (by decide)) (by decide)

end LogDelivery

end MicroserviceFramework.Log
