import MicroserviceFramework.Log.CLogClient

/-!
# Which logs the queue keeps

`addLog` takes the oldest log from a queue that has more than `LOG_LIST_MAX`, and then adds the new
one. So it keeps the newest logs, but one more than `LOG_LIST_MAX` of them.
-/

namespace MicroserviceFramework.Log

open Library Platform

/-- The client, and the logs that were accepted since the last drain. -/
structure LogQueue where
  client : CLogClient := {}
  accepted : List CAddLogReq := []

namespace LogQueue

def step (codec : HeadCodec) (s : LogQueue) (e : CLogClient.Event) : Option LogQueue :=
  (s.client.step codec e).map fun client =>
    { client := client
      accepted := if e.isTimerCb then []
        else s.accepted ++ ((s.client.accepted e).map (·.1)).toList }

def machine (codec : HeadCodec) : Machine LogQueue CLogClient.Event := ⟨step codec⟩

/-- The queue has the most recent logs, and `LOG_LIST_MAX` at most. -/
structure Newest (s : LogQueue) : Prop where
  bound : s.client.logs.length ≤ LOG_LIST_MAX
  logs : s.client.logs = s.accepted.rtake LOG_LIST_MAX

/-- The step leaves the most recent logs in the queue, and a drain sends them oldest first. -/
def KeepsNewest (codec : HeadCodec) (s : LogQueue) (e : CLogClient.Event) : Prop :=
  ∀ t, s.step codec e = some t → t.Newest ∧
    ∀ written, e = .timerCb written → (s.client.timerCb codec written).1.map (·.1) = s.client.logs

/-- A log that is accepted finds less than `LOG_LIST_MAX` logs in the queue. -/
def HasRoom (s : LogQueue) (e : CLogClient.Event) : Prop :=
  (s.client.accepted e).isSome → s.client.logs.length < LOG_LIST_MAX

instance (s : LogQueue) (e : CLogClient.Event) : Decidable (s.HasRoom e) :=
  inferInstanceAs (Decidable (_ → _))

variable {codec : HeadCodec} {s t : LogQueue} {e : CLogClient.Event}

/-- A step drains, adds a log or leaves the queue alone. -/
theorem step_cases (step : s.step codec e = some t) :
    (s.client.accepted e = none ∧ t.client.logs = [] ∧ t.accepted = []) ∨
    (s.client.accepted e = none ∧ t.client.logs = s.client.logs ∧ t.accepted = s.accepted) ∨
    ∃ log time, s.client.accepted e = some (log, time) ∧
      t.client.logs = BoundedQueue.push LOG_LIST_MAX s.client.logs log ∧
      t.accepted = s.accepted ++ [log] := by
  obtain ⟨client, moved, rfl⟩ := Option.map_eq_some_iff.mp step
  have logs := CLogClient.step_logs moved
  by_cases drains : e.isTimerCb
  · rw [if_pos drains] at logs
    exact .inl ⟨CLogClient.accepted_timerCb drains s.client, logs, if_pos drains⟩
  · rw [if_neg drains] at logs
    dsimp only
    rw [if_neg drains]
    rcases new : s.client.accepted e with _ | ⟨log, time⟩
    · rw [new] at logs
      exact .inr (.inl ⟨rfl, logs, by simp⟩)
    · rw [new] at logs
      exact .inr (.inr ⟨log, time, rfl, logs, rfl⟩)

/-! ## What the code keeps -/

/-- The queue has the most recent logs, one more than `LOG_LIST_MAX` at most. -/
def NewestMore (s : LogQueue) : Prop := s.client.logs = s.accepted.rtake (LOG_LIST_MAX + 1)

theorem machine_preserves_newestMore :
    (machine codec).Preserves (fun _ _ => True) NewestMore := by
  intro s e t newest _ step
  rcases step_cases step with ⟨-, empty, none⟩ | ⟨-, logs, accepted⟩ |
    ⟨log, time, -, logs, accepted⟩
  · rw [NewestMore, empty, none, List.rtake_nil]
  · rw [NewestMore, logs, accepted]
    exact newest
  · rw [NewestMore, logs, accepted, newest, BoundedQueue.push_rtake]

/-- After any run. -/
theorem newestMore_of_run {events : List CLogClient.Event}
    (run : (machine codec).run {} events = some s) : s.NewestMore := by
  have start : ({} : LogQueue).NewestMore := rfl
  exact (machine codec).run_invariant_always machine_preserves_newestMore start run

/-! ## What it should keep -/

theorem Newest.init : ({} : LogQueue).Newest := ⟨Nat.zero_le _, rfl⟩

/-- The queue is as long as it should be. -/
theorem Newest.length_lt_iff (newest : s.Newest) :
    s.client.logs.length < LOG_LIST_MAX ↔ s.accepted.length < LOG_LIST_MAX := by
  rw [newest.logs]
  grind

theorem Newest.push (newest : s.Newest) {log : CAddLogReq}
    (logs : t.client.logs = BoundedQueue.push LOG_LIST_MAX s.client.logs log)
    (accepted : t.accepted = s.accepted ++ [log]) :
    t.Newest ↔ s.client.logs.length < LOG_LIST_MAX := by
  have newest_iff : t.client.logs = t.accepted.rtake LOG_LIST_MAX ↔
      s.accepted.length < LOG_LIST_MAX := by
    rw [logs, newest.logs, accepted]
    exact BoundedQueue.push_rtake_iff LOG_LIST_MAX s.accepted log
  rw [newest.length_lt_iff]
  constructor
  · intro after
    exact newest_iff.mp after.logs
  · intro room
    refine ⟨?_, newest_iff.mpr room⟩
    rw [newest_iff.mpr room]
    grind

theorem keepsNewest_iff (newest : s.Newest) (e : CLogClient.Event) :
    s.KeepsNewest codec e ↔ s.HasRoom e := by
  constructor
  · intro keeps accepts
    obtain ⟨client, moved⟩ := CLogClient.step_of_accepted codec accepts
    have step : s.step codec e = some _ := congrArg (Option.map _) moved
    obtain ⟨after, -⟩ := keeps _ step
    rcases step_cases step with ⟨none, -⟩ | ⟨none, -⟩ | ⟨log, time, -, logs, accepted⟩
    · rw [none] at accepts
      cases accepts
    · rw [none] at accepts
      cases accepts
    · exact (newest.push logs accepted).mp after
  · intro room t step
    refine ⟨?_, ?_⟩
    · rcases step_cases step with ⟨-, empty, none⟩ | ⟨-, logs, accepted⟩ |
        ⟨log, time, accepts, logs, accepted⟩
      · refine ⟨?_, ?_⟩
        · rw [empty]
          exact Nat.zero_le _
        · rw [empty, none, List.rtake_nil]
      · exact ⟨logs ▸ newest.bound, by rw [logs, accepted, newest.logs]⟩
      · exact (newest.push logs accepted).mpr (room (by rw [accepts]; rfl))
    · rintro written -
      exact CLogClient.drain_sent s.client.logs written

theorem machine_preserves_newest : (machine codec).Preserves (KeepsNewest codec) Newest :=
  fun _ _ t _ keeps step => (keeps t step).1

/-- In a run of logs and drains the queue is at every moment the most recent logs since the last
drain, `LOG_LIST_MAX` at most, and drains send them oldest first, exactly if every log that is
accepted finds less than `LOG_LIST_MAX` in the queue. -/
theorem newest_logs (codec : HeadCodec) (events : List CLogClient.Event) :
    (machine codec).Along (KeepsNewest codec) {} events ↔ (machine codec).Along HasRoom {} events :=
  (machine codec).along_congr_while machine_preserves_newest
    (fun _ e newest => keepsNewest_iff newest e) .init events

/-- As many errors as the queue should have, and one more. -/
def manyErrors : List CLogClient.Event :=
  List.replicate 101 (.addLog (some { log_level := .CLOG_ERROR }) 1700000000)

open Library.Wire.Reader

theorem one_log_too_many :
    ¬(machine CMsgHead.codec).Along (KeepsNewest CMsgHead.codec) {} manyErrors ∧
      ((machine CMsgHead.codec).run {} manyErrors).map (·.client.logs.length) = some 101 := by
  refine ⟨fun keeps => ?_, by decide +kernel⟩
  have room := ((machine CMsgHead.codec).along_congr_while machine_preserves_newest
    (fun _ e newest => keepsNewest_iff newest e) .init manyErrors).mp keeps
  exact absurd room (by decide +kernel)

end LogQueue

end MicroserviceFramework.Log
