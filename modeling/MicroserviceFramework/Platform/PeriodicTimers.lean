import MicroserviceFramework.Platform.ClientTask

/-!
# The periodic timer of a task

`setTimer` says that a task can have one timer. It is called for every new bufferevent, and a
timer is freed with its object only. So each new connection of an object that outlives the old one
adds a timer, and `timerCb` runs once a period for each.
-/

namespace MicroserviceFramework.Platform

open Library

namespace CComeTask

/-- There is one timer for `timerCb` at most. -/
def OneTimer (t : CComeTask) : Prop := t.events.timers.length ≤ 1

/-- `initBev` comes to a timer. -/
def initsTimer (t : CComeTask) (lib : Libevent) : Bool :=
  lib.bufferevent_new && 0 < t.timerMs && t.base && lib.event_new

/-- The step makes a new bufferevent, and with that a timer. -/
def makesTimer (t : CComeTask) : Event → Bool
  | .init bev _ connection => t.initsTimer bev ||
      (t.serverIp ≠ "" && !bev.bufferevent_new && t.initsTimer connection)
  | .connect lib => t.bev.isNone && t.initsTimer lib
  | .autoConnect lib | .autoConnectTimerCb lib => t.Idle && t.bev.isNone && t.initsTimer lib
  | .setServerIp _ | .setServerPort _ | .eventCb _ | .closeBev => false

/-- A step that makes a timer is the first to do so. -/
def FirstTimer (t : CComeTask) (event : Event) : Prop :=
  t.makesTimer event → t.events.timers = []

/-- After the step there is one timer at most. -/
def KeepsOneTimer (t : CComeTask) (event : Event) : Prop :=
  ∀ t' ∈ t.step event, t'.OneTimer

instance (t : CComeTask) : Decidable t.OneTimer := inferInstanceAs (Decidable (_ ≤ _))

instance (t : CComeTask) (event : Event) : Decidable (t.KeepsOneTimer event) :=
  Option.decidableForallMem _

variable {t t' : CComeTask}

/-! ## What a step adds -/

theorem length_timers_initBev (t : CComeTask) (lib : Libevent) :
    (t.initBev lib).2.events.timers.length =
      t.events.timers.length + (t.initsTimer lib).toNat := by
  by_cases made : lib.bufferevent_new = true
  · by_cases periodic : 0 < t.timerMs
    · by_cases based : t.base = true
      · by_cases event : lib.event_new = true <;>
          simp [initBev, setTimer, initsTimer, made, periodic, based, event]
      · simp [initBev, setTimer, initsTimer, made, periodic, based]
    · simp [initBev, initsTimer, made, periodic]
  · simp [initBev, initsTimer, made]

theorem length_timers_connect (t : CComeTask) (lib : Libevent) :
    (t.connect lib).2.events.timers.length =
      t.events.timers.length + (t.makesTimer (.connect lib)).toNat := by
  rw [connect_eq, attempted_events]
  unfold prepared
  by_cases closed : t.bev = none
  · simp [closed, length_timers_initBev, initsTimer, makesTimer]
  · simp [closed, makesTimer]

theorem length_timers_autoConnect (t : CComeTask) (lib : Libevent) :
    (t.autoConnect lib).events.timers.length =
      t.events.timers.length + (t.makesTimer (.autoConnect lib)).toNat := by
  rw [autoConnect_eq]
  split
  next idle =>
    rw [length_timers_connect]
    simp [makesTimer, idle]
  next busy => simp [makesTimer, busy]

/-- The auto-connect timer is another event, and nothing that `initBev` looks at. -/
structure SameTimers (t t' : CComeTask) : Prop where
  timers : t'.events.timers = t.events.timers
  bev : t'.bev = t.bev
  base : t'.base = t.base
  timerMs : t'.timerMs = t.timerMs

theorem setAutoConnectTimer_sameTimers (t : CComeTask) (lib : Libevent) :
    t.SameTimers (t.setAutoConnectTimer lib) := by
  have freed : t.SameTimers t.freeAutoConnectTimer := by
    unfold freeAutoConnectTimer
    split <;> constructor <;> rfl
  unfold setAutoConnectTimer
  split
  · constructor <;> rfl
  · dsimp only
    split
    · exact ⟨freed.timers, freed.bev, freed.base, freed.timerMs⟩
    · exact ⟨freed.timers, freed.bev, freed.base, freed.timerMs⟩

theorem SameTimers.makesTimer (same : t.SameTimers t') (lib : Libevent) :
    t'.makesTimer (.connect lib) = t.makesTimer (.connect lib) := by
  simp only [CComeTask.makesTimer, initsTimer, same.bev, same.base, same.timerMs]

theorem length_timers_initWith (t : CComeTask) (bev timer connection : Libevent) :
    (t.initWith bev timer connection).2.events.timers.length =
      t.events.timers.length + (t.makesTimer (.init bev timer connection)).toNat := by
  have first := t.length_timers_initBev bev
  unfold initWith
  dsimp only
  by_cases addressed : t.serverIp = ""
  · have unset : (t.initBev bev).2.serverIp = "" := by rw [initBev_serverIp, addressed]
    rw [if_pos unset, first]
    simp [makesTimer, addressed]
  · have set : (t.initBev bev).2.serverIp ≠ "" := by rwa [initBev_serverIp]
    have same := (t.initBev bev).2.setAutoConnectTimer_sameTimers timer
    rw [if_neg set, length_timers_connect, same.makesTimer, same.timers, first]
    by_cases made : bev.bufferevent_new = true
    · simp [makesTimer, made]
    · simp [makesTimer, made, addressed, initsTimer]

theorem length_timers_step {event : Event} (step : t.step event = some t') :
    t'.events.timers.length = t.events.timers.length + (t.makesTimer event).toNat := by
  cases event with
  | setServerIp ip =>
    obtain rfl := Option.some.inj step
    rfl
  | setServerPort port =>
    obtain rfl := Option.some.inj step
    rfl
  | init bev timer connection =>
    obtain rfl := Option.some.inj step
    exact t.length_timers_initWith bev timer connection
  | connect lib =>
    obtain rfl := Option.some.inj step
    exact t.length_timers_connect lib
  | autoConnect lib =>
    obtain rfl := Option.some.inj step
    exact t.length_timers_autoConnect lib
  | autoConnectTimerCb lib =>
    obtain rfl := Option.some.inj step
    exact t.length_timers_autoConnect lib
  | eventCb what =>
    rcases eventCb_cases step with ⟨-, rfl⟩ | ⟨-, rfl⟩
    · simp [makesTimer]
    · simp [makesTimer]
  | closeBev =>
    obtain rfl := eq_closed_of_closeBev step
    rfl

/-! ## Runs -/

theorem keepsOneTimer_iff {event : Event} (one : t.OneTimer) :
    t.KeepsOneTimer event ↔ t.FirstTimer event := by
  constructor
  · intro keeps makes
    rcases step : t.step event with _ | t'
    · cases event with
      | eventCb | closeBev => cases makes
      | _ => cases step
    · have added := length_timers_step step
      have one' : t'.events.timers.length ≤ 1 := keeps t' step
      rw [makes, Bool.toNat_true] at added
      exact List.length_eq_zero_iff.mp (by omega)
  · intro first t' step
    have added := length_timers_step step
    cases makes : t.makesTimer event with
    | false =>
      rw [makes, Bool.toNat_false] at added
      exact Nat.le_trans (Nat.le_of_eq added) one
    | true =>
      rw [makes, first makes] at added
      exact Nat.le_of_eq added

/-- A task keeps to one timer, along every run, exactly if no bufferevent comes with a timer after
one that did. -/
theorem one_timer_iff (fresh : t.events.timers = []) (events : List Event) :
    machine.Along KeepsOneTimer t events ↔ machine.Along FirstTimer t events := by
  have start : t.OneTimer := by simp [OneTimer, fresh]
  exact machine.along_congr_while (I := OneTimer) (fun _ _ t' _ keeps step => keeps t' step)
    (fun _ _ one => keepsOneTimer_iff one) start events

/-- A client that has its address and a timer, and outlives its connections. -/
def periodic : CComeTask := { serverIp := "127.0.0.1", autoDelete := false, timerMs := 3000 }

/-- Without a lost connection there is one timer. -/
theorem one_timer_periodic :
    machine.Along KeepsOneTimer periodic [.init {} {} {}, .eventCb { connected := true }] :=
  (one_timer_iff rfl _).mpr
    ⟨fun _ => rfl, fun _ _ => ⟨fun makes => (by cases makes), fun _ _ => trivial⟩⟩

/-- The connection is lost, and the auto-connect timer makes the next. -/
def lostAndRegained : List Event :=
  [.eventCb { connected := true }, .eventCb { eof := true }, .autoConnectTimerCb {}]

/-- The new connection comes with a second timer. -/
theorem two_timers : (machine.run periodic (.init {} {} {} :: lostAndRegained)).map
      (·.events.timers.length) = some 2 ∧
    ¬machine.Along KeepsOneTimer periodic (.init {} {} {} :: lostAndRegained) := by
  decide +kernel

end CComeTask

end MicroserviceFramework.Platform
