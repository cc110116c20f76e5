import MicroserviceFramework.Platform.CComeTask
import MicroserviceFramework.Library.Machine

/-!
# The life of a client task

A `CComeTask` that connects to a server: its owner sets the address, initialises it and asks for
connections, the event loop reports what becomes of them and runs the auto-connect timer. A step is
one call, from beginning to end. What `connect` and `init` do to the object is said once here, for
the flags and the timers.
-/

namespace MicroserviceFramework.Platform

open Library

namespace CComeTask

def setServerIp (ip : String) (t : CComeTask) : CComeTask := { t with serverIp := ip }

/-- `init` whose three groups of libevent calls come out each in its own way: those for the
bufferevent, for the auto-connect timer, and for the connection. -/
def initWith (bev timer connection : Libevent) (t : CComeTask) : Bool × CComeTask :=
  let t := (t.initBev bev).2
  if t.serverIp = "" then (true, t) else (t.setAutoConnectTimer timer).connect connection

/-- The call up to where it waits for the connection, which changes nothing. -/
def autoConnect (lib : Libevent) (t : CComeTask) : CComeTask :=
  if t.isConnected then t
  else if !t.isConnecting then (t.connect lib).2 else t

inductive Event where
  | setServerIp (ip : String)
  /-- The port goes into the address that `connect` passes on, and is not part of the model. -/
  | setServerPort (port : Int)
  | init (bev timer connection : Libevent)
  | connect (lib : Libevent)
  | autoConnect (lib : Libevent)
  | autoConnectTimerCb (lib : Libevent)
  | eventCb (what : What)
  | closeBev

def step (t : CComeTask) : Event → Option CComeTask
  | .setServerIp ip => some (t.setServerIp ip)
  | .setServerPort _ => some t
  | .init bev timer connection => some (t.initWith bev timer connection).2
  | .connect lib => some (t.connect lib).2
  | .autoConnect lib => some (t.autoConnect lib)
  | .autoConnectTimerCb lib => some (t.autoConnectTimerCb lib)
  | .eventCb what => t.eventCb what
  | .closeBev => t.closeBev

def machine : Machine CComeTask Event := ⟨step⟩

/-- The call goes on to `connect`: it finds neither a connection nor an attempt. -/
def Idle (t : CComeTask) : Prop := t.isConnected = false ∧ t.isConnecting = false

instance (t : CComeTask) : Decidable t.Idle := inferInstanceAs (Decidable (_ ∧ _))

theorem autoConnect_eq (lib : Libevent) (t : CComeTask) :
    t.autoConnect lib = if t.Idle then (t.connect lib).2 else t := by
  unfold autoConnect
  rcases connected : t.isConnected with _ | _
  · rcases connecting : t.isConnecting with _ | _ <;> simp [Idle, connected, connecting]
  · simp [Idle, connected]

theorem autoConnectTimerCb_eq (lib : Libevent) (t : CComeTask) :
    t.autoConnectTimerCb lib = if t.Idle then (t.connect lib).2 else t :=
  autoConnect_eq lib t

/-- `initBev` sets the bufferevent, and the timer with it. -/
theorem initBev_eq (lib : Libevent) (t : CComeTask) : ∃ timerEvent events, (t.initBev lib).2 =
    { t with
      bev := if lib.bufferevent_new then some {} else none
      timerEvent := timerEvent
      events := events } := by
  by_cases made : lib.bufferevent_new = true
  · simp only [initBev, made, Bool.not_true, Bool.false_eq_true, if_false, if_true]
    split
    · unfold setTimer
      split
      · exact ⟨_, _, rfl⟩
      · split <;> exact ⟨_, _, rfl⟩
    · exact ⟨_, _, rfl⟩
  · simp only [initBev, made, Bool.not_false, if_true, Bool.false_eq_true]
    exact ⟨_, _, rfl⟩

@[simp] theorem initBev_serverIp (lib : Libevent) (t : CComeTask) :
    (t.initBev lib).2.serverIp = t.serverIp := by
  obtain ⟨timerEvent, events, made⟩ := t.initBev_eq lib
  rw [made]

@[simp] theorem initBev_base (lib : Libevent) (t : CComeTask) :
    (t.initBev lib).2.base = t.base := by
  obtain ⟨timerEvent, events, made⟩ := t.initBev_eq lib
  rw [made]

@[simp] theorem initBev_timerMs (lib : Libevent) (t : CComeTask) :
    (t.initBev lib).2.timerMs = t.timerMs := by
  obtain ⟨timerEvent, events, made⟩ := t.initBev_eq lib
  rw [made]

@[simp] theorem initBev_isConnected (lib : Libevent) (t : CComeTask) :
    (t.initBev lib).2.isConnected = t.isConnected := by
  obtain ⟨timerEvent, events, made⟩ := t.initBev_eq lib
  rw [made]

@[simp] theorem initBev_isConnecting (lib : Libevent) (t : CComeTask) :
    (t.initBev lib).2.isConnecting = t.isConnecting := by
  obtain ⟨timerEvent, events, made⟩ := t.initBev_eq lib
  rw [made]

/-- `connect` up to the socket: the flags are reset, and there is a bufferevent if it can be had. -/
def prepared (lib : Libevent) (t : CComeTask) : CComeTask :=
  let t := { t with isConnected := false, isConnecting := false }
  if t.bev.isNone then (t.initBev lib).2 else t

/-- The rest of `connect`. -/
def attempted (lib : Libevent) (t : CComeTask) : Bool × CComeTask :=
  match t.bev with
  | none => (false, t)
  | some bev =>
    if !lib.socket_connect then (false, t)
    else (true, { t with bev := some { bev with attempt := true }, isConnecting := true })

theorem connect_eq (lib : Libevent) (t : CComeTask) :
    t.connect lib = (t.prepared lib).attempted lib := rfl

@[simp] theorem attempted_events (lib : Libevent) (t : CComeTask) :
    (t.attempted lib).2.events = t.events := by
  unfold attempted
  split
  · rfl
  · split <;> rfl

/-- What `eventCb` does to the object before it looks for an ending. -/
def reported (what : What) (t : CComeTask) : CComeTask :=
  if what.connected then
    { t with
      isConnected := true
      isConnecting := false
      bev := t.bev.map fun bev => { bev with attempt := false } }
  else t

/-- The object after `closeBev`, when it is not deleted. -/
def closed (t : CComeTask) : CComeTask :=
  { t with isConnected := false, isConnecting := false, bev := none, msg := {} }

@[simp] theorem reported_events (what : What) (t : CComeTask) :
    (t.reported what).events = t.events := by
  unfold reported
  split <;> rfl

@[simp] theorem closed_events (t : CComeTask) : t.closed.events = t.events := rfl

@[simp] theorem reported_autoDelete (what : What) (t : CComeTask) :
    (t.reported what).autoDelete = t.autoDelete := by
  unfold reported
  split <;> rfl

@[simp] theorem closed_closed (t : CComeTask) : t.closed.closed = t.closed := rfl

@[simp] theorem closed_autoDelete (t : CComeTask) : t.closed.autoDelete = t.autoDelete := rfl

theorem closeBev_eq (t : CComeTask) :
    t.closeBev = if t.autoDelete then none else some t.closed := rfl

/-- Without an ending the connection may have been reported, with one the object is closed. -/
theorem eventCb_eq (what : What) (t : CComeTask) :
    t.eventCb what =
      if what.ending then if t.autoDelete then none else some (t.reported what).closed
      else some (t.reported what) := by
  have steps : t.eventCb what =
      ((if what.error then (t.reported what).closeBev else some (t.reported what)).bind fun t =>
        (if what.timeout then t.closeBev else some t).bind fun t =>
          if what.eof then t.closeBev else some t) := by
    obtain ⟨connected, error, timeout, eof⟩ := what
    cases error <;> cases timeout <;> rfl
  obtain ⟨connected, error, timeout, eof⟩ := what
  rw [steps]
  simp only [What.ending, closeBev_eq, reported_autoDelete]
  cases deleted : t.autoDelete <;> cases error <;> cases timeout <;> cases eof <;> simp [deleted]

/-- If the object is still there, it was closed or only reported to. -/
theorem eventCb_cases {what : What} {t t' : CComeTask} (step : t.eventCb what = some t') :
    what.ending = true ∧ t' = (t.reported what).closed ∨
      what.ending = false ∧ t' = t.reported what := by
  rw [eventCb_eq] at step
  split at step
  next ending =>
    split at step
    · cases step
    · exact .inl ⟨ending, (Option.some.inj step).symm⟩
  next still => exact .inr ⟨Bool.eq_false_iff.mpr still, (Option.some.inj step).symm⟩

theorem eq_closed_of_closeBev {t t' : CComeTask} (step : t.closeBev = some t') : t' = t.closed := by
  rw [closeBev_eq] at step
  split at step
  · cases step
  · exact (Option.some.inj step).symm

/-! The address stays as it was set. -/

section

variable (lib : Libevent) (t : CComeTask)

@[simp] theorem setAutoConnectTimer_serverIp :
    (t.setAutoConnectTimer lib).serverIp = t.serverIp := by
  unfold setAutoConnectTimer freeAutoConnectTimer
  grind

@[simp] theorem connect_serverIp : (t.connect lib).2.serverIp = t.serverIp := by
  have kept : (t.prepared lib).serverIp = t.serverIp := by
    unfold prepared
    dsimp only
    split
    · rw [initBev_serverIp]
    · rfl
  rw [connect_eq, ← kept]
  unfold attempted
  grind

@[simp] theorem init_serverIp : (t.init lib).2.serverIp = t.serverIp := by
  simp only [init]
  split
  · exact initBev_serverIp lib t
  · rw [connect_serverIp, setAutoConnectTimer_serverIp, initBev_serverIp]

@[simp] theorem autoConnectTimerCb_serverIp :
    (t.autoConnectTimerCb lib).serverIp = t.serverIp := by
  rw [autoConnectTimerCb_eq]
  split
  · exact connect_serverIp lib t
  · rfl

end

theorem eventCb_serverIp {what : What} {t t' : CComeTask} (step : t.eventCb what = some t') :
    t'.serverIp = t.serverIp := by
  have kept : (t.reported what).serverIp = t.serverIp := by
    unfold reported
    split <;> rfl
  rcases eventCb_cases step with ⟨-, rfl⟩ | ⟨-, rfl⟩
  · exact kept
  · exact kept

end CComeTask

end MicroserviceFramework.Platform
