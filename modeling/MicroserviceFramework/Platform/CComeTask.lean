import MicroserviceFramework.Platform.CMsg

/-!
# The lifecycle of a connection object

`CComeTask` of `ccometask.cpp`: the bufferevent and its flags, the two timers, and what the
event callback does. A step takes the outcomes of its libevent calls as an argument. Timer
events are numbered in the order of `event_new`; the object's own members are pointers to them,
while `Events` is the event base's view of this object.

A method that ends in `delete this`, after clearing the timers, returns `none`. `serverIp` is
the C string that was set, at its full length.
-/

namespace MicroserviceFramework.Platform

/-- What the libevent calls of one step return. -/
structure Libevent where
  bufferevent_new : Bool := true
  event_new : Bool := true
  socket_connect : Bool := true
  deriving DecidableEq, Repr

structure Bufferevent where
  /-- What `bufferevent_write` has appended. -/
  output : List UInt8 := []
  /-- A connect was started and its result has not been reported. -/
  attempt : Bool := false
  deriving DecidableEq, Repr

/-- The timer events of one object that are registered with the event base. -/
structure Events where
  next : Nat := 0
  timers : List Nat := []
  autoConnectTimers : List Nat := []
  deriving DecidableEq, Repr

/-- The flags of an event callback; libevent reports one ending at a time. -/
structure What where
  connected : Bool := false
  error : Bool := false
  timeout : Bool := false
  eof : Bool := false
  deriving DecidableEq, Repr

/-- The connection has ended. -/
def What.ending (what : What) : Bool := what.error || what.timeout || what.eof

structure CComeTask where
  base : Bool := true
  bev : Option Bufferevent := none
  isConnecting : Bool := true
  isConnected : Bool := false
  autoDelete : Bool := true
  serverIp : String := ""
  timerMs : Int := 0
  timerEvent : Option Nat := none
  autoConnectTimerEvent : Option Nat := none
  events : Events := {}
  msg : CMsg := {}
  deriving DecidableEq, Repr

namespace CComeTask

def setTimer (lib : Libevent) (t : CComeTask) : CComeTask :=
  if !t.base then t
  else if !lib.event_new then { t with timerEvent := none }
  else
    { t with
      timerEvent := some t.events.next
      events := { t.events with
        next := t.events.next + 1
        timers := t.events.next :: t.events.timers } }

/-- `event_free` of the auto-connect timer, when there is one. -/
def freeAutoConnectTimer (t : CComeTask) : CComeTask :=
  match t.autoConnectTimerEvent with
  | none => t
  | some e =>
    { t with
      autoConnectTimerEvent := none
      events := { t.events with autoConnectTimers := t.events.autoConnectTimers.erase e } }

def setAutoConnectTimer (lib : Libevent) (t : CComeTask) : CComeTask :=
  if !t.base then t
  else
    let t := t.freeAutoConnectTimer
    if !lib.event_new then { t with autoConnectTimerEvent := none }
    else
      { t with
        autoConnectTimerEvent := some t.events.next
        events := { t.events with
          next := t.events.next + 1
          autoConnectTimers := t.events.next :: t.events.autoConnectTimers } }

/-- Plain and TLS bufferevents differ only in the constructor that can fail. -/
def initBev (lib : Libevent) (t : CComeTask) : Bool × CComeTask :=
  if !lib.bufferevent_new then (false, { t with bev := none })
  else
    let t := { t with bev := some {} }
    (true, if 0 < t.timerMs then t.setTimer lib else t)

def connect (lib : Libevent) (t : CComeTask) : Bool × CComeTask :=
  let t := { t with isConnected := false, isConnecting := false }
  let t := if t.bev.isNone then (t.initBev lib).2 else t
  match t.bev with
  | none => (false, t)
  | some bev =>
    if !lib.socket_connect then (false, t)
    else (true, { t with bev := some { bev with attempt := true }, isConnecting := true })

def init (lib : Libevent) (t : CComeTask) : Bool × CComeTask :=
  let t := (t.initBev lib).2
  if t.serverIp = "" then (true, t) else (t.setAutoConnectTimer lib).connect lib

def autoConnectTimerCb (lib : Libevent) (t : CComeTask) : CComeTask :=
  if t.isConnected then t
  else if !t.isConnecting then (t.connect lib).2 else t

/-- The bufferevent is freed with what it holds, and the base class's own `msg_` is zeroed. -/
def closeBev (t : CComeTask) : Option CComeTask :=
  let t := { t with isConnected := false, isConnecting := false, bev := none, msg := {} }
  if t.autoDelete then none else some t

/-- Three of the flags end the connection; `closeBev` runs once for each that is set. -/
def eventCb (what : What) (t : CComeTask) : Option CComeTask := do
  let t := if what.connected then
    { t with
      isConnected := true
      isConnecting := false
      bev := t.bev.map fun bev => { bev with attempt := false } }
    else t
  let t ← if what.error then t.closeBev else some t
  let t ← if what.timeout then t.closeBev else some t
  if what.eof then t.closeBev else some t

/-- `written` is whether `bufferevent_write` succeeds; when it fails it appends nothing. -/
def writeMsg (data : Option (List UInt8)) (size : Int) (written : Bool) (t : CComeTask) :
    Bool × CComeTask :=
  match t.bev, data with
  | some bev, some data =>
    if size ≤ 0 ∨ !written then (false, t)
    else (true, { t with bev := some { bev with output := bev.output ++ data.take size.toNat } })
  | _, _ => (false, t)

@[simp] theorem writeMsg_isConnected (data : Option (List UInt8)) (size : Int) (written : Bool)
    (t : CComeTask) : (t.writeMsg data size written).2.isConnected = t.isConnected := by
  unfold writeMsg
  repeat' split
  all_goals rfl

theorem writeMsg_serverIp (data : Option (List UInt8)) (size : Int) (written : Bool)
    (t : CComeTask) : (t.writeMsg data size written).2.serverIp = t.serverIp := by
  unfold writeMsg
  grind

/-- The same object after some bytes were appended to its output. -/
def append (t : CComeTask) (bytes : List UInt8) : CComeTask :=
  { t with bev := t.bev.map fun bev => { bev with output := bev.output ++ bytes } }

@[simp] theorem append_nil (t : CComeTask) : t.append [] = t := by
  cases t with | mk base bev => cases bev <;> simp [append]

@[simp] theorem append_append (t : CComeTask) (xs ys : List UInt8) :
    (t.append xs).append ys = t.append (xs ++ ys) := by
  simp [append, Function.comp_def]

@[simp] theorem append_bev_isSome (t : CComeTask) (bytes : List UInt8) :
    (t.append bytes).bev.isSome = t.bev.isSome := by
  simp [append]

/-- What has been written on the current bufferevent. -/
def output (t : CComeTask) : List UInt8 := (t.bev.map (·.output)).getD []

theorem append_output {t : CComeTask} (up : t.bev.isSome) (bytes : List UInt8) :
    (t.append bytes).output = t.output ++ bytes := by
  obtain ⟨bev, made⟩ := Option.isSome_iff_exists.mp up
  simp [output, append, made]

/-- A write that does not fail in libevent appends all its bytes; no bytes count as a failure. -/
theorem writeMsg_bytes {t : CComeTask} (up : t.bev.isSome) (data : List UInt8) :
    t.writeMsg (some data) data.length true = (!data.isEmpty, t.append data) := by
  obtain ⟨bev, some_bev⟩ := Option.isSome_iff_exists.mp up
  cases data with
  | nil => simp [writeMsg, some_bev]
  | cons b bs =>
    have pos : ¬((b :: bs).length : Int) ≤ 0 := by simp only [List.length_cons]; omega
    simp only [writeMsg, some_bev, pos, Bool.not_true, Bool.false_eq_true, or_self, if_false,
      append, Option.map_some, Int.toNat_natCast, List.take_length, List.isEmpty_cons,
      Bool.not_false]

/-- Any ending closes the bufferevent, and deletes the object if it is of the kind that is. -/
theorem eventCb_ending {what : What} (ends : what.ending) (t : CComeTask) :
    (t.autoDelete = true → t.eventCb what = none) ∧
    (t.autoDelete = false → ∃ t', t.eventCb what = some t' ∧ t'.bev = none ∧
      t'.autoDelete = false ∧ t'.isConnected = false ∧ t'.isConnecting = false) := by
  obtain ⟨connected, error, timeout, eof⟩ := what
  constructor
  · intro deleted
    revert ends
    cases connected <;> cases error <;> cases timeout <;> cases eof <;>
      simp [What.ending, eventCb, closeBev, deleted]
  · intro kept
    revert ends
    cases connected <;> cases error <;> cases timeout <;> cases eof <;>
      simp [What.ending, eventCb, closeBev, kept]

@[simp] theorem setTimer_bev (lib : Libevent) (t : CComeTask) : (t.setTimer lib).bev = t.bev := by
  unfold setTimer
  split
  · rfl
  · split <;> rfl

@[simp] theorem initBev_bev (lib : Libevent) (t : CComeTask) :
    (t.initBev lib).2.bev = if lib.bufferevent_new then some {} else none := by
  cases allocated : lib.bufferevent_new with
  | false => simp [initBev, allocated]
  | true =>
    simp only [initBev, allocated, Bool.not_true, Bool.false_eq_true, if_false, if_true]
    split <;> simp

/-- Connecting anew succeeds when libevent does its part, and then there is a bufferevent. -/
theorem connect_closed (t : CComeTask) (lib : Libevent) (closed : t.bev = none) :
    (t.connect lib).1 = (lib.bufferevent_new && lib.socket_connect) ∧
      ((t.connect lib).1 → (t.connect lib).2.bev.isSome) := by
  cases allocated : lib.bufferevent_new with
  | false => simp [connect, closed, allocated]
  | true => cases connected : lib.socket_connect <;> simp [connect, closed, allocated, connected]

theorem eventCb_connected (t : CComeTask) :
    t.eventCb { connected := true } = some
      { t with
        isConnected := true
        isConnecting := false
        bev := t.bev.map fun bev => { bev with attempt := false } } := by
  simp [eventCb]

end CComeTask

end MicroserviceFramework.Platform
