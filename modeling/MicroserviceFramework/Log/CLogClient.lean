import MicroserviceFramework.Library.BoundedQueue
import MicroserviceFramework.Platform.ClientTask
import MicroserviceFramework.Platform.CMsgCom
import MicroserviceFramework.Platform.Sender

/-!
# The log client

`CLogClient` puts the logs of its process into a queue, and its timer sends them to the log server.
The text that goes to the console and to a local file is left out. A call of the timer is from
beginning to end here; `LogDelivery` takes it apart.
-/

namespace MicroserviceFramework.Log

open Library Library.Wire Platform

def LOG_LIST_MAX : Nat := 100

structure CLogClient where
  logLevel : CLogLevel := .CLOG_INFO
  servicePort : Int32 := 0
  serviceName : String := ""
  logs : List CAddLogReq := []
  task : CComeTask := { autoDelete := false }

namespace CLogClient

/-- The copy that `addLog` makes: with a time, and the port and name of the service. -/
def attributed (req : CAddLogReq) (time : Int32) (c : CLogClient) : CAddLogReq :=
  { req with
    log_time := if req.log_time ≤ 0 then time else req.log_time
    service_port := c.servicePort
    service_name := c.serviceName }

/-- `time` is what `time(0)` returns. -/
def addLog (req : Option CAddLogReq) (time : Int32) (c : CLogClient) : CLogClient :=
  match req with
  | none => c
  | some req =>
    if req.log_level < c.logLevel then c
    else
      let _tmp := c.attributed req time
      -- it is the request that is queued, not the copy
      { c with logs := BoundedQueue.push LOG_LIST_MAX c.logs req }

/-- The request that `cms::cLog` makes of a log. -/
def cLogReq (level : CLogLevel) (msg : List UInt8) (filename : String) (line : Int32) :
    CAddLogReq where
  log_level := level
  log_txt := msg
  filename := filename
  line := line

/-- `sendMsg(MSG_ADD_LOG_REQ, &log)`. -/
def sendMsg (codec : HeadCodec) (log : CAddLogReq) (written : List Bool) (c : CLogClient) :
    Bool × CLogClient :=
  let (ok, task) := c.task.sendMsg codec (some { msgType := .MSG_ADD_LOG_REQ })
    (some (.ofBytes (Message.serialize log))) written
  (ok, { c with task := task })

/-- The loop of `timerCb`, which takes the logs from the queue one by one. -/
def drain (codec : HeadCodec) : List CAddLogReq → List (List Bool) → CLogClient →
    List (CAddLogReq × Bool) × CLogClient
  | [], _, c => ([], { c with logs := [] })
  | log :: logs, written, c =>
    let (ok, c) := c.sendMsg codec log (written.headD [])
    let (sent, c) := drain codec logs written.tail c
    ((log, ok) :: sent, c)

/-- The logs that are passed to `sendMsg`, with what that returns, whatever becomes of them. -/
def timerCb (codec : HeadCodec) (written : List (List Bool)) (c : CLogClient) :
    List (CAddLogReq × Bool) × CLogClient :=
  drain codec c.logs written c

/-! ## Steps -/

inductive Event where
  | addLog (req : Option CAddLogReq) (time : Int32)
  | cLog (level : CLogLevel) (msg : List UInt8) (filename : String) (line time : Int32)
  | setLogLevel (level : CLogLevel)
  | setServicePort (port : Int32)
  | setServiceName (name : String)
  | timerCb (written : List (List Bool))
  | eventCb (what : What)
  | autoConnectTimerCb (lib : Libevent)

def step (codec : HeadCodec) (c : CLogClient) : Event → Option CLogClient
  | .addLog req time => some (c.addLog req time)
  | .cLog level msg filename line time =>
    some (c.addLog (some (cLogReq level msg filename line)) time)
  | .setLogLevel level => some { c with logLevel := level }
  | .setServicePort port => some { c with servicePort := port }
  | .setServiceName name => some { c with serviceName := name }
  | .timerCb written => some (c.timerCb codec written).2
  | .eventCb what => (c.task.eventCb what).map fun task => { c with task := task }
  | .autoConnectTimerCb lib => some { c with task := c.task.autoConnectTimerCb lib }

/-- The request of a call of `addLog` or `cLog`, and its time. -/
def Event.request : Event → Option (CAddLogReq × Int32)
  | .addLog req time => req.map (·, time)
  | .cLog level msg filename line time => some (cLogReq level msg filename line, time)
  | _ => none

/-- The request that is at or above the level of the client. -/
def accepted (e : Event) (c : CLogClient) : Option (CAddLogReq × Int32) :=
  match e.request with
  | none => none
  | some (req, time) => if req.log_level < c.logLevel then none else some (req, time)

def Event.isTimerCb : Event → Bool
  | .timerCb _ => true
  | _ => false

variable {codec : HeadCodec} {c c' : CLogClient}

@[simp] theorem sendMsg_logs (log : CAddLogReq) (written : List Bool) :
    (c.sendMsg codec log written).2.logs = c.logs := rfl

theorem drain_logs (logs : List CAddLogReq) (written : List (List Bool)) :
    (c.drain codec logs written).2.logs = [] := by
  induction logs generalizing c written with
  | nil => rfl
  | cons log logs ih => exact ih written.tail

/-- Every log in the queue is passed to `sendMsg`, the oldest first. -/
theorem drain_sent (logs : List CAddLogReq) (written : List (List Bool)) :
    (c.drain codec logs written).1.map (·.1) = logs := by
  induction logs generalizing c written with
  | nil => rfl
  | cons log logs ih => exact congrArg (log :: ·) (ih written.tail)

/-- What a step makes of the queue. -/
theorem step_logs {e : Event} (step : c.step codec e = some c') : c'.logs =
    if e.isTimerCb then []
    else match c.accepted e with
      | none => c.logs
      | some (req, _) => BoundedQueue.push LOG_LIST_MAX c.logs req := by
  cases e with
  | addLog req time =>
    obtain rfl := Option.some.inj step
    cases req with
    | none => rfl
    | some req =>
      by_cases low : req.log_level < c.logLevel <;>
        simp only [addLog, accepted, Event.request, Event.isTimerCb, Option.map_some, low, if_true,
          if_false, Bool.false_eq_true]
  | cLog level msg filename line time =>
    obtain rfl := Option.some.inj step
    by_cases low : (cLogReq level msg filename line).log_level < c.logLevel <;>
      simp only [addLog, accepted, Event.request, Event.isTimerCb, low, if_true, if_false,
        Bool.false_eq_true]
  | timerCb written =>
    obtain rfl := Option.some.inj step
    exact drain_logs c.logs written
  | eventCb what =>
    obtain ⟨task, -, rfl⟩ := Option.map_eq_some_iff.mp step
    rfl
  | _ =>
    obtain rfl := Option.some.inj step
    rfl

theorem accepted_timerCb {e : Event} (drains : e.isTimerCb) (c : CLogClient) :
    c.accepted e = none := by
  cases e with
  | timerCb written => rfl
  | _ => cases drains

/-- A log can be accepted at any time. -/
theorem step_of_accepted (codec : HeadCodec) {e : Event} (accepts : (c.accepted e).isSome) :
    ∃ c', c.step codec e = some c' := by
  cases e with
  | addLog req time => exact ⟨_, rfl⟩
  | cLog level msg filename line time => exact ⟨_, rfl⟩
  | _ => cases accepts

end CLogClient

end MicroserviceFramework.Log
