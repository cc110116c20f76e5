import MicroserviceFramework.Auth.Login
import MicroserviceFramework.Log.LogDelivery

/-!
# Where a log comes from

`addLog` makes a copy of the request that says when it was logged and by which service, and queues
the request. So a log says so only if its caller did. The log server stores what it gets, and fills
in only the ip of the client.
-/

namespace MicroserviceFramework.Log

open Library Library.Wire Platform
open Auth (cstr)

/-! ## The log server -/

/-- A row of `cms_log`. -/
structure LogRow where
  service_name : String
  service_ip : String
  service_port : Int32
  log_txt : List UInt8
  log_time : Int32
  log_level : CLogLevel
  deriving DecidableEq, Repr

/-- The bound values; the text is a C string too. -/
def LogRow.ofReq (req : CAddLogReq) : LogRow where
  service_name := cstr req.service_name
  service_ip := cstr req.service_ip
  service_port := req.service_port
  log_txt := req.log_txt.takeWhile (· ≠ 0)
  log_time := req.log_time
  log_level := req.log_level

/-- `ok` is whether the statement succeeds. -/
def CLogDAO.addLog (ok : Bool) (req : Option CAddLogReq) (rows : List LogRow) :
    Bool × List LogRow :=
  match req with
  | none => (false, rows)
  | some req => if ok then (true, rows ++ [.ofReq req]) else (false, rows)

/-- A body that does not parse is reported, and stored as far as it was decoded. -/
def CLogHandle.addLogReq [Protobuf] (ok : Bool) (clientIp : String) (body : List UInt8)
    (rows : List LogRow) : List LogRow :=
  let req : CAddLogReq := (Message.parse body).2
  let req := if req.service_ip = "" then { req with service_ip := clientIp } else req
  (CLogDAO.addLog ok req rows).2

/-- The row of a message that protobuf can serialise. -/
theorem CLogHandle.mem_addLogReq [Protobuf] {ok : Bool} {clientIp : String} {log : CAddLogReq}
    {rows : List LogRow} {row : LogRow} (fits : (Message.serialize log).length < 2 ^ 31)
    (stored : row ∈ addLogReq ok clientIp (Message.serialize log) rows) :
    row ∈ rows ∨ row = .ofReq { log with
      service_ip := if log.service_ip = "" then clientIp else log.service_ip } := by
  rw [addLogReq, Message.parse_serialize fits] at stored
  cases ok with
  | false => exact .inl stored
  | true =>
    refine (List.mem_append.mp stored).imp_right fun new => ?_
    rw [List.mem_singleton.mp new]
    dsimp only
    split
    next empty => rfl
    next => rfl

/-! ## One log -/

/-- The log has a time, its own or that of `addLog`, and the service that was configured then, and
is the request otherwise. A row that is stored for it has that time and service too. -/
structure Logged.Named [Protobuf] (logged : Logged) (log : CAddLogReq) : Prop where
  positive : 0 < log.log_time
  same : log = { logged.req with
    log_time := if 0 < logged.req.log_time then logged.req.log_time else logged.time
    service_port := logged.servicePort
    service_name := logged.serviceName }
  row : (Message.serialize log).length < 2 ^ 31 → ∀ ok clientIp,
    ∀ row ∈ CLogHandle.addLogReq ok clientIp (Message.serialize log) [],
      0 < row.log_time ∧ row.service_port = logged.servicePort ∧
        row.service_name = cstr logged.serviceName

/-- The request came with all that, from the caller. -/
structure Logged.Complete (logged : Logged) : Prop where
  time : 0 < logged.req.log_time
  port : logged.req.service_port = logged.servicePort
  name : logged.req.service_name = logged.serviceName

instance (logged : Logged) : Decidable logged.Complete :=
  decidable_of_iff (0 < logged.req.log_time ∧ logged.req.service_port = logged.servicePort ∧
    logged.req.service_name = logged.serviceName)
    ⟨fun ⟨time, port, name⟩ => ⟨time, port, name⟩, fun ⟨time, port, name⟩ => ⟨time, port, name⟩⟩

theorem Logged.named_of_same [Protobuf] {logged : Logged} {log : CAddLogReq}
    (positive : 0 < log.log_time) (same : log = { logged.req with
      log_time := if 0 < logged.req.log_time then logged.req.log_time else logged.time
      service_port := logged.servicePort
      service_name := logged.serviceName }) : logged.Named log := by
  refine ⟨positive, same, fun fits ok clientIp row stored => ?_⟩
  obtain rfl := (CLogHandle.mem_addLogReq fits stored).resolve_left List.not_mem_nil
  have port := congrArg CAddLogReq.service_port same
  have name := congrArg CAddLogReq.service_name same
  exact ⟨positive, port, congrArg cstr name⟩

/-- The copy that `addLog` makes is as it should be. -/
theorem CLogClient.named_attributed [Protobuf] (c : CLogClient) (req : CAddLogReq) {time : Int32}
    (positive : 0 < time) :
    Logged.Named ⟨req, time, c.servicePort, c.serviceName⟩ (c.attributed req time) := by
  have own : req.log_time ≤ 0 ↔ ¬0 < req.log_time := by
    rw [Int32.not_lt]
  refine Logged.named_of_same ?_ ?_
  · simp only [attributed, own]
    split <;> simp_all
  · simp only [attributed, own, ite_not]

/-- And what it queues only if it is so already. -/
theorem Logged.named_req_iff [Protobuf] (logged : Logged) :
    logged.Named logged.req ↔ logged.Complete := by
  constructor
  · intro named
    refine ⟨named.positive, ?_, ?_⟩
    · exact congrArg CAddLogReq.service_port named.same
    · exact congrArg CAddLogReq.service_name named.same
  · rintro ⟨time, port, name⟩
    refine Logged.named_of_same time ?_
    rw [if_pos time, ← port, ← name]

/-- The request of `cms::cLog` has no time. -/
theorem CLogClient.cLog_not_complete (level : CLogLevel) (msg : List UInt8) (filename : String)
    (line time port : Int32) (name : String) :
    ¬Logged.Complete ⟨cLogReq level msg filename line, time, port, name⟩ := by
  intro complete
  have positive : (0 : Int32) < 0 := complete.time
  exact absurd positive (by decide)

/-! ## Every log that is sent -/

namespace LogDelivery

/-- A log that is passed to `sendMsg` names its origin. -/
def NamesOrigin [Protobuf] (s : LogDelivery) : Event → Prop
  | .sendMsg _ => ∀ i logged log, s.ledger.hand = some i → s.ledger.entries[i]? = some logged →
      s.log = some log → logged.Named log
  | _ => True

/-- Its request did so when it was logged. -/
def SendsComplete (s : LogDelivery) : Event → Prop
  | .sendMsg _ => ∀ i logged, s.ledger.hand = some i → s.ledger.entries[i]? = some logged →
      logged.Complete
  | _ => True

variable {codec : HeadCodec} {s t : LogDelivery}

/-- The log that is sent is the request that was accepted. -/
theorem Tallies.log_eq (tallies : s.Tallies) {i : Nat} {logged : Logged}
    (hand : s.ledger.hand = some i) (entry : s.ledger.entries[i]? = some logged) :
    s.log = some logged.req := by
  rcases held : s.log with _ | log
  · cases hand.symm.trans (tallies.idle held)
  · obtain ⟨j, logged', hand', entry', rfl⟩ := tallies.hand log held
    obtain rfl := Option.some.inj (hand.symm.trans hand')
    obtain rfl := Option.some.inj (entry.symm.trans entry')
    rfl

theorem namesOrigin_iff [Protobuf] (tallies : s.Tallies) (e : Event) :
    s.NamesOrigin e ↔ s.SendsComplete e := by
  cases e with
  | sendMsg written =>
    refine forall_congr' fun i => forall_congr' fun logged => ?_
    constructor
    · intro names hand entry
      exact logged.named_req_iff.mp (names _ hand entry (tallies.log_eq hand entry))
    · intro complete log hand entry held
      obtain rfl := Option.some.inj ((tallies.log_eq hand entry).symm.trans held)
      exact logged.named_req_iff.mpr (complete hand entry)
  | _ => exact Iff.rfl

/-- Every log that `timerCb` passes to `sendMsg` names its origin, and so does its row, exactly if
each of them came to `addLog` with a positive time and the service that was configured. -/
theorem sent_logs_name_origin [Protobuf] (codec : HeadCodec) (client : CLogClient)
    (events : List Event) :
    (machine codec).Along NamesOrigin (start client) events ↔
      (machine codec).Along SendsComplete (start client) events :=
  (machine codec).along_congr machine_preserves_tallies
    (fun _ e tallies => namesOrigin_iff tallies e) (.start client) events

/-- The callers see to it, every time. -/
def AddsComplete (s : LogDelivery) : Event → Prop
  | .call e => ∀ req time, s.client.accepted e = some (req, time) →
      Logged.Complete ⟨req, time, s.client.servicePort, s.client.serviceName⟩
  | _ => True

def AllComplete (s : LogDelivery) : Prop := ∀ logged ∈ s.ledger.entries, logged.Complete

theorem machine_preserves_allComplete : (machine codec).Preserves AddsComplete AllComplete := by
  intro s e t all adds step
  replace step : s.step codec e = some t := step
  cases e with
  | call e =>
    obtain ⟨client, -, -, rfl⟩ := step_call step
    rcases new : s.client.accepted e with _ | ⟨req, time⟩
    · exact all
    · intro logged mem
      rw [Option.elim_some, Ledger.entries_push] at mem
      rcases List.mem_append.mp mem with before | now
      · exact all logged before
      · rw [List.mem_singleton.mp now]
        exact adds req time new
  | pop =>
    obtain ⟨log, logs, -, -, rfl⟩ := step_pop step
    exact all
  | sendMsg written =>
    obtain ⟨log, -, rfl⟩ := step_sendMsg step
    intro logged mem
    rw [Ledger.entries_settle] at mem
    exact all logged mem

/-- That is enough. -/
theorem sends_complete_of_adds {client : CLogClient} {events : List Event}
    (adds : (machine codec).Along AddsComplete (start client) events) :
    (machine codec).Along SendsComplete (start client) events := by
  refine (machine codec).along_of_invariant machine_preserves_allComplete ?_ (by rintro _ ⟨⟩) adds
  intro s e all _
  cases e with
  | sendMsg written => exact fun i logged _ entry => all logged (List.mem_of_getElem? entry)
  | _ => trivial

open Library.Wire.Reader

/-- A log through `cms::cLog`, by a service whose port and name are set. -/
theorem cLog_without_origin :
    ¬(machine CMsgHead.codec).Along NamesOrigin (start {})
      [.call (.setServicePort 20011), .call (.setServiceName "dir"),
        .call (.cLog .CLOG_ERROR [101, 114, 114] "main.cpp" 7 1700000000), .pop, .sendMsg []] := by
  rintro ⟨-, rest⟩
  have names := ((((rest _ rfl).2 _ rfl).2 _ rfl).2 _ rfl).1
  exact absurd (names 0 _ _ rfl rfl rfl).positive (by decide)

end LogDelivery

end MicroserviceFramework.Log
