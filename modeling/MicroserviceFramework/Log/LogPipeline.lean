import MicroserviceFramework.Log.LogOrigin
import MicroserviceFramework.Platform.Reader

/-!
# Logs on their way to the table

The client takes a log from its queue, frames it and writes it to its connection; the log server
cuts the stream back into messages, as it comes in, and stores a row for each. Over one connection
that is cut where it may be, the rows are the logs that were sent, in their order and each once, and
a log that was not sent was discarded by a full queue or is still with the client.
-/

namespace MicroserviceFramework.Log

open Library Library.Wire Platform Receiver

/-! ## The frame of a log -/

theorem length_varint_le (k n : Nat) : (varint k n).length ≤ k + 1 := by
  fun_induction varint k n <;> grind

def logHead : CMsgHead := { msgType := .MSG_ADD_LOG_REQ }

theorem length_varint_field_le (number value : Nat) :
    (Field.varint number value).bytes.length ≤ 15 := by
  have tag := length_varint_le 4 (number * 8)
  have content := length_varint_le 9 value
  simp only [Field.bytes, Field.tag, Field.value, Field.number, Field.wireType, List.length_append,
    Nat.add_zero]
  omega

/-- The header of a log has two numbers. -/
theorem length_logHead_le [Protobuf] (size : Int) :
    (CMsgHead.codec.serialize (logHead.sized size)).length ≤ 30 := by
  have first := length_varint_field_le 1 (Kind.word (Int32.ofInt size).toInt)
  have second := length_varint_field_le 2 (Kind.word CMsgType.MSG_ADD_LOG_REQ.toInt)
  have fields : CMsgHead.codec.serialize (logHead.sized size) =
      fieldBytes ((Kind.int32.write 1 (Int32.ofInt size)).toList ++
        [.varint 2 (Kind.word CMsgType.MSG_ADD_LOG_REQ.toInt)]) := rfl
  rw [fields, Kind.write]
  split
  · simpa [fieldBytes] using Nat.le_trans second (by decide)
  · simp only [fieldBytes, Option.toList_some, List.cons_append, List.nil_append,
      List.flatMap_cons, List.flatMap_nil, List.append_nil, List.length_append]
    omega

/-- The receiver takes the message of this log. -/
def Small (log : CAddLogReq) : Prop := (Message.serialize log).length ≤ 8192

instance (log : CAddLogReq) : Decidable (Small log) := inferInstanceAs (Decidable (_ ≤ _))

def logFrame [Protobuf] (log : CAddLogReq) (small : Small log) : Frame CMsgHead.codec where
  head := logHead
  body := Message.serialize log
  body_fits := Nat.lt_of_le_of_lt small (by decide)
  head_fits := Nat.lt_of_le_of_lt (length_logHead_le _) (by decide)
  accepted := by
    refine ⟨fun empty => ?_, Nat.le_trans (length_logHead_le _) (by decide), small⟩
    have typed : CMsgType.MSG_ADD_LOG_REQ = 0 :=
      congrArg CMsgHead.msgType (CMsgHead.codec.eq_default empty)
    exact absurd typed (by decide)

/-- The frames of the logs that fit. -/
def framesOf [Protobuf] (logs : List CAddLogReq) : List (Frame CMsgHead.codec) :=
  logs.filterMap fun log => if small : Small log then some (logFrame log small) else none

/-! ## The log server -/

/-- The messages of a connection, one after the other; `oks` are the outcomes of the statements.
Only logs have a handler. -/
def CLogHandle.serve [Protobuf] (clientIp : String) :
    List Bool → List (CMsgHead × List UInt8) → List LogRow → List LogRow
  | _, [], rows => rows
  | oks, (head, body) :: rest, rows =>
    if head.msgType = .MSG_ADD_LOG_REQ then
      serve clientIp oks.tail rest (addLogReq (oks.headD true) clientIp body rows)
    else serve clientIp oks rest rows

/-- The row of a log that comes from this address. -/
def LogRow.ofLog (clientIp : String) (log : CAddLogReq) : LogRow :=
  .ofReq { log with service_ip := if log.service_ip = "" then clientIp else log.service_ip }

/-- The entries whose turn comes out well. -/
def chosen {α : Type*} : List Bool → List α → List α
  | _, [] => []
  | oks, a :: as => if oks.headD true then a :: chosen oks.tail as else chosen oks.tail as

/-- The messages of logs that fit are stored, each as its row. -/
theorem CLogHandle.serve_logs [Protobuf] (clientIp : String) {logs : List CAddLogReq}
    (small : ∀ log ∈ logs, Small log) (oks : List Bool) (rows : List LogRow) :
    serve clientIp oks ((framesOf logs).map (·.content)) rows =
      rows ++ (chosen oks logs).map (LogRow.ofLog clientIp) := by
  induction logs generalizing oks rows with
  | nil => simp [framesOf, serve, chosen]
  | cons log logs ih =>
    have own := small log List.mem_cons_self
    have fits : (Message.serialize log).length < 2 ^ 31 := Nat.lt_of_le_of_lt own (by decide)
    have frames : framesOf (log :: logs) = logFrame log own :: framesOf logs := by
      simp [framesOf, own]
    have typed : (logFrame log own).content.1.msgType = .MSG_ADD_LOG_REQ := rfl
    have body : (logFrame log own).content.2 = Message.serialize log := rfl
    have stored : addLogReq (oks.headD true) clientIp (Message.serialize log) rows =
        rows ++ if oks.headD true then [.ofLog clientIp log] else [] := by
      rw [addLogReq, Message.parse_serialize fits]
      cases oks.headD true with
      | false => simp [CLogDAO.addLog]
      | true =>
        by_cases empty : log.service_ip = "" <;> simp [CLogDAO.addLog, LogRow.ofLog, empty]
    rw [frames, List.map_cons, serve.eq_def]
    dsimp only
    rw [if_pos typed, body, ih (fun log mem => small log (List.mem_cons_of_mem _ mem)), stored,
      chosen]
    split <;> simp

/-! ## The client -/

/-- Writes of which none fails. -/
theorem writeAll_of_true (calls : List (Option (List UInt8) × Int)) {written : List Bool}
    (succeed : ∀ ok ∈ written.take calls.length, ok = true) (t : CComeTask) :
    t.writeAll calls written = t.writeAll calls [] := by
  induction calls generalizing written t with
  | nil => rfl
  | cons call calls ih =>
    have first : written.headD true = true := by
      cases written with
      | nil => rfl
      | cons ok written => exact succeed ok (by simp)
    have rest : ∀ ok ∈ written.tail.take calls.length, ok = true := by
      intro ok mem
      cases written with
      | nil => simp at mem
      | cons ok' written => exact succeed ok (by simpa using Or.inr mem)
    rw [CComeTask.writeAll, CComeTask.writeAll, first]
    dsimp only [List.headD_nil, List.tail_nil]
    split
    · rfl
    · exact ih rest _

/-- A log that can be sent and fits is appended as its frame. -/
theorem CLogClient.sendMsg_small [Protobuf] {c : CLogClient} {log : CAddLogReq}
    {written : List Bool} (can : c.CanSend log written) (small : Small log) :
    c.sendMsg CMsgHead.codec log written =
      (true, { c with task := c.task.append (logFrame log small).bytes }) := by
  have ok := (sendMsg_eq_true CMsgHead.codec log written c).mpr can
  have appended := (logFrame log small).sendMsg_append can.1
  have same : c.task.sendMsg CMsgHead.codec (some logHead)
      (some (.ofBytes (Message.serialize log))) written =
      c.task.sendMsg CMsgHead.codec (some logHead) (some (.ofBytes (Message.serialize log))) [] :=
    writeAll_of_true (CComeTask.parts _ logHead (.ofBytes (Message.serialize log))) can.2.2 c.task
  have task : (c.sendMsg CMsgHead.codec log written).2 =
      { c with task := c.task.append (logFrame log small).bytes } :=
    congrArg (fun task => { c with task := task }) ((congrArg Prod.snd same).trans appended)
  exact Prod.ext ok task

/-- What does not touch the connection leaves it as it is, and so does the timer while it is up. -/
theorem CLogClient.step_task {codec : HeadCodec} {c c' : CLogClient} {e : CLogClient.Event}
    (up : c.task.isConnected = true) (untimed : e.isTimerCb = false)
    (stays : ∀ what, e ≠ .eventCb what) (step : c.step codec e = some c') : c'.task = c.task := by
  cases e with
  | addLog req time =>
    obtain rfl := Option.some.inj step
    unfold addLog
    grind
  | cLog level msg filename line time =>
    obtain rfl := Option.some.inj step
    unfold addLog
    grind
  | setLogLevel level =>
    obtain rfl := Option.some.inj step
    rfl
  | setServicePort port =>
    obtain rfl := Option.some.inj step
    rfl
  | setServiceName name =>
    obtain rfl := Option.some.inj step
    rfl
  | timerCb written => cases untimed
  | eventCb what => exact absurd rfl (stays what)
  | autoConnectTimerCb lib =>
    obtain rfl := Option.some.inj step
    simp [CComeTask.autoConnectTimerCb, up]

namespace LogDelivery

/-- The logs that were sent, in their order. -/
def sent (s : LogDelivery) : List CAddLogReq :=
  s.ledger.done.filterMap fun i => s.ledger.entries[i]?.map (·.req)

/-- The connection stays, and what is taken from the queue can be sent and fits. -/
def Ships (s : LogDelivery) : Event → Prop
  | .call (.eventCb _) => False
  | .sendMsg written => ∀ log ∈ s.log, s.client.CanSend log written ∧ Small log
  | _ => True

instance (s : LogDelivery) : (e : Event) → Decidable (s.Ships e)
  | .call (.eventCb _) => .isFalse id
  | .sendMsg _ => inferInstanceAs (Decidable (∀ log ∈ s.log, _))
  | .call (.addLog ..) | .call (.cLog ..) | .call (.setLogLevel _) | .call (.setServicePort _)
  | .call (.setServiceName _) | .call (.timerCb _) | .call (.autoConnectTimerCb _) | .pop =>
    .isTrue trivial

structure Shipped [Protobuf] (s : LogDelivery) : Prop where
  tallies : s.Tallies
  failed : s.ledger.failed = []
  ordered : (s.ledger.done ++ s.ledger.hand.toList).Pairwise (· < ·)
  connected : s.client.task.isConnected = true
  up : s.client.task.bev.isSome
  small : ∀ log ∈ s.sent, Small log
  output : s.client.task.output = stream (framesOf s.sent)

variable {s t : LogDelivery}

theorem Shipped.start [Protobuf] {client : CLogClient} (connected : client.task.isConnected = true)
    (up : client.task.bev.isSome) (fresh : client.task.output = []) :
    (LogDelivery.start client).Shipped :=
  ⟨.start client, rfl, List.Pairwise.nil, connected, up, by simp [sent, LogDelivery.start], fresh⟩

theorem done_push (l : Ledger Logged) (limit : Nat) (logged : Logged) :
    (l.push limit logged).done = l.done := by
  unfold Ledger.push
  split <;> rfl

theorem done_lt {l : Ledger Logged} (balanced : l.Balanced) {i : Nat} (mem : i ∈ l.done) :
    i < l.left := by
  have gone : i ∈ List.range l.left := balanced.gone.mem_iff.mp (by simp [mem])
  exact List.mem_range.mp gone

theorem sent_push {l : Ledger Logged} (balanced : l.Balanced) (limit : Nat) (logged : Logged) :
    (l.push limit logged).done.filterMap (fun i => (l.push limit logged).entries[i]?.map (·.req)) =
      l.done.filterMap fun i => l.entries[i]?.map (·.req) := by
  rw [done_push]
  refine List.filterMap_congr fun i mem => ?_
  have within := Nat.lt_of_lt_of_le (done_lt balanced mem) balanced.left_le
  rw [Ledger.entries_push, List.getElem?_append_left within]

theorem Shipped.call [Protobuf] (shipped : s.Shipped) {e : CLogClient.Event}
    (ships : s.Ships (.call e)) (step : s.step CMsgHead.codec (.call e) = some t) : t.Shipped := by
  have tallies := shipped.tallies.call step
  obtain ⟨client, untimed, moved, rfl⟩ := step_call step
  have task : client.task = s.client.task := by
    refine CLogClient.step_task shipped.connected untimed ?_ moved
    rintro what rfl
    exact ships
  rcases new : s.client.accepted e with _ | ⟨req, time⟩
  · rw [new] at tallies
    exact ⟨tallies, shipped.failed, shipped.ordered, task ▸ shipped.connected, task ▸ shipped.up,
      shipped.small, task ▸ shipped.output⟩
  · rw [new] at tallies
    have kept := sent_push shipped.tallies.balanced LOG_LIST_MAX
      ⟨req, time, s.client.servicePort, s.client.serviceName⟩
    refine ⟨tallies, ?_, ?_, task ▸ shipped.connected, task ▸ shipped.up, ?_, ?_⟩
    · exact (Ledger.failed_push _ _).trans shipped.failed
    · rw [Option.elim_some, done_push, Ledger.hand_push]
      exact shipped.ordered
    · rw [sent, Option.elim_some, kept]
      exact shipped.small
    · rw [sent, Option.elim_some, kept]
      exact (congrArg CComeTask.output task).trans shipped.output

theorem Shipped.pop [Protobuf] (shipped : s.Shipped) (step : s.step CMsgHead.codec .pop = some t) :
    t.Shipped := by
  have tallies := shipped.tallies.pop step
  obtain ⟨log, logs, idle, queue, rfl⟩ := step_pop step
  refine ⟨tallies, shipped.failed, ?_, shipped.connected, shipped.up, shipped.small,
    shipped.output⟩
  have empty := shipped.tallies.idle idle
  have ordered := shipped.ordered
  rw [empty, Option.toList_none, List.append_nil] at ordered
  refine List.pairwise_append.mpr ⟨ordered, List.pairwise_singleton _ _, ?_⟩
  intro i mem j last
  obtain rfl := List.mem_singleton.mp last
  exact done_lt shipped.tallies.balanced mem

theorem Shipped.sendMsg [Protobuf] (shipped : s.Shipped) {written : List Bool}
    (ships : s.Ships (.sendMsg written))
    (step : s.step CMsgHead.codec (.sendMsg written) = some t) : t.Shipped := by
  have tallies := shipped.tallies.sendMsg step
  obtain ⟨log, held, rfl⟩ := step_sendMsg step
  obtain ⟨can, small⟩ := ships log held
  obtain ⟨i, logged, hand, entry, rfl⟩ := shipped.tallies.hand log held
  rw [CLogClient.sendMsg_small can small] at tallies ⊢
  have added : (LogDelivery.sent
      { client := { s.client with task := s.client.task.append (logFrame logged.req small).bytes }
        ledger := s.ledger.settle true }) = s.sent ++ [logged.req] := by
    simp [sent, Ledger.settle, hand, entry]
  refine ⟨tallies, shipped.failed, ?_, shipped.connected, ?_, ?_, ?_⟩
  · have settled : (s.ledger.settle true).done ++ (s.ledger.settle true).hand.toList =
        s.ledger.done ++ s.ledger.hand.toList := by simp [Ledger.settle]
    exact settled ▸ shipped.ordered
  · exact (CComeTask.append_bev_isSome _ _).trans shipped.up
  · rw [added]
    intro log mem
    rcases List.mem_append.mp mem with before | now
    · exact shipped.small log before
    · exact List.mem_singleton.mp now ▸ small
  · rw [added, CComeTask.append_output shipped.up, shipped.output]
    simp [stream, framesOf, small]

theorem machine_preserves_shipped [Protobuf] :
    (machine CMsgHead.codec).Preserves Ships Shipped := by
  intro s e t shipped ships step
  replace step : s.step CMsgHead.codec e = some t := step
  cases e with
  | call e => exact shipped.call ships step
  | pop => exact shipped.pop step
  | sendMsg written => exact shipped.sendMsg ships step

/-- Over one connection, cut only where it may be, the rows of the log server are the logs that were
sent, each once and in the order in which they were accepted, as far as their statements succeed. Of
the logs that have left the queue all others were discarded when it was full, but for the one that
is about to be sent. -/
theorem logs_arrive [Protobuf] {client : CLogClient} (connected : client.task.isConnected = true)
    (up : client.task.bev.isSome) (fresh : client.task.output = []) {events : List Event}
    (ships : (machine CMsgHead.codec).Along Ships (start client) events)
    (run : (machine CMsgHead.codec).run (start client) events = some s) :
    s.ledger.done.Pairwise (· < ·) ∧
    (∀ i < s.ledger.left, i ∈ s.ledger.done ∨ i ∈ s.ledger.dropped ∨ s.ledger.hand = some i) ∧
    s.client.task.output = stream (framesOf s.sent) ∧
    ∀ chunks : List (List UInt8), chunks.flatten = s.client.task.output →
      CutsAllowed (framesOf s.sent) chunks → ∀ clientIp oks,
        CLogHandle.serve clientIp oks
            ((transduce (recv CMsgHead.codec) {} chunks).1.map Dispatch.content) [] =
          (chosen oks s.sent).map (LogRow.ofLog clientIp) := by
  have shipped := (machine CMsgHead.codec).run_invariant machine_preserves_shipped
    (.start connected up fresh) ships run
  have accounted := shipped.tallies.balanced.accounted_iff.mpr shipped.failed
  refine ⟨(List.pairwise_append.mp shipped.ordered).1, accounted.left, shipped.output, ?_⟩
  intro chunks cut allowed clientIp oks
  have contents : (framesOf s.sent).map (fun f => f.dispatch.content) =
      (framesOf s.sent).map (·.content) := List.map_congr_left fun f _ => f.dispatch_content
  rw [transduce_stream (cut.trans shipped.output) allowed, List.map_map, Function.comp_def,
    contents, CLogHandle.serve_logs clientIp shipped.small]
  exact List.nil_append _

open Library.Wire.Reader

/-- A client that is connected to the log server. -/
def connectedClient : CLogClient where
  task := { autoDelete := false, isConnecting := false, isConnected := true, bev := some {} }

def diskFull : CAddLogReq where
  log_level := .CLOG_ERROR
  log_txt := [0x66, 0x75, 0x6c, 0x6c]
  filename := "main.cpp"

def lateReply : CAddLogReq where
  log_level := .CLOG_INFO
  log_txt := [0x6c, 0x61, 0x74, 0x65]
  filename := "main.cpp"

/-- Both logs are in the queue before the first is sent. -/
def twoLogs : List Event :=
  [.call (.addLog (some diskFull) 1700000000), .call (.addLog (some lateReply) 1700000001), .pop,
    .sendMsg [], .pop, .sendMsg []]

/-- The stream comes in three chunks, cut in the body of each message. The statement of the first log
fails. -/
theorem logs_arrive_twoLogs : ∃ s,
    (machine CMsgHead.codec).run (start connectedClient) twoLogs = some s ∧
    let output := s.client.task.output
    CLogHandle.serve "10.0.0.7" [false, true]
        ((transduce (recv CMsgHead.codec) {}
          [output.take 15, (output.drop 15).take 26, output.drop 41]).1.map Dispatch.content) [] =
      [{ service_name := "", service_ip := "10.0.0.7", service_port := 0,
         log_txt := [0x6c, 0x61, 0x74, 0x65], log_time := 0, log_level := .CLOG_INFO }] := by
  obtain ⟨s, run⟩ : ∃ s, (machine CMsgHead.codec).run (start connectedClient) twoLogs = some s :=
    ⟨_, rfl⟩
  have ships : (machine CMsgHead.codec).Along Ships (start connectedClient) twoLogs := by
    decide +kernel
  obtain ⟨-, -, output, arrive⟩ := logs_arrive rfl rfl rfl ships run
  have sent : s.sent = [diskFull, lateReply] := by
    cases run
    rfl
  rw [sent] at output arrive
  refine ⟨s, run, ?_⟩
  dsimp only
  rw [arrive _ (by rw [output]; decide +kernel) (by rw [output]; decide +kernel)]
  decide +kernel

end LogDelivery

end MicroserviceFramework.Log
